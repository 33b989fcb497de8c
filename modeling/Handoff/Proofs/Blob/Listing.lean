import Mathlib.Data.List.TakeWhile
import Handoff.Proofs.Blob.KeyValue
/-!
# Listings

A listing gives the keys that have a value and start as wanted.  It succeeds as long as
all of them are valid; a single invalid one fails it.
-/

namespace Handoff

/-! ## Scans of an ordered list -/

section Scan

variable {α : Type} {p : α → Bool}

/-- When a list begins with all of its elements that have the property, these are what is
taken of it. -/
theorem mem_takeWhile_iff {l : List α} (h : l.Pairwise fun x y => p y = true → p x = true)
    {x : α} : x ∈ l.takeWhile p ↔ x ∈ l ∧ p x = true := by
  induction l with
  | nil => simp
  | cons a l ih =>
      obtain ⟨hfirst, hrest⟩ := List.pairwise_cons.1 h
      by_cases ha : p a = true
      · rw [List.takeWhile_cons_of_pos ha, List.mem_cons, List.mem_cons, ih hrest]
        constructor
        · rintro (rfl | ⟨hx, hp⟩)
          · exact ⟨.inl rfl, ha⟩
          · exact ⟨.inr hx, hp⟩
        · rintro ⟨rfl | hx, hp⟩
          · exact .inl rfl
          · exact .inr ⟨hx, hp⟩
      · rw [List.takeWhile_cons_of_neg ha]
        refine ⟨fun hx => absurd hx List.not_mem_nil, ?_⟩
        rintro ⟨hx, hp⟩
        rcases List.mem_cons.1 hx with rfl | hx
        · exact absurd hp ha
        · exact absurd (hfirst x hx hp) ha

/-- When a list begins with all of its elements that have the property, these are what is
dropped from it. -/
theorem mem_dropWhile_iff {l : List α} (h : l.Pairwise fun x y => p y = true → p x = true)
    {x : α} : x ∈ l.dropWhile p ↔ x ∈ l ∧ ¬ p x = true := by
  induction l with
  | nil => simp
  | cons a l ih =>
      obtain ⟨hfirst, hrest⟩ := List.pairwise_cons.1 h
      by_cases ha : p a = true
      · rw [List.dropWhile_cons_of_pos ha, ih hrest, List.mem_cons]
        constructor
        · exact fun ⟨hx, hp⟩ => ⟨.inr hx, hp⟩
        · rintro ⟨rfl | hx, hp⟩
          · exact absurd ha hp
          · exact ⟨hx, hp⟩
      · rw [List.dropWhile_cons_of_neg ha]
        refine ⟨fun hx => ⟨hx, ?_⟩, And.left⟩
        rcases List.mem_cons.1 hx with rfl | hx
        · exact ha
        · exact fun hp => ha (hfirst x hx hp)

end Scan

theorem not_lt_of_isPrefixOf {start text : List Char} (h : start.isPrefixOf text = true) :
    ¬ text < start := by
  induction start generalizing text with
  | nil => exact List.not_lt_nil text
  | cons c start ih =>
      cases text with
      | nil => cases h
      | cons d text =>
          simp only [List.isPrefixOf_cons_cons, Bool.and_eq_true, beq_iff_eq] at h
          obtain ⟨rfl, h⟩ := h
          rw [List.cons_lt_cons_iff]
          rintro (hlt | ⟨-, hlt⟩)
          · exact Char.lt_irrefl c hlt
          · exact ih h hlt

/-- What lies between a text and one that starts with it starts with it too. -/
theorem isPrefixOf_of_between {start low high : List Char} (hlow : ¬ low < start)
    (hbetween : low < high) (h : start.isPrefixOf high = true) :
    start.isPrefixOf low = true := by
  induction start generalizing low high with
  | nil => rfl
  | cons c start ih =>
      cases high with
      | nil => cases h
      | cons e high =>
          simp only [List.isPrefixOf_cons_cons, Bool.and_eq_true, beq_iff_eq] at h
          obtain ⟨rfl, h⟩ := h
          cases low with
          | nil => exact absurd (List.nil_lt_cons c start) hlow
          | cons d low =>
              rw [List.cons_lt_cons_iff, not_or] at hlow
              rcases List.cons_lt_cons_iff.1 hbetween with hlt | ⟨rfl, hlt⟩
              · exact absurd hlt hlow.1
              · have hrest : ¬ low < start := fun hless => hlow.2 ⟨rfl, hless⟩
                simpa using ih hrest hlt h

/-! ## Checked keys -/

namespace MemoryStore

theorem checkKeys_eq_ok_iff {texts : List String} {keys : List BlobKey} :
    checkKeys texts = .ok keys ↔
      (∀ text ∈ texts, (⟨text⟩ : BlobKey).Valid) ∧ keys = texts.map BlobKey.mk := by
  induction texts generalizing keys with
  | nil =>
      constructor
      · intro h
        exact ⟨by simp, (Except.ok.inj h).symm⟩
      · rintro ⟨-, rfl⟩
        rfl
  | cons text rest ih =>
      rw [checkKeys, List.mapM_cons, ← checkKeys, BlobKey.ofText, List.forall_mem_cons,
        BlobKey.Valid]
      cases BlobKey.fault? text with
      | some fault => simp [Bind.bind, Except.bind]
      | none =>
          cases hrest : checkKeys rest with
          | error fault =>
              have hno : ¬ ∀ text ∈ rest, (⟨text⟩ : BlobKey).Valid := fun hall => by
                have := ih.2 ⟨hall, rfl⟩
                rw [hrest] at this
                cases this
              simp [Bind.bind, Except.bind, hno]
          | ok checked =>
              obtain ⟨hall, rfl⟩ := ih.1 hrest
              constructor
              · intro h
                exact ⟨⟨rfl, hall⟩, (Except.ok.inj h).symm⟩
              · rintro ⟨-, rfl⟩
                rfl

end MemoryStore

/-! ## Stores that list their keys -/

/-- The model is a map, and a listing checks the keys that have a value and start as
wanted. -/
structure Listing {σ : Type} (model : StoreModel σ) extends KeyValue model where
  /-- The texts that a listing finds. -/
  keysFrom : String → σ → List String
  list_eq : ∀ start s, model (.list start) s = (MemoryStore.checkKeys (keysFrom start s), s)
  mem_keysFrom : ∀ {start : String}, '\x00' ∉ start.toList → ∀ s text,
    text ∈ keysFrom start s ↔
      (contents s ⟨text⟩).isSome ∧ MemoryStore.startsWith start text = true

namespace Listing

variable {σ : Type} {model : StoreModel σ} (listing : Listing model)
include listing

theorem mem_of_list_ok {start : String} (hstart : '\x00' ∉ start.toList) {s : σ}
    {keys : List BlobKey} (h : (model (.list start) s).1 = .ok keys) (key : BlobKey) :
    key ∈ keys ↔
      (listing.contents s key).isSome ∧ MemoryStore.startsWith start key.text = true := by
  rw [listing.list_eq] at h
  obtain ⟨-, rfl⟩ := MemoryStore.checkKeys_eq_ok_iff.1 h
  rw [← listing.mem_keysFrom hstart s key.text]
  constructor
  · intro hkey
    obtain ⟨text, htext, rfl⟩ := List.mem_map.1 hkey
    exact htext
  · exact fun htext => List.mem_map.2 ⟨key.text, htext, rfl⟩

/-- A listing succeeds exactly when every key that it finds is valid. -/
theorem list_ok_iff {start : String} (hstart : '\x00' ∉ start.toList) {s : σ} :
    (∃ keys, (model (.list start) s).1 = .ok keys) ↔
      ∀ key, (listing.contents s key).isSome → MemoryStore.startsWith start key.text = true →
        key.Valid := by
  rw [listing.list_eq]
  constructor
  · rintro ⟨keys, h⟩ key hsome hkey
    exact (MemoryStore.checkKeys_eq_ok_iff.1 h).1 key.text
      ((listing.mem_keysFrom hstart s key.text).2 ⟨hsome, hkey⟩)
  · intro h
    refine ⟨_, MemoryStore.checkKeys_eq_ok_iff.2 ⟨fun text htext => ?_, rfl⟩⟩
    obtain ⟨hsome, hkey⟩ := (listing.mem_keysFrom hstart s text).1 htext
    exact h ⟨text⟩ hsome hkey

end Listing

/-- A listing whose keys are all valid gives those that have a value and start as wanted. -/
def KeyValue.Lists {σ : Type} {model : StoreModel σ} (map : KeyValue model) : Prop :=
  ∀ (start : String) (s : σ), '\x00' ∉ start.toList →
    (∀ key, (map.contents s key).isSome → MemoryStore.startsWith start key.text = true →
      key.Valid) →
    ∃ keys, (model (.list start) s).1 = .ok keys ∧
      ∀ key, key ∈ keys ↔
        (map.contents s key).isSome ∧ MemoryStore.startsWith start key.text = true

theorem Listing.lists {σ : Type} {model : StoreModel σ} (listing : Listing model) :
    listing.Lists := by
  intro start s hstart hvalid
  obtain ⟨keys, hkeys⟩ := (listing.list_ok_iff hstart).2 hvalid
  exact ⟨keys, hkeys, listing.mem_of_list_ok hstart hkeys⟩

namespace MemoryStore

theorem mem_keys_iff {blobs : MemoryStore} {text : String} :
    text ∈ blobs.keys ↔ (blobs.get? text).isSome := by
  rw [StringMap.keys, StringMap.get?, ← Option.ne_none_iff_isSome, Ne, List.lookup_eq_none_iff]
  simp

theorem mem_scan {blobs : MemoryStore} {start text : String} :
    text ∈ blobs.scan start ↔ text ∈ blobs.keys ∧ startsWith start text = true := by
  have hsorted : blobs.keys.Pairwise (· < ·) := blobs.ascending
  have hbefore : blobs.keys.Pairwise
      fun x y => decide (y < start) = true → decide (x < start) = true :=
    hsorted.imp fun hxy hy => by
      simp only [decide_eq_true_eq] at hy ⊢
      exact String.lt_trans hxy hy
  have hdropped {x : String} :
      x ∈ blobs.keys.dropWhile (· < start) ↔ x ∈ blobs.keys ∧ ¬ x < start := by
    rw [mem_dropWhile_iff hbefore, decide_eq_true_eq]
  have hwithin : (blobs.keys.dropWhile (· < start)).Pairwise
      fun x y => startsWith start y = true → startsWith start x = true := by
    refine List.Pairwise.imp_of_mem (fun {x y} hx _ hxy hy => ?_)
      (hsorted.sublist (List.dropWhile_sublist _))
    exact isPrefixOf_of_between (hdropped.1 hx).2 hxy hy
  rw [scan, mem_takeWhile_iff hwithin, hdropped]
  constructor
  · exact fun ⟨⟨hkey, _⟩, hstart⟩ => ⟨hkey, hstart⟩
  · exact fun ⟨hkey, hstart⟩ => ⟨⟨hkey, not_lt_of_isPrefixOf hstart⟩, hstart⟩

def listing : Listing answer where
  toKeyValue := keyValue
  keysFrom start blobs := blobs.scan start
  list_eq _ _ := rfl
  mem_keysFrom _ blobs text := by
    rw [mem_scan, mem_keys_iff]
    rfl

end MemoryStore

namespace BlobTable

/-- Without a NUL a text is compared to its end. -/
theorem firstChars_eq_iff {start text : String} (h : '\x00' ∉ start.toList) :
    firstChars text (textLength start) = start ↔ MemoryStore.startsWith start text = true := by
  have hlength : textLength start = start.toList.length := by
    rw [textLength, List.takeWhile_eq_self_iff.2]
    intro c hc
    simpa using fun heq : c = '\x00' => h (heq ▸ hc)
  rw [firstChars, hlength, MemoryStore.startsWith, List.isPrefixOf_iff_prefix,
    List.prefix_iff_eq_take]
  constructor
  · intro heq
    rw [← heq, String.toList_ofList]
    simp
  · intro heq
    rw [← heq, String.ofList_toList]

def listing : Listing answer where
  toKeyValue := keyValue
  keysFrom start rows := rows.keysFrom start
  list_eq _ _ := rfl
  mem_keysFrom hstart rows text := by
    have hselect : (rows.select text).isSome ↔ text ∈ rows.map BlobRow.key := by
      rw [← Option.ne_none_iff_isSome, Ne, select_eq_none_iff]
      simp
    rw [keysFrom, List.mem_mergeSort, List.mem_filter, decide_eq_true_iff,
      firstChars_eq_iff hstart, ← hselect]
    rfl

end BlobTable

end Handoff
