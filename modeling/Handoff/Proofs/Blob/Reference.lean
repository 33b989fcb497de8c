import Mathlib.Data.List.Nodup
import Handoff.Proofs.Blob.Listing
import Handoff.Proofs.Blob.UnitKeys
import Handoff.Proofs.Conversation
import Handoff.Proofs.Text.ByteOrder
/-!
# The answers of a plain map

What a plain map from keys to values answers, call by call.  Its listings give the stored
keys that start as wanted in the order of their bytes, and fail when one of these is not
valid.  The store in memory answers so in every state, and the store in a table answers so
as long as its rows have different keys and no key holds a NUL.
-/

namespace Handoff

namespace BlobKey

/-- The keys that there are: those that were checked, and those of the layout, which are
built without a check. -/
inductive Built : BlobKey → Prop
  | checked {key : BlobKey} (valid : key.Valid) : Built key
  | signal (s : Signal) : Built (BlobKey.signal s)
  | status (id : WorkUnitId) : Built (BlobKey.status id)
  | log (id : WorkUnitId) (label : CommandLabel) (field : LogField) :
      Built (BlobKey.log id label field)

theorem Valid.isControl {key : BlobKey} (h : key.Valid) :
    ∀ c ∈ key.text.toList, Text.isControl c = false := by
  rw [Valid, fault?] at h
  split_ifs at h with _ _ hcontrol
  simpa using hcontrol

theorem Built.nul_notMem {key : BlobKey} (h : key.Built) : '\x00' ∉ key.text.toList := by
  have hnul : Text.isControl '\x00' ≠ false := by decide
  cases h with
  | checked valid => exact fun hmem => hnul (valid.isControl _ hmem)
  | signal s => cases s <;> decide
  | status id => exact fun hmem => hnul ((valid_status id).isControl _ hmem)
  | log id label field => exact fun hmem => hnul (isControl_log _ hmem)

end BlobKey

/-- The key that a call is about; a listing is about many. -/
def StoreCall.key? : StoreCall → Option BlobKey
  | get key => some key
  | put key _ => some key
  | delete key => some key
  | has key => some key
  | list _ => none

/-! ## The reference -/

namespace Contents

open Text (utf8)

/-- The keys are those that have a value and whose bytes start as wanted, each of them once
and in the order of their bytes. -/
structure Enumerates (contents : Contents) (start : String) (keys : List BlobKey) : Prop where
  mem_iff : ∀ key, key ∈ keys ↔
    (contents key).isSome ∧ utf8 start.toList <+: utf8 key.text.toList
  ascending : keys.Pairwise fun a b => utf8 a.text.toList < utf8 b.text.toList

/-- What a listing makes of the keys that it finds: the first that is not valid fails it. -/
def listed (keys : List BlobKey) : Except StoreFault (List BlobKey) :=
  match keys.findSome? fun key => BlobKey.fault? key.text with
  | none => .ok keys
  | some fault => .error (.invalidKey fault)

def Answers (contents : Contents) : (call : StoreCall) → Except StoreFault call.Result → Prop
  | .get key, answer => answer = .ok (contents key)
  | .put _ _, answer => answer = .ok ()
  | .delete _, answer => answer = .ok ()
  | .has key, answer => answer = .ok (contents key).isSome
  | .list start, answer => ∃ keys, contents.Enumerates start keys ∧ answer = listed keys

/-- The calls of the talk are answered as by a plain map, one after the other. -/
def Accounts : Contents → Storage.Talk → Prop
  | _, [] => True
  | contents, ⟨call, answer⟩ :: rest =>
      contents.Answers call answer ∧ Accounts (StoreCall.effect call contents) rest

theorem Enumerates.eq {contents : Contents} {start : String} {a b : List BlobKey}
    (ha : contents.Enumerates start a) (hb : contents.Enumerates start b) : a = b := by
  have hperm : a.Perm b := by
    have nodup {keys : List BlobKey} (h : contents.Enumerates start keys) : keys.Nodup :=
      h.ascending.imp fun {x y} hlt (heq : x = y) => by
        subst heq
        exact List.lt_irrefl _ hlt
    refine (List.perm_ext_iff_of_nodup (nodup ha) (nodup hb)).2 fun key => ?_
    rw [ha.mem_iff, hb.mem_iff]
  exact hperm.eq_of_pairwise (fun x y _ _ hxy hyx => absurd hyx (List.lt_asymm hxy))
    ha.ascending hb.ascending

theorem Answers.eq {contents : Contents} {call : StoreCall} {a b : Except StoreFault call.Result}
    (ha : contents.Answers call a) (hb : contents.Answers call b) : a = b := by
  cases call with
  | list start =>
      obtain ⟨keys, hkeys, rfl⟩ := ha
      obtain ⟨others, hothers, rfl⟩ := hb
      rw [hkeys.eq hothers]
  | _ => exact ha.trans hb.symm

theorem Accounts.eq {contents : Contents} {a b : Storage.Talk} (ha : Accounts contents a)
    (hb : Accounts contents b) (hcalls : a.map Sigma.fst = b.map Sigma.fst) : a = b := by
  induction a generalizing b contents with
  | nil =>
      cases b with
      | nil => rfl
      | cons _ _ => cases hcalls
  | cons first rest ih =>
      cases b with
      | nil => cases hcalls
      | cons other more =>
          obtain ⟨call, answer⟩ := first
          obtain ⟨call', answer'⟩ := other
          obtain ⟨rfl, hrest⟩ := List.cons.inj hcalls
          rw [ha.1.eq hb.1, ih ha.2 hb.2 hrest]

end Contents

theorem MemoryStore.checkKeys_eq (texts : List String) :
    checkKeys texts = Contents.listed (texts.map BlobKey.mk) := by
  induction texts with
  | nil => rfl
  | cons text rest ih =>
      rw [checkKeys, List.mapM_cons, ← checkKeys, ih, BlobKey.ofText, Contents.listed,
        Contents.listed, List.map_cons, List.findSome?_cons]
      cases BlobKey.fault? text with
      | some fault => rfl
      | none =>
          cases (rest.map BlobKey.mk).findSome? fun key => BlobKey.fault? key.text <;> rfl

/-! ## Stores that answer like the reference -/

namespace StoreModel

variable {σ : Type}

def serve (model : StoreModel σ) : List StoreCall → σ → Storage.Talk
  | [], _ => []
  | call :: rest, s => ⟨call, (model call s).1⟩ :: serve model rest (model call s).2

def served (model : StoreModel σ) (calls : List StoreCall) (s : σ) : σ :=
  calls.foldl (fun s call => (model call s).2) s

theorem calls_serve (model : StoreModel σ) (calls : List StoreCall) (s : σ) :
    (model.serve calls s).map Sigma.fst = calls := by
  induction calls generalizing s with
  | nil => rfl
  | cons call rest ih => exact congrArg (call :: ·) (ih _)

end StoreModel

/-- A store that answers each of the calls as a plain map, in all states that it comes to, does
so one call after the other. -/
theorem KeyValue.accounts {σ : Type} {model : StoreModel σ} (map : KeyValue model)
    (tidy : σ → Prop) {calls : List StoreCall} {s : σ} (hs : tidy s)
    (hstep : ∀ call ∈ calls, ∀ s, tidy s →
      (map.contents s).Answers call (model call s).1 ∧ tidy (model call s).2) :
    Contents.Accounts (map.contents s) (model.serve calls s) := by
  induction calls generalizing s with
  | nil => trivial
  | cons call rest ih =>
      obtain ⟨hanswer, hnext⟩ := hstep call List.mem_cons_self s hs
      refine ⟨hanswer, ?_⟩
      rw [← map.contents_snd]
      exact ih hnext fun later hlater => hstep later (List.mem_cons_of_mem _ hlater)

namespace MemoryStore

theorem startsWith_iff {start text : String} :
    startsWith start text = true ↔ Text.utf8 start.toList <+: Text.utf8 text.toList := by
  rw [startsWith, List.isPrefixOf_iff_prefix, Text.utf8_prefix_iff]

theorem enumerates {contents : Contents} {start : String} {texts : List String}
    (hmem : ∀ text, text ∈ texts ↔
      (contents ⟨text⟩).isSome ∧ startsWith start text = true)
    (hsorted : texts.Pairwise (· < ·)) :
    contents.Enumerates start (texts.map BlobKey.mk) where
  mem_iff key := by
    rw [← startsWith_iff, ← hmem]
    exact ⟨fun h => by obtain ⟨text, htext, rfl⟩ := List.mem_map.1 h; exact htext,
      fun h => List.mem_map.2 ⟨key.text, h, rfl⟩⟩
  ascending := by
    rw [List.pairwise_map]
    exact hsorted.imp Text.utf8_lt_of_lt

theorem answers (call : StoreCall) (blobs : MemoryStore) :
    (keyValue.contents blobs).Answers call (answer call blobs).1 := by
  cases call with
  | list start =>
      have hmem (text : String) : text ∈ blobs.scan start ↔
          (keyValue.contents blobs ⟨text⟩).isSome ∧ startsWith start text = true := by
        rw [mem_scan, mem_keys_iff]
        rfl
      have hsorted : (blobs.scan start).Pairwise (· < ·) :=
        (blobs.ascending.sublist (List.dropWhile_sublist _)).sublist (List.takeWhile_sublist _)
      exact ⟨_, enumerates hmem hsorted, checkKeys_eq _⟩
  | _ => rfl

/-- Whatever it is asked, an empty store in memory answers as a plain map does. -/
theorem accounts (calls : List StoreCall) :
    Contents.Accounts (fun _ => none) (answer.serve calls StringMap.empty) :=
  keyValue.accounts (fun _ => True) (s := StringMap.empty) trivial
    fun call _ blobs _ => ⟨answers call blobs, trivial⟩

end MemoryStore

namespace BlobTable

/-- The rows have different keys, and no key holds a NUL. -/
structure Tidy (rows : BlobTable) : Prop where
  nodup : (rows.map BlobRow.key).Nodup
  plain : ∀ text ∈ rows.map BlobRow.key, '\x00' ∉ text.toList

theorem keys_set (rows : BlobTable) (key : String) (value : ByteArray) :
    (rows.map fun row => if row.key = key then { row with value } else row).map BlobRow.key =
      rows.map BlobRow.key := by
  rw [List.map_map]
  refine List.map_congr_left fun row _ => ?_
  dsimp only [Function.comp]
  split <;> rfl

theorem Tidy.upsert {rows : BlobTable} (h : rows.Tidy) {key : String} (value : ByteArray)
    (hkey : '\x00' ∉ key.toList) : (rows.upsert key value).Tidy := by
  unfold BlobTable.upsert
  split
  · exact ⟨by rw [keys_set]; exact h.nodup, by rw [keys_set]; exact h.plain⟩
  · next hnone =>
    have hfresh : key ∉ rows.map BlobRow.key := by simpa using hnone
    have hkeys : (rows ++ [(⟨key, value⟩ : BlobRow)]).map BlobRow.key =
        rows.map BlobRow.key ++ [key] := by
      rw [List.map_append, List.map_singleton]
    refine ⟨?_, ?_⟩ <;> rw [hkeys]
    · exact h.nodup.append (List.nodup_singleton key) (List.disjoint_singleton.2 hfresh)
    · exact List.forall_mem_append.2 ⟨h.plain, List.forall_mem_singleton.2 hkey⟩

theorem Tidy.remove {rows : BlobTable} (h : rows.Tidy) (key : String) :
    (rows.remove key).Tidy := by
  have hkept : ((rows.remove key).map BlobRow.key).Sublist (rows.map BlobRow.key) :=
    List.filter_sublist.map BlobRow.key
  exact ⟨h.nodup.sublist hkept, fun text htext => h.plain text (hkept.subset htext)⟩

/-- A text with a NUL is longer than its length says, and equals no first part of a key. -/
theorem firstChars_ne {start : String} (h : '\x00' ∈ start.toList) (text : String) :
    firstChars text (textLength start) ≠ start := by
  intro heq
  have hshort : (start.toList.takeWhile (· != '\x00')).length < start.toList.length := by
    refine Nat.lt_of_le_of_ne (List.takeWhile_sublist _).length_le fun hlength => ?_
    have hall := List.takeWhile_eq_self_iff.1
      ((List.takeWhile_sublist _).eq_of_length hlength)
    simpa using hall _ h
  have hlength := congrArg (fun text => text.toList.length) heq
  simp only [firstChars, String.toList_ofList, List.length_take, textLength] at hlength
  omega

theorem Tidy.mem_keysFrom {rows : BlobTable} (h : rows.Tidy) (start text : String) :
    text ∈ rows.keysFrom start ↔
      (rows.select text).isSome ∧ MemoryStore.startsWith start text = true := by
  by_cases hstart : '\x00' ∈ start.toList
  · -- No key starts so, since no key holds a NUL.
    have hnone : text ∉ rows.keysFrom start := by
      simp [keysFrom, firstChars_ne hstart]
    refine iff_of_false hnone fun ⟨hsome, htext⟩ => ?_
    have hkey : text ∈ rows.map BlobRow.key := by
      by_contra hno
      have habsent : rows.select text = none := select_eq_none_iff.2 (by simpa using hno)
      rw [habsent] at hsome
      cases hsome
    rw [MemoryStore.startsWith, List.isPrefixOf_iff_prefix] at htext
    exact h.plain text hkey (htext.subset hstart)
  · exact listing.mem_keysFrom hstart rows text

theorem Tidy.ascending {rows : BlobTable} (h : rows.Tidy) (start : String) :
    (rows.keysFrom start).Pairwise (· < ·) := by
  have hsorted : (rows.keysFrom start).Pairwise (· ≤ ·) := Text.sorted_mergeSort id _
  have hnodup : (rows.keysFrom start).Nodup :=
    (List.mergeSort_perm _ _).nodup_iff.2 (h.nodup.filter _)
  refine hsorted.imp₂ (fun a b hle hne => ?_) hnodup
  exact Std.lt_of_le_of_ne hle hne

theorem Tidy.answers {rows : BlobTable} (h : rows.Tidy) (call : StoreCall) :
    (keyValue.contents rows).Answers call (answer call rows).1 := by
  cases call with
  | list start =>
      exact ⟨_, MemoryStore.enumerates (h.mem_keysFrom start) (h.ascending start),
        MemoryStore.checkKeys_eq _⟩
  | _ => rfl

theorem Tidy.answer {rows : BlobTable} (h : rows.Tidy) {call : StoreCall}
    (hcall : ∀ key, call.key? = some key → key.Built) : (BlobTable.answer call rows).2.Tidy := by
  cases call with
  | put key value => exact h.upsert value (hcall key rfl).nul_notMem
  | delete key => exact h.remove key.text
  | _ => exact h

/-- An empty table and an empty store in memory that are given the same calls, with any keys
that there are, any values and any starts of listings, answer them alike, and as a plain map
does. -/
theorem agrees_with_memory {calls : List StoreCall}
    (built : ∀ call ∈ calls, ∀ key, call.key? = some key → key.Built) :
    BlobTable.answer.serve calls [] = MemoryStore.answer.serve calls StringMap.empty ∧
      Contents.Accounts (fun _ => none) (MemoryStore.answer.serve calls StringMap.empty) := by
  have hmemory := MemoryStore.accounts calls
  have htable : Contents.Accounts (fun _ => none) (BlobTable.answer.serve calls []) := by
    have hempty : Tidy [] := ⟨List.nodup_nil, by simp⟩
    exact keyValue.accounts Tidy hempty fun call hcall rows hrows =>
      ⟨hrows.answers call, hrows.answer (built call hcall)⟩
  refine ⟨htable.eq hmemory ?_, hmemory⟩
  rw [StoreModel.calls_serve, StoreModel.calls_serve]

theorem nightly_sound : WorkUnitId.fault? "r7" = none := by decide

def nightly : WorkUnitId := ⟨"r7", nightly_sound⟩

def endlessLabel : CommandLabel :=
  (CommandLabel.ofArgv [String.ofList (List.replicate 1100 'x')]).get rfl

def oddCalls : List StoreCall :=
  [.put (BlobKey.signal .offered) nightly.text.toUTF8, .list "magic/", .list "ma\x00", .list "",
    .put (BlobKey.log nightly endlessLabel .stdout) ByteArray.empty, .list "magic/", .list "",
    .has (BlobKey.log nightly endlessLabel .stdout), .delete (BlobKey.signal .offered),
    .get (BlobKey.signal .offered), .has (BlobKey.status nightly)]

theorem agrees_with_memory_on_odd :
    (∀ call ∈ oddCalls, ∀ key, call.key? = some key → key.Built) ∧
      answer.serve oddCalls [] = MemoryStore.answer.serve oddCalls StringMap.empty ∧
      Contents.Accounts (fun _ => none) (MemoryStore.answer.serve oddCalls StringMap.empty) := by
  have hbuilt : ∀ call ∈ oddCalls, ∀ key, call.key? = some key → key.Built := by
    simp only [oddCalls, List.forall_mem_cons, StoreCall.key?, Option.some.injEq, forall_eq',
      reduceCtorEq, false_imp_iff, implies_true, List.not_mem_nil, and_true, true_and]
    exact ⟨.signal _, .log _ _ _, .log _ _ _, .signal _, .signal _, .status _⟩
  exact ⟨hbuilt, agrees_with_memory hbuilt⟩

end BlobTable

end Handoff
