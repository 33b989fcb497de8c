import Handoff.Proofs.Directory.Growth
/-!
# What a directory store has recorded

Below a root that was empty at first stands what the acknowledged calls have put there, whatever
keys they were about, and nothing else is shown.  A call that was refused has no effect.
-/

namespace Handoff

/-- The effect of a call that was answered so: a call that was refused has none. -/
def StoreCall.acknowledged (call : StoreCall) :
    Except StoreFault call.Result → Contents → Contents
  | .ok _, contents => call.effect contents
  | .error _, contents => contents

namespace BlobKey

theorem Built.valid_of_named {key : BlobKey} (h : key.Built)
    (hnamed : ∀ segment ∈ key.segments, FileTree.IsName segment) : key.Valid := by
  cases h with
  | checked valid => exact valid
  | signal s => cases s <;> decide
  | status id => exact valid_status id
  | log id label field =>
      have hsize := (BlobKey.log id label field).size_segments
      have hid : id.text.utf8ByteSize ≤ 255 := (hnamed _ (by simp [segments, segmentsOf_log])).fits
      have hlabel : label.text.utf8ByteSize ≤ 255 :=
        (hnamed _ (by simp [segments, segmentsOf_log])).fits
      have hfield : field.name.utf8ByteSize ≤ 9 := by cases field <;> decide
      have hmax : maxBytes = 1024 := rfl
      rw [segments, segmentsOf_log] at hsize
      simp only [Path.sizeOf, List.map_cons, List.map_nil, List.sum_cons, List.sum_nil] at hsize
      exact valid_log_iff.2 (by omega)

end BlobKey

namespace DirectoryStore

open FileTree (below)

variable {root : Path} {cwd location : Location} {tree after : FileTree} {contents : Contents}
  {stamp : WriterStamp} {key other : BlobKey} {value : ByteArray}

/-- The part of what is stored that does not look like a temporary file. -/
def lastingPart (contents : Contents) : Contents := fun key =>
  if Lasting key.segments then contents key else none

theorem lastingPart_update (contents : Contents) (key : BlobKey) (value : Option ByteArray) :
    lastingPart (Function.update contents key value) =
      if Lasting key.segments then Function.update (lastingPart contents) key value
      else lastingPart contents := by
  funext other
  by_cases hother : other = key
  · subst hother
    by_cases hlasting : Lasting other.segments <;> simp [lastingPart, hlasting]
  · by_cases hlasting : Lasting key.segments <;> simp [lastingPart, hlasting, hother]

/-- The tree shows what is stored, but for keys that look like temporary files. -/
structure Records (root : Path) (cwd location : Location) (tree : FileTree)
    (contents : Contents) : Prop where
  tended : Tended root cwd location tree
  shown : shown tree location = lastingPart contents
  short : ∀ {key value}, contents key = some value →
    (pathFor root key).text.utf8ByteSize < FileTree.pathMax

theorem records_empty (hroot : tree.Reaches cwd root location)
    (hempty : ∀ place, place ≠ [] → tree.lookup (location ++ place) = none) :
    Records root cwd location tree fun _ => none where
  tended := tended_empty hroot hempty
  short := nofun
  shown := by
    funext key
    have hnone : lastingPart (fun _ => none) key = none := by simp [lastingPart]
    rw [hnone]
    by_contra hsome
    obtain ⟨content, hcontent⟩ := Option.ne_none_iff_exists'.1 hsome
    obtain ⟨-, -, id, mode, -, -, -, hfile⟩ :=
      (tended_empty hroot hempty).browsable.peek_of_shown hcontent
    have hplace := hempty (key.segments.map .named) (by simpa using key.segments_ne_nil)
    rw [below, hplace] at hfile
    cases hfile

/-! ## Removals -/

theorem Tended.shown_of_removed (h : Tended root cwd location tree)
    (hamends : tree.Amends after root location key.segments none) :
    shown after location = Function.update (shown tree location) key none := by
  have hnamed := hamends.fits.named
  have hdirs := hamends.dirs.mono (hamends.alters.keeps hamends.free)
  have hgone := hamends.alters.lookup_self (FileTree.below_ne_nil location key.segments_ne_nil)
  funext other
  by_cases hother : other = key
  · subst hother
    rw [Function.update_self]
    by_contra hsome
    obtain ⟨content, hcontent⟩ := Option.ne_none_iff_exists'.1 hsome
    obtain ⟨-, hpeek⟩ := shown_eq_some_iff.1 hcontent
    have hordinary : after.Ordinary location := (h.without other.segments_ne_nil hamends).ordinary
    obtain ⟨-, -, id, mode, -, -, -, hfile⟩ :=
      exists_of_peek hordinary hamends.fits.plain hpeek
    rw [hgone] at hfile
    cases hfile
  rw [Function.update_of_ne hother]
  by_cases hbehind : key.segments <+: other.segments
  · rw [shown_behind hdirs hnamed (FileTree.free_of_none hgone) hbehind hother,
      shown_behind hamends.dirs hnamed hamends.free hbehind hother]
  · have hpeek : peek after location other.segments = peek tree location other.segments :=
      peek_congr fun part hpart _ => hamends.alters.lookup_of_ne fun heq =>
        hbehind (FileTree.below_injective heq ▸ hpart)
    rw [shown, shown, hpeek]

/-- A removal succeeds, finds nothing, or is refused. -/
theorem run_delete_cases {result : Except StoreFault Unit}
    (hrun : FileTree.run cwd (delete root key) tree = (result, after)) :
    (result = .ok () ∧ tree.remove cwd (pathFor root key).text = .ok after) ∨
      (result = .ok () ∧ after = tree ∧
        tree.remove cwd (pathFor root key).text = .error .notFound) ∨
      ∃ fault, result = .error fault ∧ after = tree := by
  cases hremove : tree.remove cwd (pathFor root key).text with
  | ok removed =>
      rw [run_delete_ok hremove] at hrun
      cases hrun
      exact .inl ⟨rfl, rfl⟩
  | error fault =>
      by_cases hmissing : fault = .notFound
      · subst hmissing
        rw [run_delete_missing hremove] at hrun
        cases hrun
        exact .inr (.inl ⟨rfl, rfl, rfl⟩)
      · rw [run_delete_error hremove hmissing] at hrun
        cases hrun
        exact .inr (.inr ⟨_, rfl, rfl⟩)

theorem Tended.lookup_of_missing (h : Tended root cwd location tree) (hkey : key.Built)
    (hmissing : tree.remove cwd (pathFor root key).text = .error .notFound) :
    tree.lookup (below location key.segments) = none := by
  by_contra hthere
  obtain ⟨entry, hfound⟩ := Option.ne_none_iff_exists'.1 hthere
  have hhoused := h.housed key.segments_ne_nil hfound
  have hshort : (pathFor root key).text.utf8ByteSize < FileTree.pathMax := by
    by_contra hlong
    rw [FileTree.remove, FileTree.resolveName, if_pos (Nat.not_lt.1 hlong)] at hmissing
    cases hmissing
  have hplain := hkey.isPlain
  obtain ⟨hnamed, hdirs⟩ := And.intro hhoused.named hhoused.dirs
  obtain ⟨front, last, hsplit⟩ := key.exists_segments
  rw [hsplit, List.dropLast_concat] at hdirs
  rw [pathFor_eq] at hshort hmissing
  rw [hsplit] at hplain hnamed hshort hmissing hfound
  have hfinds := h.reaches.finds hplain hshort hdirs (hnamed last (by simp)) h.noLinks
  rw [FileTree.below_concat] at hfound
  have hentry := h.ordinary (front ++ [last]) entry (by simp)
    (by rw [FileTree.below_concat, hfound])
  rcases hentry with rfl | ⟨id, content, mode⟩
  · rw [FileTree.remove, hfinds.resolveName, FileTree.targetAt, hfound] at hmissing
    cases hmissing
  · rw [hfinds.remove_file hfound] at hmissing
    cases hmissing

theorem run_get_snd : (FileTree.run cwd (get root key) tree).2 = tree := by
  have hlook : FileTree.run cwd (Files.isDir (pathFor root key)) tree =
      (tree.isDir cwd (pathFor root key).text, tree) := FileTree.run_isDir _
  have hread : FileTree.run cwd (Files.read (pathFor root key)) tree =
      (tree.read cwd (pathFor root key).text, tree) := FileTree.run_read _
  rw [get, FileTree.run_bind_eq hlook]
  split
  · rfl
  · rw [FileTree.run_bind_eq hread]
    split <;> rfl

theorem Tended.run_look (h : Tended root cwd location tree) {call : StoreCall}
    {result : Except StoreFault call.Result} (hput : ∀ key value, call ≠ .put key value)
    (hdelete : ∀ key, call ≠ .delete key)
    (hrun : FileTree.run cwd (DirectoryStore.answer root stamp call) tree = (result, after)) :
    after = tree ∧ ∀ contents, call.acknowledged result contents = contents := by
  have hsame (heffect : ∀ contents, call.effect contents = contents) (contents : Contents) :
      call.acknowledged result contents = contents := by
    cases result with
    | ok value => exact heffect contents
    | error fault => rfl
  cases call with
  | put key value => exact absurd rfl (hput key value)
  | delete key => exact absurd rfl (hdelete key)
  | get key => exact ⟨(congrArg Prod.snd hrun).symm.trans run_get_snd, hsame fun _ => rfl⟩
  | has key =>
      have hget : FileTree.run cwd (get root key) tree =
          ((FileTree.run cwd (get root key) tree).1, tree) := Prod.ext rfl run_get_snd
      rw [DirectoryStore.answer, FileTree.run_bind_eq hget] at hrun
      refine ⟨?_, hsame fun _ => rfl⟩
      split at hrun <;> exact (congrArg Prod.snd hrun).symm
  | list start =>
      obtain ⟨found, hlist, -⟩ := h.browsable.run_list start
      exact ⟨congrArg Prod.snd (hrun.symm.trans hlist), hsame fun _ => rfl⟩

namespace Records

variable (h : Records root cwd location tree contents)
include h

theorem run_get (hshown : DirectoryStore.shown tree location key = some value) :
    FileTree.run cwd (get root key) tree = (.ok (some value), tree) := by
  obtain ⟨⟨hvalid, hlasting⟩, hpeek⟩ := shown_eq_some_iff.1 hshown
  have hstored : contents key = some value := by
    rw [h.shown, lastingPart, if_pos hlasting] at hshown
    exact hshown
  rw [DirectoryStore.run_get h.tended.reaches h.tended.noLinks
    (BlobKey.Built.checked hvalid).isPlain (h.short hstored), hpeek]
  rfl

theorem put {result : Except StoreFault Unit} (hbuilt : key.Built)
    (hrun : FileTree.run cwd (put root stamp key value) tree = (result, after)) :
    Records root cwd location after ((StoreCall.put key value).acknowledged result contents) := by
  obtain ⟨htended, placed, houtcome, hseen⟩ := h.tended.put_course hbuilt (.of_run hrun)
  have hplaced := houtcome result rfl
  cases placed with
  | false =>
      cases result with
      | ok done => exact absurd (hplaced.1 rfl) (by simp)
      | error fault =>
          exact ⟨htended, (h.tended.shown_of_grown hseen).trans h.shown, h.short⟩
  | true =>
      have hsettled : Settled root location key value tree after := hseen
      obtain rfl := hplaced.2 rfl
      have hvalid : key.Valid := hbuilt.valid_of_named hsettled.named
      refine ⟨htended, ?_, fun {other content} hstored => ?_⟩
      · funext other
        change _ = lastingPart (Function.update contents key (some value)) other
        rw [lastingPart_update]
        by_cases hother : other = key
        · subst hother
          by_cases hlasting : Lasting other.segments
          · rw [hsettled.shown_self hvalid hlasting, if_pos hlasting, Function.update_self]
          · rw [DirectoryStore.shown, if_neg fun hboth => hlasting hboth.2, if_neg hlasting,
              lastingPart, if_neg hlasting]
        · rw [hsettled.shown_of_ne h.tended hother, h.shown]
          split
          · rw [Function.update_of_ne hother]
          · rfl
      · by_cases hother : other = key
        · subst hother
          exact hsettled.short
        · exact h.short ((Function.update_of_ne hother _ _).symm.trans hstored)

theorem lastingPart_eq_none (hnone : tree.lookup (FileTree.below location key.segments) = none) :
    lastingPart contents key = none := by
  by_contra hsome
  obtain ⟨value, hvalue⟩ := Option.ne_none_iff_exists'.1 hsome
  have hshown : DirectoryStore.shown tree location key = some value := h.shown ▸ hvalue
  obtain ⟨front, last, id, mode, -, -, -, hfile⟩ := h.tended.browsable.peek_of_shown hshown
  rw [hnone] at hfile
  cases hfile

theorem delete {result : Except StoreFault Unit} (hbuilt : key.Built)
    (hrun : FileTree.run cwd (delete root key) tree = (result, after)) :
    Records root cwd location after ((StoreCall.delete key).acknowledged result contents) := by
  have hless {other : BlobKey} {content : ByteArray}
      (hstored : Function.update contents key none other = some content) :
      contents other = some content := by
    by_cases hother : other = key
    · subst hother
      rw [Function.update_self] at hstored
      cases hstored
    · rwa [Function.update_of_ne hother] at hstored
  rcases run_delete_cases hrun with ⟨rfl, hremove⟩ | ⟨rfl, rfl, hmissing⟩ | ⟨fault, rfl, rfl⟩
  · have hamends := h.tended.remove_amends hbuilt hremove
    refine ⟨h.tended.without key.segments_ne_nil hamends, ?_,
      fun hstored => h.short (hless hstored)⟩
    change _ = lastingPart (Function.update contents key none)
    rw [h.tended.shown_of_removed hamends, h.shown, lastingPart_update]
    split
    · rfl
    · next hlasting =>
      rw [Function.update_eq_self_iff, lastingPart, if_neg hlasting]
  · have hnone := h.lastingPart_eq_none (h.tended.lookup_of_missing hbuilt hmissing)
    refine ⟨h.tended, ?_, fun hstored => h.short (hless hstored)⟩
    change _ = lastingPart (Function.update contents key none)
    rw [h.shown, lastingPart_update]
    split
    · rw [eq_comm, Function.update_eq_self_iff, hnone]
    · rfl
  · exact h

/-- Whatever is answered, the tree records what was acknowledged. -/
theorem answer {call : StoreCall} {result : Except StoreFault call.Result}
    (hbuilt : ∀ key, call.key? = some key → key.Built)
    (hrun : FileTree.run cwd (DirectoryStore.answer root stamp call) tree = (result, after)) :
    Records root cwd location after (call.acknowledged result contents) := by
  cases call with
  | put key value => exact h.put (hbuilt key rfl) hrun
  | delete key => exact h.delete (hbuilt key rfl) hrun
  | get | has | list =>
      obtain ⟨rfl, hsame⟩ := h.tended.run_look (by simp) (by simp) hrun
      rw [hsame]
      exact h

end Records

end DirectoryStore

end Handoff
