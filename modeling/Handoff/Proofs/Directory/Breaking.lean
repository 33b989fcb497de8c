import Handoff.Proofs.Directory.Separation
import Handoff.Proofs.Directory.Upkeep
import Handoff.Proofs.Files.Course
/-!
# A write that breaks off

A `put` whose file calls may fail, and which may be cut off, leaves at most empty directories
and a temporary file, until its rename puts the whole value into place.
-/

namespace Handoff

namespace DirectoryStore

open FileTree (below below_injective below_ne_nil Befalls Course)
open Sharing (IsAbove Moves Phase Written temporaryPlace temporaryPlace_ne_nil)

variable {root parent path : Path} {cwd location : Location} {before tree after : FileTree}
  {names : List String} {stamp : WriterStamp} {key : BlobKey} {value : ByteArray}

/-- But for temporary files, the tree has got nothing more than directories. -/
def Grown (location : Location) (before tree : FileTree) : Prop :=
  ∀ names, names ≠ [] → Lasting names →
    tree.lookup (below location names) = before.lookup (below location names) ∨
      before.lookup (below location names) = none ∧
        tree.lookup (below location names) = some .directory

/-- But for temporary files, the tree has got the file of the key and directories. -/
inductive Settled (root : Path) (location : Location) (key : BlobKey) (value : ByteArray)
    (before tree : FileTree) : Prop
  | intro {middle : FileTree} (id mode : Nat) (grown : Grown location before middle)
      (free : middle.Free (below location key.segments))
      (dirs : middle.HasDirs location key.segments.dropLast)
      (named : ∀ segment ∈ key.segments, FileTree.IsName segment)
      (short : (pathFor root key).text.utf8ByteSize < FileTree.pathMax)
      (shows : ∀ names, names ≠ [] → Lasting names → tree.lookup (below location names) =
        if names = key.segments then some (.file id value mode)
        else middle.lookup (below location names))

/-- What the phase of a `put` says about the tree. -/
def Standing (root : Path) (cwd location : Location) (stamp : WriterStamp) (key : BlobKey)
    (value : ByteArray) (before : FileTree) : Phase → FileTree → Prop
  | .written, tree => (Tended root cwd location tree ∧ Grown location before tree) ∧
      Written tree (below location (temporaryPlace stamp key)) value
  | .placed, tree => Tended root cwd location tree ∧ Settled root location key value before tree
  | _, tree => Tended root cwd location tree ∧ Grown location before tree

theorem Grown.refl (location : Location) (tree : FileTree) : Grown location tree tree :=
  fun _ _ _ => .inl rfl

theorem Grown.alter {now? : Option FileEntry} (h : Grown location before tree)
    (halters : tree.Alters after (below location names) now?) (htemporary : ¬Lasting names) :
    Grown location before after := by
  intro others hsome hlasting
  have hne : others ≠ names := fun heq => htemporary (heq ▸ hlasting)
  rw [halters.lookup_of_ne fun heq => hne (below_injective heq)]
  exact h others hsome hlasting

theorem Grown.withDir (h : Grown location before tree)
    (hnone : tree.lookup (below location names) = none)
    (halters : tree.Alters after (below location names) (some .directory)) :
    Grown location before after := by
  intro others hsome hlasting
  by_cases hother : others = names
  · subst hother
    rw [halters.lookup_self (below_ne_nil location hsome)]
    rcases h others hsome hlasting with heq | ⟨-, hdirectory⟩
    · exact .inr ⟨heq ▸ hnone, rfl⟩
    · rw [hnone] at hdirectory
      cases hdirectory
  · rw [halters.lookup_of_ne fun heq => hother (below_injective heq)]
    exact h others hsome hlasting

theorem not_lasting_temporaryPlace (stamp : WriterStamp) (key : BlobKey) :
    ¬Lasting (temporaryPlace stamp key) :=
  not_lasting_temporary key.segments.dropLast stamp

/-! ## The file calls of a write -/

section Calls

variable (h : Tended root cwd location tree) (hkey : key.Built)
  (habove : IsAbove root key parent)
include h hkey habove

theorem Tended.makeDir (hgrown : Grown location before tree) (hway : path ∈ parent.ancestors)
    (hmake : tree.makeDir cwd path.text = .ok after) :
    Tended root cwd location after ∧ Grown location before after := by
  obtain ⟨front, last, -, -, hplain, -, -, rfl, -⟩ := habove.eq h.root_ne_empty hkey ⟨0, 0⟩
  obtain ⟨names, -, hsome, hnone, hamends⟩ := h.reaches.makeDir_climb_amends h.ordinary
    (List.forall_mem_append.1 hplain).1 hway hmake
  exact ⟨h.withDir hsome hamends, hgrown.withDir hnone hamends.alters⟩

theorem Tended.write (hgrown : Grown location before tree)
    (hwrite : tree.write cwd (parent.join (temporaryName stamp)).text value = .ok after) :
    (Tended root cwd location after ∧ Grown location before after) ∧
      Written after (below location (temporaryPlace stamp key)) value := by
  obtain ⟨front, last, -, hplace, -, hspare, -, -, hjoin⟩ := habove.eq h.root_ne_empty hkey stamp
  rw [hjoin] at hwrite
  obtain ⟨id, mode, hamends⟩ := (h.reaches.seat front).write_amends h.ordinary hspare hwrite
  rw [← hplace] at hamends
  have hsome := temporaryPlace_ne_nil stamp key
  have hgrowth := hgrown.alter hamends.alters (not_lasting_temporaryPlace stamp key)
  refine ⟨⟨h.withFile hsome hamends, hgrowth⟩, fun entry hfound => ?_⟩
  rw [hamends.alters.lookup_self (below_ne_nil location hsome)] at hfound
  exact ⟨id, mode, (Option.some.inj hfound).symm⟩

theorem Tended.discard (hgrown : Grown location before tree)
    (hremove : tree.remove cwd (parent.join (temporaryName stamp)).text = .ok after) :
    Tended root cwd location after ∧ Grown location before after := by
  obtain ⟨front, last, -, hplace, -, hspare, -, -, hjoin⟩ := habove.eq h.root_ne_empty hkey stamp
  rw [hjoin] at hremove
  have hamends := (h.reaches.seat front).remove_amends h.ordinary hspare hremove
  rw [← hplace] at hamends
  exact ⟨h.without (temporaryPlace_ne_nil stamp key) hamends,
    hgrown.alter hamends.alters (not_lasting_temporaryPlace stamp key)⟩

/-- What a rename that puts a key into place takes and leaves. -/
theorem Tended.rename_eq (hwritten : Written tree (below location (temporaryPlace stamp key)) value)
    (hrename : tree.rename cwd (parent.join (temporaryName stamp)).text
      (pathFor root key).text = .ok after) :
    ∃ id mode, tree.lookup (below location (temporaryPlace stamp key)) =
        some (.file id value mode) ∧
      Housed tree location key.segments ∧
      tree.Free (below location key.segments) ∧
      (pathFor root key).text.utf8ByteSize < FileTree.pathMax ∧
      after = (tree.unset (below location (temporaryPlace stamp key))).set
        (below location key.segments) (.file id value mode) := by
  obtain ⟨front, last, hsplit, hplace, hplain, hspare, hpath, -, hjoin⟩ :=
    habove.eq h.root_ne_empty hkey stamp
  have hsource : tree.Free (below location (front ++ [temporaryName stamp])) := by
    intro entry hfound
    rw [← hplace] at hfound
    obtain ⟨id, mode, rfl⟩ := hwritten entry hfound
    exact .intro id value mode
  rw [hjoin, hpath] at hrename
  obtain ⟨id, content, mode, hfile, hdirs, hlast, hfinds, hopen, hafter⟩ :=
    FileTree.Reaches.rename_eq (h.reaches.seat front) h.reaches h.ordinary hspare hplain hsource
      hrename
  rw [← FileTree.below_concat, ← FileTree.below_concat, ← hsplit, ← hplace] at hafter
  rw [← FileTree.below_concat, ← hsplit] at hopen
  rw [← FileTree.below_concat, ← hplace] at hfile
  obtain ⟨_, _, hcontent⟩ := hwritten _ hfile
  cases hcontent
  have hnamed : ∀ segment ∈ key.segments, FileTree.IsName segment := by
    rw [hsplit]
    exact List.forall_mem_append.2 ⟨hdirs.named, List.forall_mem_singleton.2 hlast⟩
  have hfront : tree.HasDirs location key.segments.dropLast := by
    rwa [hsplit, List.dropLast_concat]
  refine ⟨id, mode, hfile, ⟨by rwa [hsplit], hnamed, hfront⟩,
    h.ordinary.free key.segments_ne_nil hopen, ?_, hafter⟩
  rw [hpath]
  exact FileTree.size_of_resolve (hfinds.resolve true)

theorem Tended.rename (hgrown : Grown location before tree)
    (hwritten : Written tree (below location (temporaryPlace stamp key)) value)
    (hrename : tree.rename cwd (parent.join (temporaryName stamp)).text
      (pathFor root key).text = .ok after) :
    Tended root cwd location after ∧ Settled root location key value before after := by
  obtain ⟨id, mode, hfile, hhoused, hfree, hshort, rfl⟩ :=
    h.rename_eq hkey habove hwritten hrename
  refine ⟨h.moved (temporaryPlace_ne_nil stamp key) (FileTree.free_of_file hfile)
    key.segments_ne_nil hfree hhoused id mode value,
    .intro id mode hgrown hfree hhoused.dirs hhoused.named hshort fun names hsome hlasting => ?_⟩
  have hgone := FileTree.alters_unset tree (below location (temporaryPlace stamp key))
  have hput := FileTree.alters_set (tree.unset (below location (temporaryPlace stamp key)))
    (below location key.segments) (.file id value mode)
  have hne : names ≠ temporaryPlace stamp key := fun heq =>
    not_lasting_temporaryPlace stamp key (heq ▸ hlasting)
  rw [hput _ (below_ne_nil location hsome),
    hgone.lookup_of_ne fun heq => hne (below_injective heq)]
  by_cases hname : names = key.segments
  · rw [if_pos (congrArg (below location) hname), if_pos hname]
  · rw [if_neg fun heq => hname (below_injective heq), if_neg hname]

end Calls

/-! ## The phases of a write -/

/-- What a file call leaves is what the next phase says. -/
theorem Standing.move {phase later : Phase} {request : FileCall} {given : request.Answer}
    (hkey : key.Built) (hmove : Moves root ⟨stamp, .put key value⟩ phase request given later)
    (h : Standing root cwd location stamp key value before phase tree)
    (hbefalls : Befalls cwd tree request given after) :
    Standing root cwd location stamp key value before later after := by
  cases hmove with
  | isDir path =>
      obtain rfl := FileTree.befalls_isDir hbefalls
      exact h
  | entries path =>
      obtain rfl := FileTree.befalls_entries hbefalls
      exact h
  | read | readFault =>
      obtain rfl := FileTree.befalls_read hbefalls
      exact h
  | makeDir above way =>
      rcases FileTree.befalls_makeDir hbefalls with ⟨_, -, rfl⟩ | ⟨-, hmake⟩
      · exact h
      · exact h.1.makeDir hkey above h.2 way hmake
  | write above =>
      rcases FileTree.befalls_write hbefalls with ⟨_, hfault, -⟩ | ⟨-, hwrite⟩
      · cases hfault
      · exact h.1.write hkey above h.2 hwrite
  | writeFault above =>
      rcases FileTree.befalls_write hbefalls with ⟨_, -, rfl | ⟨part, hpart⟩⟩ | ⟨hok, -⟩
      · exact h
      · exact (h.1.write hkey above h.2 hpart).1
      · cases hok
  | rename above =>
      rcases FileTree.befalls_rename hbefalls with ⟨_, hfault, -⟩ | ⟨-, hrename⟩
      · cases hfault
      · exact h.1.1.rename hkey above h.1.2 h.2 hrename
  | renameFault above =>
      rcases FileTree.befalls_rename hbefalls with ⟨_, -, rfl⟩ | ⟨hok, -⟩
      · exact h.1
      · cases hok
  | discard above =>
      rcases FileTree.befalls_remove hbefalls with ⟨_, -, rfl⟩ | ⟨-, hremove⟩
      · exact h
      · exact h.1.discard hkey above h.2 hremove

/-- What a `put` leaves when it ends or is cut off: its value in place, or nothing of it that
lasts but directories. -/
theorem Tended.put_course {outcome : Option (Except StoreFault Unit)}
    (h : Tended root cwd location tree) (hkey : key.Built)
    (hcourse : Course cwd (put root stamp key value) tree outcome after) :
    Tended root cwd location after ∧ ∃ placed : Bool,
      (∀ result, outcome = some result → (result = .ok () ↔ placed = true)) ∧
      if placed then Settled root location key value tree after else Grown location tree after := by
  obtain ⟨phase, hstands, hends⟩ := hcourse.follows
    (Standing root cwd location stamp key value tree)
    (fun hmove h hbefalls => h.move hkey hmove hbefalls) Sharing.follows_put
    ⟨h, Grown.refl location tree⟩
  by_cases hplaced : phase = .placed
  · subst hplaced
    refine ⟨hstands.1, true, fun result hresult => ?_, by simpa using hstands.2⟩
    exact (hends result hresult).trans (by simp)
  · have hgrown : Tended root cwd location after ∧ Grown location tree after := by
      cases phase with
      | placed => exact absurd rfl hplaced
      | written => exact hstands.1
      | _ => exact hstands
    refine ⟨hgrown.1, false, fun result hresult => ?_, by simpa using hgrown.2⟩
    exact (hends result hresult).trans (by simp [hplaced])

theorem Tended.remove_amends (h : Tended root cwd location tree) (hkey : key.Built)
    (hremove : tree.remove cwd (pathFor root key).text = .ok after) :
    tree.Amends after root location key.segments none := by
  obtain ⟨front, last, hsplit⟩ := key.exists_segments
  have hplain := hkey.isPlain
  rw [hsplit] at hplain
  rw [pathFor_eq, hsplit] at hremove
  rw [hsplit]
  exact h.reaches.remove_amends h.ordinary hplain hremove

theorem Tended.delete_course {outcome : Option (Except StoreFault Unit)}
    (h : Tended root cwd location tree) (hkey : key.Built)
    (hcourse : Course cwd (delete root key) tree outcome after) :
    Tended root cwd location after := by
  have hmoves {phase later : Phase} {request : FileCall} {middle left : FileTree}
      {given : request.Answer} (hmove : Moves root ⟨⟨0, 0⟩, .delete key⟩ phase request given later)
      (h : Tended root cwd location middle) (hbefalls : Befalls cwd middle request given left) :
      Tended root cwd location left := by
    cases hmove with
    | isDir =>
        obtain rfl := FileTree.befalls_isDir hbefalls
        exact h
    | entries =>
        obtain rfl := FileTree.befalls_entries hbefalls
        exact h
    | read | readFault =>
        obtain rfl := FileTree.befalls_read hbefalls
        exact h
    | remove =>
        rcases FileTree.befalls_remove hbefalls with ⟨_, -, rfl⟩ | ⟨-, hremove⟩
        · exact h
        · exact h.without key.segments_ne_nil (h.remove_amends hkey hremove)
  obtain ⟨-, htended, -⟩ := hcourse.follows (fun _ => Tended root cwd location) hmoves
    Sharing.follows_delete h
  exact htended

end DirectoryStore

end Handoff
