import Handoff.Proofs.Directory.Clash
import Handoff.Proofs.Directory.Records
/-!
# What whole calls leave behind

A `put` that runs to its end leaves no temporary file.  Below a root that was empty at first stand
the files of what is stored, and directories on the way to keys that a value was to be put under.
-/

namespace Handoff

namespace DirectoryStore

open FileTree (below below_injective below_ne_nil Befalls Course)
open Sharing (IsAbove temporaryPlace temporaryPlace_ne_nil)

variable {root parent : Path} {cwd location : Location} {tree written after : FileTree}
  {contents : Contents} {known more : BlobKey → Prop} {names front : List String} {key : BlobKey}
  {stamp : WriterStamp} {value : ByteArray} {result : Except StoreFault Unit} {fault : OsFault}

/-- Each file below the root is that of a stored key, and each directory is on the way to a key
that is known. -/
def Backed (known : BlobKey → Prop) (location : Location) (tree : FileTree)
    (contents : Contents) : Prop :=
  ∀ names entry, names ≠ [] → tree.lookup (below location names) = some entry →
    Accounted known contents names entry

theorem Accounted.mono {entry : FileEntry} (h : Accounted known contents names entry)
    (hmore : ∀ key, known key → more key) : Accounted more contents names entry := by
  cases h with
  | folder hknown above proper => exact .folder (hmore _ hknown) above proper
  | file id mode stored => exact .file id mode stored

theorem Accounted.put {entry : FileEntry} (h : Accounted known contents names entry)
    (hother : names ≠ key.segments) :
    Accounted known (Function.update contents key (some value)) names entry := by
  cases h with
  | folder hknown above proper => exact .folder hknown above proper
  | @file other content id mode stored =>
      have hne : other ≠ key := fun heq => hother (heq ▸ rfl)
      exact .file id mode (by rwa [Function.update_of_ne hne])

namespace Backed

theorem mono (h : Backed known location tree contents) (hmore : ∀ key, known key → more key) :
    Backed more location tree contents := fun names entry hsome hfound =>
  (h names entry hsome hfound).mono hmore

theorem withDir (h : Backed known location tree contents) (hknown : known key)
    (hfront : names <+: key.segments.dropLast) (hsome : names ≠ [])
    (halters : tree.Alters after (below location names) (some .directory)) :
    Backed known location after contents := by
  intro others entry hothers hfound
  by_cases hother : others = names
  · subst hother
    rw [halters.lookup_self (below_ne_nil location hsome)] at hfound
    cases hfound
    refine .folder hknown (hfront.trans (List.dropLast_prefix _)) ?_
    rintro rfl
    have hlength := hfront.length_le
    have hpositive := List.length_pos_iff.2 hsome
    rw [List.length_dropLast] at hlength
    omega
  · rw [halters.lookup_of_ne fun heq => hother (below_injective heq)] at hfound
    exact h others entry hothers hfound

theorem without (h : Backed known location tree contents)
    (halters : tree.Alters after (below location names) none) :
    Backed known location after contents := by
  intro others entry hothers hfound
  rw [halters _ (below_ne_nil location hothers)] at hfound
  split at hfound
  · cases hfound
  · exact h others entry hothers hfound

theorem forget (h : Backed known location tree contents)
    (hnone : tree.lookup (below location key.segments) = none) :
    Backed known location tree (Function.update contents key none) := by
  intro names entry hsome hfound
  cases h names entry hsome hfound with
  | folder hknown above proper => exact .folder hknown above proper
  | @file other content id mode stored =>
      have hne : other ≠ key := by
        rintro rfl
        rw [hnone] at hfound
        cases hfound
      exact .file id mode (by rwa [Function.update_of_ne hne])

theorem moved {spare : List String} {id mode : Nat} (h : Backed known location tree contents)
    (hwritten : tree.Alters written (below location spare) (some (.file id value mode))) :
    Backed known location
      ((written.unset (below location spare)).set (below location key.segments)
        (.file id value mode))
      (Function.update contents key (some value)) := by
  intro names entry hsome hfound
  have hplace := below_ne_nil location hsome
  rw [FileTree.lookup_set _ _ hplace] at hfound
  split at hfound
  · next hname =>
    obtain rfl := below_injective hname
    cases hfound
    exact .file id mode (Function.update_self _ _ _)
  · next hname =>
    rw [FileTree.lookup_unset _ hplace] at hfound
    split at hfound
    · cases hfound
    · next hspare =>
      rw [hwritten.lookup_of_ne hspare] at hfound
      exact (h names entry hsome hfound).put fun heq => hname (heq ▸ rfl)

end Backed

/-! ## Making the directories -/

inductive Paves (parent : Path) : Unit → (request : FileCall) → request.Answer → Unit → Prop
  | makeDir {path : Path} (way : path ∈ parent.ancestors) (answer : Except OsFault Unit) :
      Paves parent () (.makeDir path) answer ()
  | isDir (path : Path) (answer : Bool) : Paves parent () (.isDir path) answer ()

theorem follows_makeDirAll (parent : Path) :
    (Files.makeDirAll parent).Follows (Paves parent) (fun _ last => last = ()) () :=
  Sharing.follows_makeDirs (fun _ way answer => .makeDir way answer)
    fun path _ answer => .isDir path answer

/-- The tree is in order, directories are where they were, and all that stands is backed. -/
structure Paved (root : Path) (cwd location : Location) (known : BlobKey → Prop)
    (contents : Contents) (tree after : FileTree) : Prop where
  tended : Tended root cwd location after
  kept : tree.Keeps after
  backed : Backed known location after contents

theorem Paved.move {middle : FileTree} {request : FileCall} {given : request.Answer}
    (h : Paved root cwd location known contents tree middle) (hkey : key.Built)
    (hknown : known key) (habove : IsAbove root key parent)
    (hmove : Paves parent () request given ()) (hbefalls : Befalls cwd middle request given after) :
    Paved root cwd location known contents tree after := by
  cases hmove with
  | isDir =>
      obtain rfl := FileTree.befalls_isDir hbefalls
      exact h
  | makeDir way =>
      rcases FileTree.befalls_makeDir hbefalls with ⟨_, -, rfl⟩ | ⟨-, hmake⟩
      · exact h
      obtain ⟨front, last, hsplit, -, hplain, -, -, rfl, -⟩ :=
        habove.eq h.tended.root_ne_empty hkey ⟨0, 0⟩
      obtain ⟨names, hfront, hsome, hnone, hamends⟩ := h.tended.reaches.makeDir_climb_amends
        h.tended.ordinary (List.forall_mem_append.1 hplain).1 way hmake
      have hway : names <+: key.segments.dropLast := by rwa [hsplit, List.dropLast_concat]
      exact ⟨h.tended.withDir hsome hamends,
        h.kept.trans (hamends.alters.keeps (FileTree.free_of_none hnone)),
        h.backed.withDir hknown hway hsome hamends.alters⟩

theorem Backed.pave {given : Except OsFault Unit} (h : Backed known location tree contents)
    (htended : Tended root cwd location tree) (hkey : key.Built) (hknown : known key)
    (habove : IsAbove root key parent)
    (hrun : FileTree.run cwd (Files.makeDirAll parent) tree = (given, after)) :
    Paved root cwd location known contents tree after := by
  have hstart : Paved root cwd location known contents tree tree :=
    ⟨htended, fun _ _ hfound _ => hfound, h⟩
  obtain ⟨-, hpaved, -⟩ := (Course.of_run hrun).follows
    (fun _ => Paved root cwd location known contents tree)
    (fun hmove hpaved hbefalls => hpaved.move hkey hknown habove hmove hbefalls)
    (follows_makeDirAll parent) hstart
  exact hpaved

/-! ## The file and its temporary place -/

theorem run_discard_ok {temporary : Path} (h : tree.remove cwd temporary.text = .ok after) :
    FileTree.run cwd (discard temporary fault) tree = (.error (.os fault), after) := by
  have hremove : FileTree.run cwd (Files.remove temporary) tree = (.ok (), after) := by
    rw [FileTree.run_remove, h]
    rfl
  exact FileTree.run_bind_eq hremove

theorem run_discard_error {temporary : Path} {refusal : OsFault}
    (h : tree.remove cwd temporary.text = .error refusal) :
    FileTree.run cwd (discard temporary fault) tree = (.error (.os fault), tree) := by
  have hremove : FileTree.run cwd (Files.remove temporary) tree = (.error refusal, tree) := by
    rw [FileTree.run_remove, h]
    rfl
  exact FileTree.run_bind_eq hremove

section Calls

variable (htended : Tended root cwd location tree) (hkey : key.Built)
  (habove : IsAbove root key parent)
include htended hkey habove

theorem remove_written
    (hwrite : tree.write cwd (parent.join (temporaryName stamp)).text value = .ok written) :
    ∃ id mode, tree.Amends written (root.seat key.segments.dropLast) location
        (temporaryPlace stamp key) (some (.file id value mode)) ∧
      written.remove cwd (parent.join (temporaryName stamp)).text =
        .ok (written.unset (below location (temporaryPlace stamp key))) := by
  obtain ⟨front, last, hsplit, hplace, -, hspare, -, -, hjoin⟩ :=
    habove.eq htended.root_ne_empty hkey stamp
  rw [hjoin] at hwrite ⊢
  rw [hplace, hsplit, List.dropLast_concat]
  have hseat := htended.reaches.seat front
  obtain ⟨id, mode, hamends⟩ := hseat.write_amends htended.ordinary hspare hwrite
  have hkept := hamends.alters.keeps hamends.free
  have hdirs := hamends.dirs.mono hkept
  have hfile := hamends.alters.lookup_self (below_ne_nil location (by simp))
  have hlinks := hamends.alters.noLinks htended.noLinks (by simp)
  rw [List.dropLast_concat] at hdirs
  have hfinds := hamends.fits.finds (hseat.mono hkept) hdirs hlinks
  refine ⟨id, mode, hamends, ?_⟩
  rw [FileTree.below_concat] at hfile ⊢
  exact hfinds.remove_file hfile

theorem Backed.settle (h : Backed known location tree contents)
    (hwrite : tree.write cwd (parent.join (temporaryName stamp)).text value = .ok written)
    (hrun : FileTree.run cwd (Sharing.settle root stamp key parent) written = (result, after)) :
    tree.Keeps after ∧
      Backed known location after ((StoreCall.put key value).acknowledged result contents) ∧
      (result = .ok () → after.HasDirs location key.segments.dropLast) := by
  obtain ⟨id, mode, hamends, hremove⟩ := remove_written htended hkey habove hwrite
  have hplace := temporaryPlace_ne_nil stamp key
  have hkept := hamends.alters.keeps hamends.free
  have hfile := hamends.alters.lookup_self (below_ne_nil location hplace)
  have hsource := FileTree.free_of_file hfile
  have hgone := FileTree.alters_unset written (below location (temporaryPlace stamp key))
  cases hrename : written.rename cwd (parent.join (temporaryName stamp)).text
      (pathFor root key).text with
  | error fault =>
      have hrefused : FileTree.run cwd (Files.rename (parent.join (temporaryName stamp))
          (pathFor root key)) written = (.error fault, written) := by
        rw [FileTree.run_rename, hrename]
        rfl
      rw [Sharing.settle, FileTree.run_bind_eq hrefused] at hrun
      cases (run_discard_ok hremove).symm.trans hrun
      exact ⟨hkept.trans (hgone.keeps hsource), h.without (hamends.alters.again hgone), by rintro ⟨⟩⟩
  | ok moved =>
      have hmoved : FileTree.run cwd (Files.rename (parent.join (temporaryName stamp))
          (pathFor root key)) written = (.ok (), moved) := by
        rw [FileTree.run_rename, hrename]
        rfl
      rw [Sharing.settle, FileTree.run_bind_eq hmoved] at hrun
      cases hrun
      have hwritten : Tended root cwd location written := htended.withFile hplace hamends
      obtain ⟨_, _, hmovedFile, hhoused, hfree, -, rfl⟩ := hwritten.rename_eq hkey habove
        (fun entry hfound => ⟨id, mode, Option.some.inj (hfound.symm.trans hfile)⟩) hrename
      rw [hfile] at hmovedFile
      cases hmovedFile
      have hput := FileTree.alters_set (written.unset (below location (temporaryPlace stamp key)))
        (below location key.segments) (.file id value mode)
      have hopened := hfree.unset (below_ne_nil location key.segments_ne_nil)
        (below location (temporaryPlace stamp key))
      have hkeptAfter := (hgone.keeps hsource).trans (hput.keeps hopened)
      exact ⟨hkept.trans hkeptAfter, h.moved hamends.alters,
        fun _ => hhoused.dirs.mono hkeptAfter⟩

/-- When the directories are there, nothing remains but the file of the key. -/
theorem Backed.deposit (h : Backed known location tree contents)
    (hrun : FileTree.run cwd (Sharing.deposit root stamp key value parent) tree =
      (result, after)) :
    tree.Keeps after ∧
      Backed known location after ((StoreCall.put key value).acknowledged result contents) ∧
      (result = .ok () → after.HasDirs location key.segments.dropLast) := by
  cases hwrite : tree.write cwd (parent.join (temporaryName stamp)).text value with
  | ok written =>
      have hwritten : FileTree.run cwd (Files.write (parent.join (temporaryName stamp)) value)
          tree = (.ok (), written) := by
        rw [FileTree.run_write, hwrite]
        rfl
      rw [Sharing.deposit, FileTree.run_bind_eq hwritten] at hrun
      exact h.settle htended hkey habove hwrite hrun
  | error fault =>
      have hrefused : FileTree.run cwd (Files.write (parent.join (temporaryName stamp)) value)
          tree = (.error fault, tree) := by
        rw [FileTree.run_write, hwrite]
        rfl
      rw [Sharing.deposit, FileTree.run_bind_eq hrefused] at hrun
      cases hremove : tree.remove cwd (parent.join (temporaryName stamp)).text with
      | error refusal =>
          cases (run_discard_error hremove).symm.trans hrun
          exact ⟨fun _ _ hfound _ => hfound, h, by rintro ⟨⟩⟩
      | ok removed =>
          cases (run_discard_ok hremove).symm.trans hrun
          obtain ⟨front, -, -, -, -, hspare, -, -, hjoin⟩ :=
            habove.eq htended.root_ne_empty hkey stamp
          rw [hjoin] at hremove
          have hamends := (htended.reaches.seat front).remove_amends htended.ordinary hspare hremove
          exact ⟨hamends.alters.keeps hamends.free, h.without hamends.alters, by rintro ⟨⟩⟩

end Calls

/-! ## Whole calls -/

namespace Backed

variable (htended : Tended root cwd location tree) (h : Backed known location tree contents)
  (hkey : key.Built)
include htended h hkey

theorem put (hknown : known key)
    (hrun : FileTree.run cwd (DirectoryStore.put root stamp key value) tree = (result, after)) :
    tree.Keeps after ∧
      Backed known location after ((StoreCall.put key value).acknowledged result contents) ∧
      (result = .ok () → after.HasDirs location key.segments.dropLast) := by
  obtain ⟨front, last, hsplit⟩ := key.exists_segments
  have hplain := hkey.isPlain
  rw [hsplit] at hplain
  obtain ⟨hfront, hlast⟩ := List.forall_mem_append.1 hplain
  have habove : IsAbove root key ((root.seat front).joins front) := by
    rw [IsAbove, pathFor_eq, hsplit]
    exact Path.parent?_joins htended.root_ne_empty hfront (hlast last List.mem_cons_self)
  rcases hpave : FileTree.run cwd (Files.makeDirAll ((root.seat front).joins front)) tree with
    ⟨given, made⟩
  have hpaved := h.pave htended hkey hknown habove hpave
  rw [Sharing.put_eq habove, FileTree.run_bind_eq hpave] at hrun
  rcases given with fault | _
  · cases hrun
    exact ⟨hpaved.kept, hpaved.backed, by rintro ⟨⟩⟩
  · obtain ⟨hkept, hbacked, hdirs⟩ := hpaved.backed.deposit hpaved.tended hkey habove hrun
    exact ⟨hpaved.kept.trans hkept, hbacked, hdirs⟩

theorem delete
    (hrun : FileTree.run cwd (DirectoryStore.delete root key) tree = (result, after)) :
    tree.Keeps after ∧
      Backed known location after ((StoreCall.delete key).acknowledged result contents) := by
  rcases run_delete_cases hrun with ⟨rfl, hremove⟩ | ⟨rfl, rfl, hmissing⟩ | ⟨fault, rfl, rfl⟩
  · have hamends := htended.remove_amends hkey hremove
    have hgone := hamends.alters.lookup_self (below_ne_nil location key.segments_ne_nil)
    exact ⟨hamends.alters.keeps hamends.free, (h.without hamends.alters).forget hgone⟩
  · exact ⟨fun _ _ hfound _ => hfound, h.forget (htended.lookup_of_missing hkey hmissing)⟩
  · exact ⟨fun _ _ hfound _ => hfound, h⟩

omit hkey in
/-- Whatever is answered, all that stands is backed by what was acknowledged. -/
theorem answer {call : StoreCall} {result : Except StoreFault call.Result}
    (hbuilt : ∀ key, call.key? = some key → key.Built)
    (hknown : ∀ key value, call = .put key value → known key)
    (hrun : FileTree.run cwd (DirectoryStore.answer root stamp call) tree = (result, after)) :
    tree.Keeps after ∧ Backed known location after (call.acknowledged result contents) ∧
      ∀ key value, (⟨call, result⟩ : Sigma Storage.Answer) = ⟨.put key value, .ok ()⟩ →
        after.HasDirs location key.segments.dropLast := by
  cases call with
  | put key value =>
      obtain ⟨hkept, hbacked, hdirs⟩ :=
        put htended h (hbuilt key rfl) (hknown key value rfl) hrun
      refine ⟨hkept, hbacked, ?_⟩
      rintro _ _ ⟨⟩
      exact hdirs rfl
  | delete key =>
      obtain ⟨hkept, hbacked⟩ := delete htended h (hbuilt key rfl) hrun
      exact ⟨hkept, hbacked, by rintro _ _ ⟨⟩⟩
  | get | has | list =>
      obtain ⟨rfl, hsame⟩ := htended.run_look (by simp) (by simp) hrun
      rw [hsame]
      exact ⟨fun _ _ hfound _ => hfound, h, by rintro _ _ ⟨⟩⟩

end Backed

end DirectoryStore

end Handoff
