import Handoff.Proofs.Directory.Agreement
/-!
# A tree in order

Below the root of a store stand nothing but files and directories, each of them in a directory.
Whatever a file call changes there, it stays so.
-/

namespace Handoff

namespace DirectoryStore

open FileTree (below below_injective below_ne_nil)

variable {root path : Path} {cwd location : Location} {tree after : FileTree}
  {names : List String} {now? : Option FileEntry}

/-- The names are those that a file can have, and all but the last lead to a directory. -/
structure Housed (tree : FileTree) (location : Location) (names : List String) : Prop where
  plain : ∀ name ∈ names, Path.IsPlain name
  named : ∀ name ∈ names, FileTree.IsName name
  dirs : tree.HasDirs location names.dropLast

/-- Nothing but files and directories stand below the root, each in a directory, and the
directories can be opened. -/
structure Tended (root : Path) (cwd location : Location) (tree : FileTree) : Prop where
  reaches : tree.Reaches cwd root location
  ordinary : tree.Ordinary location
  housed : ∀ {names entry}, names ≠ [] → tree.lookup (below location names) = some entry →
    Housed tree location names
  opens : ∀ {names}, tree.HasDirs location names →
    (root.joins names).text.utf8ByteSize < FileTree.pathMax
  distinct : tree.Distinct location

theorem tended_empty (hroot : tree.Reaches cwd root location)
    (hempty : ∀ place, place ≠ [] → tree.lookup (location ++ place) = none) :
    Tended root cwd location tree := by
  have hnone (names : List String) (hsome : names ≠ []) :
      tree.lookup (below location names) = none := hempty _ (by simpa using hsome)
  have hholds : Holds (fun _ => False) location tree fun _ => none := holds_empty hempty
  refine ⟨hroot, hholds.ordinary, fun {names entry} hsome hfound => ?_, fun {names} hdirs => ?_,
    hholds.distinct⟩
  · rw [hnone names hsome] at hfound
    cases hfound
  · by_cases hsome : names = []
    · subst hsome
      exact (FileTree.reaches_iff.1 hroot).2.2.1
    · have hdirectory := hdirs.dirs names (List.prefix_refl _) hsome
      rw [hnone names hsome] at hdirectory
      cases hdirectory

namespace Tended

variable (h : Tended root cwd location tree)
include h

theorem noLinks : tree.NoLinks location :=
  h.ordinary.noLinks

theorem root_ne_empty : root.text ≠ "" :=
  (FileTree.reaches_iff.1 h.reaches).2.1

theorem lookup_append_eq_none (hsome : names ≠ [])
    (hdir : tree.lookup (below location names) ≠ some .directory) {more : List String}
    (hmore : more ≠ []) : tree.lookup (below location (names ++ more)) = none := by
  by_contra hthere
  obtain ⟨entry, hfound⟩ := Option.ne_none_iff_exists'.1 hthere
  have hhoused := h.housed (by simp [hsome]) hfound
  have hfront : names <+: (names ++ more).dropLast := by
    rw [List.dropLast_append_of_ne_nil hmore]
    exact List.prefix_append _ _
  exact hdir (hhoused.dirs.dirs names hfront hsome)

theorem browsable : Browsable root cwd location tree where
  reaches := h.reaches
  ordinary := h.ordinary
  named _ hfound := by
    have hhoused := h.housed (by simp) hfound
    exact ⟨hhoused.plain _ (by simp), hhoused.named _ (by simp)⟩
  fits {names} hdirs := by
    have hsize := h.opens hdirs
    by_cases hsome : names = []
    · subst hsome
      exact ⟨nofun, nofun, hsize⟩
    · have hhoused := h.housed hsome (hdirs.dirs names (List.prefix_refl _) hsome)
      exact ⟨hhoused.plain, hhoused.named, hsize⟩
  distinct := h.distinct

/-- A change of one place leaves the tree in order when what comes there is in a directory. -/
theorem alter (hsome : names ≠ []) (hfree : tree.Free (below location names))
    (halters : tree.Alters after (below location names) now?) (hdistinct : after.Distinct location)
    (hentry : ∀ entry, now? = some entry → (entry = .directory ∨ entry.IsFile) ∧
      Housed tree location names ∧
      (entry = .directory → (root.joins names).text.utf8ByteSize < FileTree.pathMax)) :
    Tended root cwd location after := by
  have hkept : tree.Keeps after := halters.keeps hfree
  have hplace := halters.lookup_self (below_ne_nil location hsome)
  have hordinary := halters.ordinary h.ordinary fun entry hnow => (hentry entry hnow).1
  refine ⟨h.reaches.mono hkept, hordinary, fun {others entry} hothers hfound => ?_,
    fun {others} hdirs => ?_, hdistinct⟩
  · have hhoused : Housed tree location others := by
      by_cases hother : others = names
      · subst hother
        exact (hentry entry (hplace ▸ hfound)).2.1
      · rw [halters.lookup_of_ne fun heq => hother (below_injective heq)] at hfound
        exact h.housed hothers hfound
    exact ⟨hhoused.plain, hhoused.named, hhoused.dirs.mono hkept⟩
  · by_cases hbegins : names <+: others
    · have hdirectory := hdirs.dirs names hbegins hsome
      obtain ⟨more, rfl⟩ := hbegins
      by_cases hmore : more = []
      · subst hmore
        rw [List.append_nil]
        exact (hentry .directory (hplace ▸ hdirectory)).2.2 rfl
      · -- Nothing stood below the place before, and nothing new stands there.
        have hnone := h.lookup_append_eq_none hsome hfree.ne_directory hmore
        have hlast := hdirs.dirs _ (List.prefix_refl _) (by simp [hsome])
        rw [halters.lookup_of_ne fun heq => hmore (by simpa using below_injective heq), hnone]
          at hlast
        cases hlast
    · refine h.opens ⟨hdirs.named, fun front hfront hfrontSome => ?_⟩
      have hdirectory := hdirs.dirs front hfront hfrontSome
      rwa [halters.lookup_of_ne fun heq => hbegins (below_injective heq ▸ hfront)] at hdirectory

theorem without (hsome : names ≠ []) (hamends : tree.Amends after path location names none) :
    Tended root cwd location after :=
  h.alter hsome hamends.free hamends.alters (hamends.distinct h.distinct) nofun

theorem withFile {id mode : Nat} {content : ByteArray} (hsome : names ≠ [])
    (hamends : tree.Amends after path location names (some (.file id content mode))) :
    Tended root cwd location after := by
  refine h.alter hsome hamends.free hamends.alters (hamends.distinct h.distinct) ?_
  rintro _ ⟨⟩
  exact ⟨.inr (.intro id content mode), ⟨hamends.fits.plain, hamends.fits.named, hamends.dirs⟩,
    nofun⟩

theorem withDir (hsome : names ≠ [])
    (hamends : tree.Amends after root location names (some .directory)) :
    Tended root cwd location after := by
  refine h.alter hsome hamends.free hamends.alters (hamends.distinct h.distinct) ?_
  rintro _ ⟨⟩
  exact ⟨.inl rfl, ⟨hamends.fits.plain, hamends.fits.named, hamends.dirs⟩, fun _ =>
    hamends.fits.size⟩

theorem moved {source : List String} (hsource : source ≠ [])
    (hgone : tree.Free (below location source)) (hsome : names ≠ [])
    (hfree : tree.Free (below location names)) (hhoused : Housed tree location names)
    (id mode : Nat) (content : ByteArray) :
    Tended root cwd location
      ((tree.unset (below location source)).set (below location names)
        (.file id content mode)) := by
  have hunset := FileTree.alters_unset tree (below location source)
  have htended : Tended root cwd location (tree.unset (below location source)) :=
    h.alter hsource hgone hunset (h.distinct.unset _) nofun
  have hopened : (tree.unset (below location source)).Free (below location names) :=
    hfree.unset (below_ne_nil location hsome) _
  refine htended.alter hsome hopened (FileTree.alters_set _ _ _) (htended.distinct.set _ _) ?_
  rintro _ ⟨⟩
  exact ⟨.inr (.intro id content mode), ⟨hhoused.plain, hhoused.named,
    hhoused.dirs.mono (hunset.keeps hgone)⟩, nofun⟩

end Tended

end DirectoryStore

end Handoff
