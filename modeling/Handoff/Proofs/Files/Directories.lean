import Mathlib.Data.List.Induction
import Handoff.Proofs.Files.Calls
import Handoff.Proofs.Performance
/-!
# Making directories

What stands in the tree when a directory has been made with all those above it: the missing
ones are new, and everything else is as it was.
-/

namespace Handoff

namespace FileTree

variable {tree after : FileTree} {cwd location : Location} {path : Path} {above : List Path}
  {names : List String}

/-! ## Runs of programs over files -/

theorem run_bind {α β : Type} (program : Program Files α) (next : α → Program Files β) :
    run cwd (program >>= next) tree =
      run cwd (next (run cwd program tree).1) (run cwd program tree).2 :=
  Program.perform_bind program next tree

theorem run_bind_eq {α β : Type} {program : Program Files α} {next : α → Program Files β}
    {value : α} (h : run cwd program tree = (value, after)) :
    run cwd (program >>= next) tree = run cwd (next value) after := by
  rw [run_bind, h]

theorem run_makeDir (path : Path) : run cwd (Files.makeDir path) tree =
    answer.changed tree (tree.makeDir cwd path.text) := rfl

theorem run_isDir (path : Path) :
    run cwd (Files.isDir path) tree = (tree.isDir cwd path.text, tree) := rfl

theorem run_read (path : Path) :
    run cwd (Files.read path) tree = (tree.read cwd path.text, tree) := rfl

theorem run_write (path : Path) (content : ByteArray) : run cwd (Files.write path content) tree =
    answer.changed tree (tree.write cwd path.text content) := rfl

theorem run_rename (source target : Path) : run cwd (Files.rename source target) tree =
    answer.changed tree (tree.rename cwd source.text target.text) := rfl

theorem run_remove (path : Path) : run cwd (Files.remove path) tree =
    answer.changed tree (tree.remove cwd path.text) := rfl

theorem run_entries (path : Path) :
    run cwd (Files.entries path) tree = (tree.list cwd path.text, tree) := rfl

theorem changed_cases {result : Except OsFault FileTree} {given : Except OsFault Unit}
    (h : answer.changed tree result = (given, after)) :
    (∃ fault, given = .error fault ∧ after = tree) ∨ given = .ok () ∧ result = .ok after := by
  cases result with
  | error fault =>
      cases h
      exact .inl ⟨fault, rfl, rfl⟩
  | ok made =>
      cases h
      exact .inr ⟨rfl, rfl⟩

theorem run_makeDirs_made (hpath : path.text ≠ "")
    (h : tree.makeDir cwd path.text = .ok after) :
    run cwd (Files.makeDirs (path :: above)) tree = (.ok (), after) := by
  have hmake : run cwd (Files.makeDir path) tree = (.ok (), after) := by rw [run_makeDir, h]; rfl
  rw [Files.makeDirs, if_neg hpath]
  exact run_bind_eq hmake

theorem run_makeDirs_there (hpath : path.text ≠ "")
    (h : tree.makeDir cwd path.text = .error .alreadyExists)
    (hdir : tree.isDir cwd path.text = true) :
    run cwd (Files.makeDirs (path :: above)) tree = (.ok (), tree) := by
  have hmake : run cwd (Files.makeDir path) tree = (.error .alreadyExists, tree) := by
    rw [run_makeDir, h]
    rfl
  have hlook : run cwd (Files.isDir path) tree = (true, tree) := by rw [run_isDir, hdir]
  rw [Files.makeDirs, if_neg hpath]
  exact (run_bind_eq hmake).trans (run_bind_eq hlook)

theorem run_makeDirs_missing {middle : FileTree} (hpath : path.text ≠ "")
    (h : tree.makeDir cwd path.text = .error .notFound)
    (habove : run cwd (Files.makeDirs above) tree = (.ok (), middle))
    (hnext : middle.makeDir cwd path.text = .ok after ∨
      middle.makeDir cwd path.text = .error .alreadyExists ∧
        middle.isDir cwd path.text = true ∧ after = middle) :
    run cwd (Files.makeDirs (path :: above)) tree = (.ok (), after) := by
  have hfirst : run cwd (Files.makeDir path) tree = (.error .notFound, tree) := by
    rw [run_makeDir, h]
    rfl
  rw [Files.makeDirs, if_neg hpath]
  refine (run_bind_eq hfirst).trans ((run_bind_eq habove).trans ?_)
  rcases hnext with hmade | ⟨hthere, hdir, rfl⟩
  · have hsecond : run cwd (Files.makeDir path) middle = (.ok (), after) := by
      rw [run_makeDir, hmade]
      rfl
    exact run_bind_eq hsecond
  · have hsecond : run cwd (Files.makeDir path) after = (.error .alreadyExists, after) := by
      rw [run_makeDir, hthere]
      rfl
    have hlook : run cwd (Files.isDir path) after = (true, after) := by rw [run_isDir, hdir]
    exact (run_bind_eq hsecond).trans (run_bind_eq hlook)

/-! ## The directories of joined names -/

/-- The tree has become one with directories for all the names, and is as it was elsewhere. -/
structure Made (tree after : FileTree) (location : Location) (names : List String) : Prop where
  dirs : after.HasDirs location names
  others : ∀ place, place ≠ [] →
    (∀ front, front <+: names → front ≠ [] → place ≠ below location front) →
      after.lookup place = tree.lookup place
  distinct : tree.Distinct location → after.Distinct location

def Open (tree : FileTree) (location : Location) (names : List String) : Prop :=
  ∀ front, front <+: names → front ≠ [] →
    tree.lookup (below location front) = none ∨
      tree.lookup (below location front) = some .directory

theorem Made.keeps (h : tree.Made after location names) (hopen : tree.Open location names) :
    tree.Keeps after := by
  intro place entry hfound hkind
  by_cases hplace : place = []
  · subst hplace
    exact hfound
  by_cases hway : ∃ front, front <+: names ∧ front ≠ [] ∧ place = below location front
  · obtain ⟨front, hfront, hsome, rfl⟩ := hway
    rcases hopen front hfront hsome with hnone | hdir
    · rw [hnone] at hfound
      cases hfound
    · rw [h.dirs.dirs front hfront hsome, ← hdir, hfound]
  · rw [h.others place hplace fun front hfront hsome heq => hway ⟨front, hfront, hsome, heq⟩]
    exact hfound

theorem made_set {first : List String} {last : String} (h : tree.HasDirs location first)
    (hlast : IsName last) :
    tree.Made (tree.set (below location (first ++ [last])) .directory) location
      (first ++ [last]) where
  dirs := by
    refine hasDirs_concat.2 ⟨⟨h.named, fun front hfront hsome => ?_⟩, hlast, ?_⟩
    · rw [lookup_set _ _ (below_ne_nil location hsome), h.dirs front hfront hsome]
      split <;> rfl
    · rw [lookup_set _ _ (below_ne_nil location (by simp)), if_pos rfl]
  others place hplace hother := by
    rw [lookup_set _ _ hplace, if_neg (hother _ (List.prefix_refl _) (by simp))]
  distinct hdistinct := hdistinct.set _ _

theorem made_self (h : tree.HasDirs location names) : tree.Made tree location names where
  dirs := h
  others _ _ _ := rfl
  distinct hdistinct := hdistinct

theorem Made.trans {middle : FileTree} {front : List String}
    (h : tree.Made middle location front) (hnext : middle.Made after location names)
    (hfront : front <+: names) : tree.Made after location names where
  dirs := hnext.dirs
  others place hplace hother := by
    rw [hnext.others place hplace hother]
    exact h.others place hplace fun part hpart => hother part (hpart.trans hfront)
  distinct hdistinct := hnext.distinct (h.distinct hdistinct)

theorem NoLinks.of_made (hlinks : tree.NoLinks location) (h : tree.Made after location names) :
    after.NoLinks location := by
  intro front text hsome hfound
  by_cases hway : front <+: names
  · rw [h.dirs.dirs front hway hsome] at hfound
    cases hfound
  · rw [h.others _ (below_ne_nil location hsome) fun part hpart _ heq =>
      hway (below_injective heq ▸ hpart)] at hfound
    exact hlinks front text hsome hfound

theorem Open.of_made (hopen : tree.Open location names) {front : List String}
    (h : tree.Made after location front) : after.Open location names := by
  intro part hpart hsome
  by_cases hway : part <+: front
  · exact .inr (h.dirs.dirs part hway hsome)
  · rw [h.others _ (below_ne_nil location hsome) fun other hother _ heq =>
      hway (below_injective heq ▸ hother)]
    exact hopen part hpart hsome

theorem Reaches.makeDir_eq (h : tree.Reaches cwd path location)
    (hslash : hasFinalSlash path.text = false) :
    tree.makeDir cwd path.text = .error .alreadyExists ∧ tree.isDir cwd path.text = true := by
  obtain ⟨hnul, hempty, hsize, hleads⟩ := reaches_iff.1 h
  obtain ⟨place, entry, hpresent⟩ := hleads.present false
  constructor
  · rw [FileTree.makeDir, FileTree.resolveName, if_neg (Nat.not_le.2 hsize),
      withoutFinalSlash_eq hslash, resolve_eq false cwd hnul hempty hsize, hpresent]
  · rw [FileTree.isDir, h]

theorem Finds.makeDir_or_isDir {names : List String} {last : String} {path : Path}
    (h : tree.Finds cwd path (below location names) (.named last))
    (hdirs : tree.HasDirs location names) (hlast : IsName last)
    (hopen : tree.Open location (names ++ [last])) :
    (tree.makeDir cwd path.text = .ok (tree.set (below location (names ++ [last])) .directory) ∧
        tree.Made (tree.set (below location (names ++ [last])) .directory) location
          (names ++ [last])) ∨
      tree.makeDir cwd path.text = .error .alreadyExists ∧ tree.isDir cwd path.text = true ∧
        tree.Made tree location (names ++ [last]) := by
  rcases hopen (names ++ [last]) (List.prefix_refl _) (by simp) with hnone | hdir
  · refine .inl ⟨?_, made_set hdirs hlast⟩
    rw [h.makeDir, ← below_concat, hnone]
    rfl
  · refine .inr ⟨?_, ?_, made_self (hasDirs_concat.2 ⟨hdirs, hlast, hdir⟩)⟩
    · rw [h.makeDir, ← below_concat, hdir]
      rfl
    · rw [h.isDir, ← below_concat, hdir]
      exact decide_eq_true rfl

/-- A path that is looked up in vain names no place for a directory, or a file. -/
theorem makeDir_of_notFound {text : String} (hslash : hasFinalSlash text = false)
    (hsize : text.utf8ByteSize < pathMax) (h : tree.resolve false cwd text = .error .notFound) :
    tree.makeDir cwd text = .error .notFound := by
  rw [FileTree.makeDir, FileTree.resolveName, if_neg (Nat.not_le.2 hsize),
    withoutFinalSlash_eq hslash, h]

theorem hasFinalSlash_eq_false {text : String}
    (h : text = "/" ∨ text.toList.getLast? ≠ some '/') : hasFinalSlash text = false := by
  rcases h with rfl | hlast
  · decide
  · rw [hasFinalSlash, beq_false_of_ne hlast, Bool.false_and]

/-- When only directories stand on the way, joined names are made directories. -/
theorem Reaches.run_makeDirs (h : tree.Reaches cwd path location)
    (hplain : ∀ name ∈ names, Path.IsPlain name) (hnamed : ∀ name ∈ names, IsName name)
    (hopen : tree.Open location names) (hlinks : tree.NoLinks location)
    (hsize : path.text.utf8ByteSize + Path.sizeOf names < pathMax) {count : Nat}
    (hcount : names.length < count) :
    ∃ after, run cwd (Files.makeDirs (((path.seat names).joins names).climb count)) tree =
      (.ok (), after) ∧ tree.Made after location names := by
  have hempty := (reaches_iff.1 h).2.1
  obtain ⟨count, rfl⟩ : ∃ fewer, count = fewer + 1 := ⟨count - 1, by omega⟩
  induction names using List.reverseRecOn generalizing count with
  | nil =>
      have hseat : (path.seat []).joins [] = path.trunk := by
        rw [Path.seat, if_pos rfl]
        rfl
      obtain ⟨hthere, hdir⟩ := h.trunk.makeDir_eq (hasFinalSlash_eq_false path.getLast?_trunk)
      rw [hseat, Path.climb]
      exact ⟨tree, run_makeDirs_there (reaches_iff.1 h.trunk).2.1 hthere hdir,
        made_self (hasDirs_nil tree location)⟩
  | append_singleton names last ih =>
      obtain ⟨hplain', hlast'⟩ := List.forall_mem_append.1 hplain
      obtain ⟨hnamed', hlast⟩ := List.forall_mem_append.1 hnamed
      replace hlast := hlast last List.mem_cons_self
      have hfront : names <+: names ++ [last] := List.prefix_append _ _
      have hseat : path.seat (names ++ [last]) = path := if_neg (by simp)
      have hlength : (path.joins (names ++ [last])).text.utf8ByteSize < pathMax :=
        Nat.lt_of_le_of_lt (Path.size_joins_le path _) hsize
      have hslash := hasFinalSlash_joins hempty hplain (by simp)
      have htext := Path.text_ne_empty_joins hempty hplain
      rw [hseat, Path.climb,
        Path.parent?_joins hempty hplain' (hlast' last List.mem_cons_self)]
      rcases hasDirs_or_missing hnamed' fun front hpart => hopen front (hpart.trans hfront) with
        hdirs | ⟨front, missing, rest, rfl, hdirs, hnone⟩
      · -- The directory above is there.
        have hfinds := h.finds hplain hlength hdirs hlast hlinks
        rcases hfinds.makeDir_or_isDir hdirs hlast hopen with ⟨hmake, hmade⟩ | ⟨hthere, hdir, hmade⟩
        · exact ⟨_, run_makeDirs_made htext hmake, hmade⟩
        · exact ⟨_, run_makeDirs_there htext hthere hdir, hmade⟩
      · -- A name before the last is missing: what is above is made first.
        have hresolve : tree.resolve false cwd
            (path.joins (front ++ missing :: rest ++ [last])).text = .error .notFound := by
          rw [List.append_assoc, List.cons_append] at hplain hlength ⊢
          exact h.resolve_missing hplain hlength hdirs (hnamed' missing (by simp)) hnone (by simp)
            false
        have hsize' : path.text.utf8ByteSize + Path.sizeOf (front ++ missing :: rest) <
            pathMax := by
          rw [Path.sizeOf_append _ [last]] at hsize
          omega
        obtain ⟨fewer, rfl⟩ : ∃ fewer, count = fewer + 1 :=
          ⟨count - 1, by simp only [List.length_append, List.length_cons] at hcount; omega⟩
        obtain ⟨middle, hrun, hmiddle⟩ := ih hplain' hnamed'
          (fun part hpart => hopen part (hpart.trans hfront)) hsize' fewer
          (by simp only [List.length_append, List.length_cons] at hcount ⊢; omega)
        have hreach := h.mono (hmiddle.keeps fun part hpart => hopen part (hpart.trans hfront))
        have hfinds := hreach.finds hplain hlength hmiddle.dirs hlast (hlinks.of_made hmiddle)
        have hmissing := makeDir_of_notFound hslash hlength hresolve
        rcases hfinds.makeDir_or_isDir hmiddle.dirs hlast (hopen.of_made hmiddle) with
          ⟨hmake, hmade⟩ | ⟨hthere, hdir, hmade⟩
        · exact ⟨_, run_makeDirs_missing htext hmissing hrun (.inl hmake),
            hmiddle.trans hmade hfront⟩
        · exact ⟨_, run_makeDirs_missing htext hmissing hrun (.inr ⟨hthere, hdir, rfl⟩),
            hmiddle.trans hmade hfront⟩

theorem Reaches.run_makeDirAll (h : tree.Reaches cwd path location)
    (hplain : ∀ name ∈ names, Path.IsPlain name) (hnamed : ∀ name ∈ names, IsName name)
    (hopen : tree.Open location names) (hlinks : tree.NoLinks location)
    (hsize : path.text.utf8ByteSize + Path.sizeOf names < pathMax) :
    ∃ after, run cwd (Files.makeDirAll ((path.seat names).joins names)) tree = (.ok (), after) ∧
      tree.Made after location names := by
  refine h.run_makeDirs hplain hnamed hopen hlinks hsize (Nat.lt_succ_of_le ?_)
  by_cases hsome : names = []
  · simp [hsome]
  · rw [Path.pieces_joins (reaches_iff.1 (h.seat names)).2.1 hplain hsome, List.length_append]
    omega

end FileTree

end Handoff
