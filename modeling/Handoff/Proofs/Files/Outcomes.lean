import Handoff.Proofs.Files.Directories
/-!
# What a file call has done

Calls on paths below a directory in which nothing but directories and files stand.  A call
that succeeds has changed one place, or has moved a file from one place to another.
-/

namespace Handoff

namespace FileTree

variable {tree after : FileTree} {cwd location place : Location} {path : Path}
  {names : List String} {last : String} {now? : Option FileEntry}

def Ordinary (tree : FileTree) (location : Location) : Prop :=
  ∀ names entry, names ≠ [] → tree.lookup (below location names) = some entry →
    entry = .directory ∨ entry.IsFile

theorem Ordinary.noLinks (h : tree.Ordinary location) : tree.NoLinks location := by
  intro names text hsome hfound
  rcases h names _ hsome hfound with hdir | hfile
  · cases hdir
  · cases hfile

theorem Ordinary.free (h : tree.Ordinary location) (hsome : names ≠ [])
    (hdir : tree.lookup (below location names) ≠ some .directory) :
    tree.Free (below location names) := by
  intro entry hfound
  rcases h names entry hsome hfound with rfl | hfile
  · exact absurd hfound hdir
  · exact hfile

theorem Alters.ordinary (h : tree.Alters after place now?) (hordinary : tree.Ordinary location)
    (hentry : ∀ entry, now? = some entry → entry = .directory ∨ entry.IsFile) :
    after.Ordinary location := by
  intro names entry hsome hfound
  rw [h _ (below_ne_nil location hsome)] at hfound
  split at hfound
  · exact hentry entry hfound
  · exact hordinary names entry hsome hfound

/-! ## Single calls -/

theorem resolve_of_resolveName {text : String} {target : Target}
    (hslash : hasFinalSlash text = false) (h : tree.resolveName cwd text = .ok target) :
    tree.resolve false cwd text = .ok target := by
  rw [resolveName, withoutFinalSlash_eq hslash] at h
  split at h
  · cases h
  · exact h

theorem Ordinary.cases (h : tree.Ordinary location) (names : List String) (last : String) :
    tree.lookup (below location names ++ [.named last]) = none ∨
      tree.lookup (below location names ++ [.named last]) = some .directory ∨
      ∃ id content mode,
        tree.lookup (below location names ++ [.named last]) = some (.file id content mode) := by
  rw [← below_concat]
  cases hfound : tree.lookup (below location (names ++ [last])) with
  | none => exact .inl rfl
  | some entry =>
      rcases h _ entry (by simp) hfound with rfl | ⟨id, content, mode⟩
      · exact .inr (.inl rfl)
      · exact .inr (.inr ⟨id, content, mode, rfl⟩)

/-- One place below the directory that a path leads to has changed, where its parent is a
directory and nothing but a file stood. -/
structure Amends (tree after : FileTree) (path : Path) (location : Location)
    (names : List String) (now? : Option FileEntry) : Prop where
  fits : Fits path names
  dirs : tree.HasDirs location names.dropLast
  free : tree.Free (below location names)
  alters : tree.Alters after (below location names) now?
  distinct : tree.Distinct location → after.Distinct location

theorem Finds.amends (h : tree.Finds cwd (path.joins (names ++ [last])) (below location names)
      (.named last))
    (hnames : ∀ name ∈ names ++ [last], Path.IsPlain name) (hdirs : tree.HasDirs location names)
    (hlast : IsName last) (hfree : tree.Free (below location (names ++ [last])))
    (halters : tree.Alters after (below location (names ++ [last])) now?)
    (hdistinct : tree.Distinct location → after.Distinct location) :
    tree.Amends after path location (names ++ [last]) now? where
  fits := {
    plain := hnames
    named := List.forall_mem_append.2 ⟨hdirs.named, List.forall_mem_singleton.2 hlast⟩
    size := size_of_resolve (h.resolve true) }
  dirs := by rwa [List.dropLast_concat]
  free := hfree
  alters := halters
  distinct := hdistinct

section Outcomes

variable (h : tree.Reaches cwd path location) (hordinary : tree.Ordinary location)
  (hnames : ∀ name ∈ names ++ [last], Path.IsPlain name)
include h hordinary hnames

theorem Reaches.finds_of_resolveName {target : Target}
    (hok : tree.resolveName cwd (path.joins (names ++ [last])).text = .ok target) :
    tree.HasDirs location names ∧ IsName last ∧
      tree.Finds cwd (path.joins (names ++ [last])) (below location names) (.named last) :=
  h.finds_of_ok hnames hordinary.noLinks
    (resolve_of_resolveName (hasFinalSlash_joins (reaches_iff.1 h).2.1 hnames (by simp)) hok)

theorem Reaches.read_ok {content : ByteArray}
    (hread : tree.read cwd (path.joins (names ++ [last])).text = .ok content) :
    ∃ id mode,
      tree.lookup (below location (names ++ [last])) = some (.file id content mode) := by
  rw [read] at hread
  split at hread
  · cases hread
  · cases hread
  · cases hread
  next place entry hdir hresolve =>
  obtain ⟨-, -, hfinds⟩ := h.finds_of_ok hnames hordinary.noLinks hresolve
  have hfound := hfinds.resolve true
  rw [hresolve, targetAt] at hfound
  rw [below_concat]
  rcases hordinary.cases names last with hnone | hdirectory | ⟨id, other, mode, hfile⟩
  · rw [hnone] at hfound
    cases hfound
  · rw [hdirectory] at hfound
    cases hfound
    exact (hdir rfl).elim
  · rw [hfile] at hfound
    cases hfound
    cases hread
    exact ⟨id, mode, hfile⟩

theorem Reaches.makeDir_amends
    (hmake : tree.makeDir cwd (path.joins (names ++ [last])).text = .ok after) :
    tree.lookup (below location (names ++ [last])) = none ∧
      tree.Amends after path location (names ++ [last]) (some .directory) := by
  have hname : ∃ target, tree.resolveName cwd (path.joins (names ++ [last])).text = .ok target := by
    rw [makeDir] at hmake
    split at hmake
    · cases hmake
    · cases hmake
    next parent name hresolve => exact ⟨_, hresolve⟩
  obtain ⟨target, hname⟩ := hname
  obtain ⟨hdirs, hlast, hfinds⟩ := h.finds_of_resolveName hordinary hnames hname
  rw [hfinds.makeDir, ← below_concat] at hmake
  split at hmake
  · cases hmake
  · next hsome =>
    cases hmake
    have hnone : tree.lookup (below location (names ++ [last])) = none := by simpa using hsome
    exact ⟨hnone, hfinds.amends hnames hdirs hlast (free_of_none hnone) (alters_set _ _ _)
      fun hdistinct => hdistinct.set _ _⟩

theorem Reaches.write_amends {content : ByteArray}
    (hwrite : tree.write cwd (path.joins (names ++ [last])).text content = .ok after) :
    ∃ id mode,
      tree.Amends after path location (names ++ [last]) (some (.file id content mode)) := by
  have hslash := hasFinalSlash_joins (reaches_iff.1 h).2.1 hnames (by simp)
  cases hresolve : tree.resolve true cwd (path.joins (names ++ [last])).text with
  | error fault =>
      rw [write, if_neg (by simp [hslash]), hresolve] at hwrite
      cases hwrite
  | ok target =>
      obtain ⟨hdirs, hlast, hfinds⟩ := h.finds_of_ok hnames hordinary.noLinks hresolve
      rcases hordinary.cases names last with hnone | hdirectory | ⟨id, old, mode, hfile⟩
      · rw [hfinds.write_none content hnone, ← below_concat] at hwrite
        rw [← below_concat] at hnone
        cases hwrite
        exact ⟨tree.nextId, plainMode, hfinds.amends hnames hdirs hlast (free_of_none hnone)
          (alters_set _ _ _) fun hdistinct => hdistinct.setNew _ _⟩
      · rw [write, if_neg (by simp [hslash]), hfinds.resolve, targetAt, hdirectory] at hwrite
        cases hwrite
      · rw [hfinds.write_file content hfile, ← below_concat] at hwrite
        rw [← below_concat] at hfile
        cases hwrite
        exact ⟨id, mode, hfinds.amends hnames hdirs hlast (free_of_file hfile)
          (alters_set _ _ _) fun hdistinct => hdistinct.set _ _⟩

theorem Reaches.write_ok {content : ByteArray}
    (hwrite : tree.write cwd (path.joins (names ++ [last])).text content = .ok after) :
    tree.Free (below location (names ++ [last])) ∧ ∃ id mode,
      tree.Alters after (below location (names ++ [last])) (some (.file id content mode)) := by
  obtain ⟨id, mode, hamends⟩ := h.write_amends hordinary hnames hwrite
  exact ⟨hamends.free, id, mode, hamends.alters⟩

theorem Reaches.remove_amends
    (hremove : tree.remove cwd (path.joins (names ++ [last])).text = .ok after) :
    tree.Amends after path location (names ++ [last]) none := by
  cases hname : tree.resolveName cwd (path.joins (names ++ [last])).text with
  | error fault =>
      rw [remove, hname] at hremove
      cases hremove
  | ok target =>
      obtain ⟨hdirs, hlast, hfinds⟩ := h.finds_of_resolveName hordinary hnames hname
      rcases hordinary.cases names last with hnone | hdirectory | ⟨id, content, mode, hfile⟩
      · rw [hfinds.remove_none hnone] at hremove
        cases hremove
      · rw [remove, hfinds.resolveName, targetAt, hdirectory] at hremove
        cases hremove
      · rw [hfinds.remove_file hfile, ← below_concat] at hremove
        rw [← below_concat] at hfile
        cases hremove
        exact hfinds.amends hnames hdirs hlast (free_of_file hfile) (alters_unset _ _)
          fun hdistinct => hdistinct.unset _

theorem Reaches.remove_ok
    (hremove : tree.remove cwd (path.joins (names ++ [last])).text = .ok after) :
    tree.Free (below location (names ++ [last])) ∧
      tree.Alters after (below location (names ++ [last])) none := by
  have hamends := h.remove_amends hordinary hnames hremove
  exact ⟨hamends.free, hamends.alters⟩

end Outcomes

/-! ## Directories on the way -/

theorem Reaches.mem_climb (h : tree.Reaches cwd path location)
    (hslash : hasFinalSlash path.text = false) {count : Nat} {above : Path}
    (habove : above ∈ path.climb count) : above.text = "" ∨
      (∃ middle, tree.Reaches cwd above middle) ∧ hasFinalSlash above.text = false := by
  induction count generalizing path location with
  | zero => cases habove
  | succ count ih =>
      rw [Path.climb] at habove
      rcases List.mem_cons.1 habove with rfl | hmore
      · exact .inr ⟨⟨location, h⟩, hslash⟩
      cases hparent : path.parent? with
      | none =>
          rw [hparent] at hmore
          cases hmore
      | some parent =>
          rw [hparent] at hmore
          change above ∈ parent.climb count at hmore
          by_cases hempty : parent.text = ""
          · cases count with
            | zero => cases hmore
            | succ count =>
                rw [Path.climb, Path.parent?, if_pos hempty] at hmore
                rw [List.mem_singleton.1 hmore]
                exact .inl hempty
          · obtain ⟨middle, hmiddle⟩ := h.parent hparent hempty
            exact ih hmiddle
              (hasFinalSlash_eq_false (Path.getLast?_of_parent? hparent hempty)) hmore

/-- The paths above joined names are those of some of the names, or lead to directories. -/
theorem Reaches.mem_climb_joins (h : tree.Reaches cwd path location)
    (hnames : ∀ name ∈ names, Path.IsPlain name) {count : Nat} {above : Path}
    (habove : above ∈ ((path.seat names).joins names).climb count) :
    (∃ front last, front ++ [last] <+: names ∧ above = path.joins (front ++ [last])) ∨
      above.text = "" ∨
      (∃ middle, tree.Reaches cwd above middle) ∧ hasFinalSlash above.text = false := by
  induction names using List.reverseRecOn generalizing count with
  | nil =>
      have hseat : (path.seat []).joins [] = path.trunk := by
        rw [Path.seat, if_pos rfl]
        rfl
      rw [hseat] at habove
      exact .inr (h.trunk.mem_climb (hasFinalSlash_eq_false path.getLast?_trunk) habove)
  | append_singleton names last ih =>
      obtain ⟨hplain, hlast⟩ := List.forall_mem_append.1 hnames
      have hseat : path.seat (names ++ [last]) = path := if_neg (by simp)
      rw [hseat] at habove
      cases count with
      | zero => cases habove
      | succ count =>
          rw [Path.climb, Path.parent?_joins (reaches_iff.1 h).2.1 hplain
            (hlast last List.mem_cons_self)] at habove
          rcases List.mem_cons.1 habove with rfl | hmore
          · exact .inl ⟨names, last, List.prefix_refl _, rfl⟩
          · rcases ih hplain hmore with ⟨front, other, hfront, rfl⟩ | hother
            · exact .inl ⟨front, other, hfront.trans (List.prefix_append _ _), rfl⟩
            · exact .inr hother

theorem makeDir_empty (tree : FileTree) (cwd : Location) :
    tree.makeDir cwd "" = .error .notFound :=
  makeDir_of_notFound (by decide) (by decide) (by rw [resolve, if_neg (by decide), if_pos rfl])

theorem Reaches.makeDir_climb_amends (h : tree.Reaches cwd path location)
    (hordinary : tree.Ordinary location) (hnames : ∀ name ∈ names, Path.IsPlain name)
    {count : Nat} {above : Path} (habove : above ∈ ((path.seat names).joins names).climb count)
    (hmake : tree.makeDir cwd above.text = .ok after) :
    ∃ front, front <+: names ∧ front ≠ [] ∧ tree.lookup (below location front) = none ∧
      tree.Amends after path location front (some .directory) := by
  rcases h.mem_climb_joins hnames habove with
    ⟨front, last, hfront, rfl⟩ | hempty | ⟨⟨middle, hmiddle⟩, hslash⟩
  · have hplain : ∀ name ∈ front ++ [last], Path.IsPlain name := fun name hname =>
      hnames name (hfront.subset hname)
    obtain ⟨hnone, hamends⟩ := h.makeDir_amends hordinary hplain hmake
    exact ⟨front ++ [last], hfront, by simp, hnone, hamends⟩
  · rw [hempty, makeDir_empty] at hmake
    cases hmake
  · rw [(hmiddle.makeDir_eq hslash).1] at hmake
    cases hmake

theorem Reaches.makeDir_climb_ok (h : tree.Reaches cwd path location)
    (hordinary : tree.Ordinary location) (hnames : ∀ name ∈ names, Path.IsPlain name)
    {count : Nat} {above : Path} (habove : above ∈ ((path.seat names).joins names).climb count)
    (hmake : tree.makeDir cwd above.text = .ok after) :
    ∃ front, front <+: names ∧ front ≠ [] ∧ tree.lookup (below location front) = none ∧
      tree.Alters after (below location front) (some .directory) := by
  obtain ⟨front, hfront, hsome, hnone, hamends⟩ :=
    h.makeDir_climb_amends hordinary hnames habove hmake
  exact ⟨front, hfront, hsome, hnone, hamends.alters⟩

/-! ## Moved files -/

section Moved

variable {seat : Path} {front more : List String} {spare : String}
  (hseat : tree.Reaches cwd seat location) (h : tree.Reaches cwd path location)
  (hordinary : tree.Ordinary location)
  (hspare : ∀ name ∈ front ++ [spare], Path.IsPlain name)
  (hnames : ∀ name ∈ more ++ [last], Path.IsPlain name)
  (hsource : tree.Free (below location (front ++ [spare])))
  (hrename : tree.rename cwd (seat.joins (front ++ [spare])).text
    (path.joins (more ++ [last])).text = .ok after)
include hseat h hordinary hspare hnames hsource hrename

theorem Reaches.rename_eq : ∃ id content mode,
    tree.lookup (below location front ++ [.named spare]) = some (.file id content mode) ∧
    tree.HasDirs location more ∧ IsName last ∧
    tree.Finds cwd (path.joins (more ++ [last])) (below location more) (.named last) ∧
    tree.lookup (below location more ++ [.named last]) ≠ some .directory ∧
    after = (tree.unset (below location front ++ [.named spare])).set
      (below location more ++ [.named last]) (.file id content mode) := by
  obtain ⟨source, hname⟩ : ∃ source,
      tree.resolveName cwd (seat.joins (front ++ [spare])).text = .ok source := by
    rw [rename] at hrename
    split at hrename
    · cases hrename
    all_goals next hresolve => exact ⟨_, hresolve⟩
  obtain ⟨-, -, hfinds⟩ := hseat.finds_of_resolveName hordinary hspare hname
  rw [below_concat] at hsource
  obtain ⟨id, content, mode, hfile⟩ : ∃ id content mode,
      tree.lookup (below location front ++ [.named spare]) = some (.file id content mode) := by
    rcases hordinary.cases front spare with hnone | hdirectory | hfile
    · rw [rename, hfinds.resolveName, targetAt, hnone] at hrename
      cases hrename
    · exact absurd hdirectory hsource.ne_directory
    · exact hfile
  obtain ⟨target, htarget⟩ : ∃ target,
      tree.resolveName cwd (path.joins (more ++ [last])).text = .ok target := by
    rw [rename, hfinds.resolveName, targetAt, hfile] at hrename
    dsimp only at hrename
    split at hrename
    · cases hrename
    all_goals next hresolve => exact ⟨_, hresolve⟩
  obtain ⟨hdirs, hlast, hplace⟩ := h.finds_of_resolveName hordinary hnames htarget
  have hopen : tree.lookup (below location more ++ [.named last]) ≠ some .directory := by
    intro hdirectory
    rw [rename, hfinds.resolveName, targetAt, hfile] at hrename
    dsimp only at hrename
    rw [hplace.resolveName, targetAt, hdirectory] at hrename
    cases hrename
  rw [hfinds.rename_file hplace hfile hopen] at hrename
  exact ⟨id, content, mode, hfile, hdirs, hlast, hplace, hopen, (Except.ok.inj hrename).symm⟩

theorem Reaches.rename_ok : ∃ id content mode middle,
    tree.lookup (below location (front ++ [spare])) = some (.file id content mode) ∧
    tree.Alters middle (below location (front ++ [spare])) none ∧
    middle.Free (below location (more ++ [last])) ∧
    middle.Alters after (below location (more ++ [last])) (some (.file id content mode)) ∧
    after.read cwd (path.joins (more ++ [last])).text = .ok content := by
  obtain ⟨id, content, mode, hfile, hdirs, hlast, hplace, hopen, rfl⟩ :=
    Reaches.rename_eq hseat h hordinary hspare hnames hsource hrename
  rw [below_concat] at hsource
  have hgone := alters_unset tree (below location front ++ [.named spare])
  have hput := alters_set (tree.unset (below location front ++ [.named spare]))
    (below location more ++ [.named last]) (.file id content mode)
  have hfree : (tree.unset (below location front ++ [.named spare])).Free
      (below location more ++ [.named last]) := by
    rw [← below_concat location more] at hopen ⊢
    exact (hordinary.free (by simp) hopen).unset (below_ne_nil location (by simp)) _
  have hkept : tree.Keeps ((tree.unset (below location front ++ [.named spare])).set
      (below location more ++ [.named last]) (.file id content mode)) :=
    (hgone.keeps hsource).trans (hput.keeps hfree)
  have hafter := hput.ordinary (hgone.ordinary hordinary (by simp))
    fun entry hentry => Option.some.inj hentry ▸ .inr (.intro id content mode)
  have hthere := (h.mono hkept).finds hnames (size_of_resolve (hplace.resolve true))
    (hdirs.mono hkept) hlast hafter.noLinks
  have hmoved := hput (below location more ++ [.named last]) (by simp)
  rw [if_pos rfl] at hmoved
  rw [below_concat, below_concat]
  exact ⟨id, content, mode, _, hfile, hgone, hfree, hput, hthere.read_file hmoved⟩

end Moved

end FileTree

end Handoff
