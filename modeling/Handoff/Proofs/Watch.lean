import Handoff.Proofs.Files.Respelling
import Handoff.Proofs.Performance
import Handoff.Watch
import Mathlib.Data.List.Find
/-!
# What a watch notices

A watch keeps every path once and compares what can be read at it when the watch is set and when it
is looked at, in any two states of a file system.  It goes by digests, so contents with one digest
would pass for the same: where none of the contents are so, it names the first path whose content
differs, and asks for a reload just when there is one.
-/

namespace Handoff

/-! ## File systems -/

/-- A file system with states of some kind.  To read a file changes nothing. -/
structure FileSystem (σ : Type) where
  answer : Surroundings Files σ
  read_keeps : ∀ path s, (answer (.read path) s).2 = s

/-- What can be read at a path; `none` where nothing can. -/
def FileSystem.content? {σ : Type} (files : FileSystem σ) (s : σ) (path : Path) :
    Option ByteArray :=
  (files.answer (.read path) s).1.toOption

def FileTree.system (cwd : Location) : FileSystem FileTree where
  answer := FileTree.answer cwd
  read_keeps _ _ := rfl

namespace FileTree

theorem content?_of_alike (tree : FileTree) (cwd : Location) {a b : Path} (h : a.Alike b) :
    (system cwd).content? tree a = (system cwd).content? tree b :=
  toOption_read_congr tree cwd h

end FileTree

def Sha256.NoCollision (contents : ByteArray → Prop) : Prop :=
  ∀ a b, contents a → contents b → digest a = digest b → a = b

namespace SourceWatch

/-! ## The paths of a watch -/

def IsFirst (paths : List Path) (i : Fin paths.length) : Prop :=
  ∀ j < i, (paths.get j).same (paths.get i) = false

instance (paths : List Path) (i : Fin paths.length) : Decidable (IsFirst paths i) :=
  inferInstanceAs (Decidable (∀ j < i, _))

/-- The paths at the positions where they stand first, in the order of the positions. -/
def firsts (paths : List Path) : List Path :=
  ((List.finRange paths.length).filter fun i => IsFirst paths i).map paths.get

def IsNew (seen paths : List Path) (i : Fin paths.length) : Prop :=
  (∀ other ∈ seen, other.same (paths.get i) = false) ∧ IsFirst paths i

instance (seen paths : List Path) (i : Fin paths.length) : Decidable (IsNew seen paths i) :=
  inferInstanceAs (Decidable (_ ∧ _))

section Positions

variable {seen : List Path} {path : Path} {rest : List Path}

theorem isNew_zero :
    IsNew seen (path :: rest) ⟨0, Nat.succ_pos _⟩ ↔ ¬seen.any path.same = true := by
  have hfirst : IsFirst (path :: rest) ⟨0, Nat.succ_pos _⟩ := fun j hj => absurd hj (Nat.not_lt_zero j)
  rw [IsNew, and_iff_left hfirst]
  simp [Path.same_comm path]

theorem isNew_succ {i : Fin rest.length} :
    IsNew seen (path :: rest) i.succ ↔ IsNew (path :: seen) rest i := by
  have hfirst : IsFirst (path :: rest) i.succ ↔
      path.same (rest.get i) = false ∧ IsFirst rest i := by
    constructor
    · intro h
      exact ⟨h 0 (Fin.succ_pos i), fun j hj => h j.succ (Fin.succ_lt_succ_iff.2 hj)⟩
    · rintro ⟨hpath, hrest⟩ j hj
      cases j using Fin.cases with
      | zero => exact hpath
      | succ j => exact hrest j (Fin.succ_lt_succ_iff.1 hj)
  rw [IsNew, IsNew, hfirst, List.forall_mem_cons]
  exact and_left_comm.trans and_assoc.symm

theorem isNew_cons_of_seen {i : Fin rest.length} (hseen : seen.any path.same = true) :
    IsNew (path :: seen) rest i ↔ IsNew seen rest i := by
  obtain ⟨other, hother, hsame⟩ := List.any_eq_true.1 hseen
  rw [IsNew, IsNew, List.forall_mem_cons]
  constructor
  · rintro ⟨⟨-, h⟩, hfirst⟩
    exact ⟨h, hfirst⟩
  · rintro ⟨h, hfirst⟩
    exact ⟨⟨(Path.same_congr hsame _).trans (h other hother), h⟩, hfirst⟩

end Positions

theorem distinctAfter_eq (seen paths : List Path) :
    distinctAfter seen paths =
      ((List.finRange paths.length).filter fun i => IsNew seen paths i).map paths.get := by
  induction paths generalizing seen with
  | nil => rfl
  | cons path rest ih =>
      have hrange : List.finRange (path :: rest).length =
          ⟨0, Nat.succ_pos _⟩ :: (List.finRange rest.length).map Fin.succ := List.finRange_succ
      have hget : (path :: rest).get ∘ Fin.succ = rest.get := rfl
      rw [distinctAfter, hrange, List.filter_cons, List.filter_map]
      by_cases hseen : seen.any path.same = true
      · rw [if_pos hseen, if_neg (mt (isNew_zero.1 ∘ of_decide_eq_true) (not_not_intro hseen)), ih, List.map_map, hget]
        refine congrArg (List.map rest.get) (List.filter_congr fun i _ => decide_eq_decide.2 ?_)
        exact (isNew_succ.trans (isNew_cons_of_seen hseen)).symm
      · rw [if_neg hseen, if_pos (decide_eq_true (isNew_zero.2 hseen)), ih, List.map_cons,
          List.map_map, hget]
        refine congrArg (path :: ·) (congrArg (List.map rest.get) ?_)
        exact List.filter_congr fun i _ => decide_eq_decide.2 isNew_succ.symm

theorem distinct_eq_firsts (paths : List Path) : distinct paths = firsts paths := by
  rw [distinct, distinctAfter_eq, firsts]
  refine congrArg (List.map paths.get) (List.filter_congr fun i _ => decide_eq_decide.2 ?_)
  exact and_iff_right (by simp)

/-- Of every path one spelling is kept, unless one was seen before. -/
theorem exists_of_mem (seen : List Path) {paths : List Path} {path : Path} (hpath : path ∈ paths) :
    ∃ kept ∈ distinctAfter seen paths ++ seen, kept.same path = true := by
  induction paths generalizing seen with
  | nil => cases hpath
  | cons next rest ih =>
      rw [distinctAfter]
      split
      · next hseen =>
        rcases List.mem_cons.1 hpath with rfl | hrest
        · obtain ⟨other, hother, hsame⟩ := List.any_eq_true.1 hseen
          exact ⟨other, List.mem_append_right _ hother, (Path.same_comm other path).trans hsame⟩
        · exact ih seen hrest
      · rcases List.mem_cons.1 hpath with rfl | hrest
        · exact ⟨path, List.mem_append_left _ List.mem_cons_self, Path.same_iff.2 rfl⟩
        · obtain ⟨kept, hkept, hsame⟩ := ih (next :: seen) hrest
          exact ⟨kept, List.perm_middle.mem_iff.1 hkept, hsame⟩

/-- A search that does not tell spellings apart finds what it would find in the whole list. -/
theorem find?_distinctAfter {seen paths : List Path} {found : Path → Bool}
    (hfound : ∀ a ∈ paths ++ seen, ∀ b ∈ paths ++ seen, a.same b = true → found a = found b)
    (hseen : ∀ other ∈ seen, found other = false) :
    (distinctAfter seen paths).find? found = paths.find? found := by
  induction paths generalizing seen with
  | nil => rfl
  | cons path rest ih =>
      rw [List.cons_append] at hfound
      have hrest : ∀ a ∈ rest ++ seen, ∀ b ∈ rest ++ seen, a.same b = true → found a = found b :=
        fun a ha b hb => hfound a (List.mem_cons_of_mem path ha) b (List.mem_cons_of_mem path hb)
      rw [distinctAfter]
      split
      · next hany =>
        obtain ⟨other, hother, hsame⟩ := List.any_eq_true.1 hany
        have hother' := List.mem_cons_of_mem path (List.mem_append_right rest hother)
        have hpath : found path = false :=
          (hfound path List.mem_cons_self other hother' hsame).trans (hseen other hother)
        rw [ih hrest hseen, List.find?_cons_of_neg (by simp [hpath])]
      · by_cases hpath : found path = true
        · rw [List.find?_cons_of_pos hpath, List.find?_cons_of_pos hpath]
        · rw [List.find?_cons_of_neg hpath, List.find?_cons_of_neg hpath]
          refine ih (fun a ha b hb => hfound a ?_ b ?_)
            (List.forall_mem_cons.2 ⟨Bool.eq_false_iff.2 hpath, hseen⟩)
          · exact List.perm_middle.mem_iff.1 ha
          · exact List.perm_middle.mem_iff.1 hb

/-! ## Setting a watch and looking at it -/

variable {σ : Type} {files : FileSystem σ} {s : σ}

def fingerprintIn (files : FileSystem σ) (s : σ) (path : Path) : Fingerprint :=
  (files.content? s path).map Sha256.digest

theorem perform_fingerprint (path : Path) :
    (fingerprint path).perform files.answer s = (fingerprintIn files s path, s) := by
  have hread : (Files.read path).perform files.answer s = ((files.answer (.read path) s).1, s) :=
    Prod.ext rfl (files.read_keeps path s)
  rw [fingerprint, Program.perform_bind, hread, fingerprintIn, FileSystem.content?]
  cases (files.answer (.read path) s).1 <;> rfl

theorem perform_fingerprints (paths : List Path) :
    (fingerprints paths).perform files.answer s =
      (paths.map fun path => (path, fingerprintIn files s path), s) := by
  induction paths with
  | nil => rfl
  | cons path rest ih =>
      rw [fingerprints, Program.perform_bind, perform_fingerprint, Program.perform_bind, ih]
      rfl

theorem perform_capture (paths : List Path) :
    (capture paths).perform files.answer s =
      (⟨(distinct paths).map fun path => (path, fingerprintIn files s path)⟩, s) := by
  rw [capture, Program.perform_bind, perform_fingerprints]
  rfl

theorem paths_capture (files : FileSystem σ) (s : σ) (paths : List Path) :
    ((capture paths).perform files.answer s).1.paths = firsts paths := by
  rw [perform_capture, SourceWatch.paths, List.map_map, distinct_eq_firsts]
  exact List.map_id _

theorem perform_firstChanged (entries : List (Path × Fingerprint)) :
    (firstChanged entries).perform files.answer s =
      ((entries.find? fun entry => fingerprintIn files s entry.1 ≠ entry.2).map Prod.fst, s) := by
  induction entries with
  | nil => rfl
  | cons entry rest ih =>
      rw [firstChanged, Program.perform_bind, perform_fingerprint, List.find?_cons]
      by_cases hsame : fingerprintIn files s entry.1 = entry.2
      · simpa [hsame] using ih
      · simp [hsame]

theorem perform_reloadWanted (watch : SourceWatch) :
    (watch.reloadWanted.perform files.answer s).1 =
      (watch.changed.perform files.answer s).1.isSome := by
  rw [reloadWanted, Program.perform_bind]
  rfl

/-! ## Contents and digests -/

/-- The content can be read at one of the paths, in one of the states. -/
def Involved (files : FileSystem σ) (before after : σ) (paths : List Path)
    (content : ByteArray) : Prop :=
  ∃ path ∈ paths, files.content? before path = some content ∨
    files.content? after path = some content

variable {before after : σ} {paths : List Path}

theorem involved_iff {content : ByteArray} :
    Involved files before after paths content ↔
      some content ∈ paths.map (files.content? before) ∨
        some content ∈ paths.map (files.content? after) := by
  simp only [Involved, List.mem_map]
  constructor
  · rintro ⟨path, hpath, hbefore | hafter⟩
    · exact .inl ⟨path, hpath, hbefore⟩
    · exact .inr ⟨path, hpath, hafter⟩
  · rintro (⟨path, hpath, hbefore⟩ | ⟨path, hpath, hafter⟩)
    · exact ⟨path, hpath, .inl hbefore⟩
    · exact ⟨path, hpath, .inr hafter⟩

/-- Without collisions the fingerprints tell whether the same can be read. -/
theorem fingerprintIn_eq_iff (hdigest : Sha256.NoCollision (Involved files before after paths))
    {path : Path} (hpath : path ∈ paths) :
    fingerprintIn files after path = fingerprintIn files before path ↔
      files.content? after path = files.content? before path := by
  constructor
  · intro h
    rw [fingerprintIn, fingerprintIn] at h
    cases hbefore : files.content? before path with
    | none =>
        rw [hbefore] at h
        exact Option.map_eq_none_iff.1 h
    | some old =>
        rw [hbefore] at h
        obtain ⟨new, hafter, hsame⟩ := Option.map_eq_some_iff.1 h
        rw [hafter]
        exact congrArg some
          (hdigest new old ⟨path, hpath, .inr hafter⟩ ⟨path, hpath, .inl hbefore⟩ hsame)
  · intro h
    rw [fingerprintIn, fingerprintIn, h]

theorem perform_changed (files : FileSystem σ) (before after : σ) (paths : List Path) :
    ((((capture paths).perform files.answer before).1.changed).perform files.answer after).1 =
      (firsts paths).find? fun path =>
        fingerprintIn files after path ≠ fingerprintIn files before path := by
  rw [perform_capture, changed, perform_firstChanged, List.find?_map, distinct_eq_firsts,
    Option.map_map]
  exact Option.map_id_apply

/-- The spellings of one path that the list has read alike, in both states. -/
def ReadAlike (files : FileSystem σ) (before after : σ) (paths : List Path) : Prop :=
  ∀ a ∈ paths, ∀ b ∈ paths, a.same b = true →
    files.content? before a = files.content? before b ∧
      files.content? after a = files.content? after b

/-- In a tree they do so when they are all of the same kind. -/
theorem readAlike_of_alike {cwd : Location} {before after : FileTree}
    (h : ∀ a ∈ paths, ∀ b ∈ paths, a.same b = true → a.Alike b) :
    ReadAlike (FileTree.system cwd) before after paths := by
  intro a ha b hb hsame
  have halike := h a ha b hb hsame
  exact ⟨FileTree.content?_of_alike before cwd halike, FileTree.content?_of_alike after cwd halike⟩

/-- A watch keeps every path once, in the spelling that stands first.  A later look finds the first
of these at which something else can be read than when the watch was set, where nothing that can be
read is a content of its own, and a reload is wanted just when there is one.  Of the paths that were
given the watch passes over none that has changed, unless it is another spelling of one that was
kept; and where all spellings of a path read alike it finds the first of all of them that has
changed, and none just when the same can be read at every one. -/
theorem changes_noticed (files : FileSystem σ) (before after : σ) (paths : List Path)
    (hdigest : Sha256.NoCollision (Involved files before after (firsts paths))) :
    let watch := ((capture paths).perform files.answer before).1
    let found := (watch.changed.perform files.answer after).1
    watch.paths = firsts paths ∧
      found = (watch.paths.find? fun path =>
        files.content? after path ≠ files.content? before path) ∧
      (found = none ↔ ∀ path ∈ watch.paths,
        files.content? after path = files.content? before path) ∧
      (watch.reloadWanted.perform files.answer after).1 = found.isSome ∧
      (∀ path ∈ paths, files.content? after path ≠ files.content? before path → found = none →
        ∃ kept ∈ watch.paths, kept.same path = true ∧ kept ≠ path) ∧
      (ReadAlike files before after paths →
        found = (paths.find? fun path =>
          files.content? after path ≠ files.content? before path) ∧
        (found = none ↔ ∀ path ∈ paths,
          files.content? after path = files.content? before path)) := by
  intro watch found
  have hpaths : watch.paths = firsts paths := paths_capture files before paths
  have hfound : found = watch.paths.find? fun path =>
      files.content? after path ≠ files.content? before path := by
    rw [hpaths]
    refine (perform_changed files before after paths).trans (List.find?_congr fun path hpath => ?_)
    exact decide_eq_decide.2 (not_congr (fingerprintIn_eq_iff hdigest hpath))
  have hnone : found = none ↔ ∀ path ∈ watch.paths,
      files.content? after path = files.content? before path := by
    rw [hfound, List.find?_eq_none]
    simp
  refine ⟨hpaths, hfound, hnone, perform_reloadWanted watch, fun path hpath hchanged hmissed => ?_,
    fun halike => ?_⟩
  · obtain ⟨kept, hkept, hsame⟩ := exists_of_mem [] hpath
    rw [List.append_nil] at hkept
    have hwatched : kept ∈ watch.paths := by rwa [hpaths, ← distinct_eq_firsts]
    refine ⟨kept, hwatched, hsame, ?_⟩
    rintro rfl
    exact hchanged (hnone.1 hmissed kept hwatched)
  · have hall : found = paths.find? fun path =>
        files.content? after path ≠ files.content? before path := by
      rw [hfound, hpaths, ← distinct_eq_firsts, distinct]
      refine find?_distinctAfter (fun a ha b hb hsame => ?_) (by simp)
      rw [List.append_nil] at ha hb
      obtain ⟨hbefore, hafter⟩ := halike a ha b hb hsame
      rw [hbefore, hafter]
    refine ⟨hall, ?_⟩
    rw [hall, List.find?_eq_none]
    simp

/-! ## A plan that is written later -/

def scriptTree : FileTree where
  entries := [([.named "tester"], .file 0 "v1".toUTF8 FileTree.plainMode)]
  nextId := 1

def planTree : FileTree where
  entries := ([.named "plan"], .file 1 "v2".toUTF8 FileTree.plainMode) :: scriptTree.entries
  nextId := 2

/-- The script in two spellings, the plan twice, and a directory, which cannot be read. -/
def watchedPaths : List Path := [⟨"/tester"⟩, ⟨"plan"⟩, ⟨"//tester"⟩, ⟨"."⟩, ⟨"plan"⟩]

theorem firsts_watchedPaths : firsts watchedPaths = [⟨"/tester"⟩, ⟨"plan"⟩, ⟨"."⟩] := by decide

theorem contents_watchedPaths :
    watchedPaths.map ((FileTree.system []).content? scriptTree) =
        [some "v1".toUTF8, none, some "v1".toUTF8, none, none] ∧
      watchedPaths.map ((FileTree.system []).content? planTree) =
        [some "v1".toUTF8, some "v2".toUTF8, some "v1".toUTF8, none, some "v2".toUTF8] := by
  decide +kernel

theorem noCollision_of_versions {before after : FileTree}
    (h : ∀ content, Involved (FileTree.system []) before after paths content →
      content = "v1".toUTF8 ∨ content = "v2".toUTF8) :
    Sha256.NoCollision (Involved (FileTree.system []) before after paths) := by
  have hdigests : Sha256.digest "v1".toUTF8 ≠ Sha256.digest "v2".toUTF8 := by decide +kernel
  intro a b ha hb hsame
  rcases h a ha with rfl | rfl <;> rcases h b hb with rfl | rfl
  · rfl
  · exact absurd hsame hdigests
  · exact absurd hsame.symm hdigests
  · rfl

theorem noCollision_watchedPaths :
    Sha256.NoCollision
      (Involved (FileTree.system []) scriptTree planTree (firsts watchedPaths)) := by
  refine noCollision_of_versions fun content h => ?_
  rw [involved_iff, firsts_watchedPaths] at h
  have hcontents := contents_watchedPaths
  simp only [watchedPaths, List.map_cons, List.map_nil, List.cons.injEq] at hcontents
  simpa [hcontents] using h

/-- A plan that is missing at first is noticed once it is there, in a list that has the script in two
spellings. -/
theorem changes_noticed_on_new_plan :
    Sha256.NoCollision
        (Involved (FileTree.system []) scriptTree planTree (firsts watchedPaths)) ∧
      ReadAlike (FileTree.system []) scriptTree planTree watchedPaths ∧
      let watch := ((capture watchedPaths).perform (FileTree.answer []) scriptTree).1
      watch.paths = [⟨"/tester"⟩, ⟨"plan"⟩, ⟨"."⟩] ∧
        (watch.changed.perform (FileTree.answer []) planTree).1 = some ⟨"plan"⟩ ∧
        (watch.reloadWanted.perform (FileTree.answer []) planTree).1 = true := by
  have halike : ReadAlike (FileTree.system []) scriptTree planTree watchedPaths :=
    readAlike_of_alike (by decide)
  obtain ⟨hpaths, -, -, hreload, -, hwhole⟩ := changes_noticed (FileTree.system []) scriptTree
    planTree watchedPaths noCollision_watchedPaths
  have hplan : watchedPaths.find? (fun path =>
      (FileTree.system []).content? planTree path ≠ (FileTree.system []).content? scriptTree path) =
        some ⟨"plan"⟩ := by
    have hcontents := contents_watchedPaths
    simp only [watchedPaths, List.map_cons, List.map_nil, List.cons.injEq] at hcontents
    simp [watchedPaths, hcontents]
  have hchanged := (hwhole halike).1.trans hplan
  exact ⟨noCollision_watchedPaths, halike, hpaths.trans firsts_watchedPaths, hchanged,
    hreload.trans (by rw [hchanged]; rfl)⟩

/-! ## A change that is passed over -/

def rewrittenTree : FileTree where
  entries := [([.named "tester"], .file 0 "v2".toUTF8 FileTree.plainMode)]
  nextId := 1

/-- The script as if it were a directory, and as the file that it is. -/
def slashedPaths : List Path := [⟨"tester/"⟩, ⟨"tester"⟩]

theorem contents_slashedPaths :
    slashedPaths.map ((FileTree.system []).content? scriptTree) = [none, some "v1".toUTF8] ∧
      slashedPaths.map ((FileTree.system []).content? rewrittenTree) =
        [none, some "v2".toUTF8] := by
  decide +kernel

/-- Beside a spelling with a slash at its end, which is kept and is never read, a script that is
written anew is not noticed. -/
theorem change_missed_beside_slash :
    Sha256.NoCollision (Involved (FileTree.system []) scriptTree rewrittenTree slashedPaths) ∧
      let watch := ((capture slashedPaths).perform (FileTree.answer []) scriptTree).1
      let found := (watch.changed.perform (FileTree.answer []) rewrittenTree).1
      watch.paths = [⟨"tester/"⟩] ∧ found = none ∧
        (watch.reloadWanted.perform (FileTree.answer []) rewrittenTree).1 = false ∧
        ¬∀ path ∈ slashedPaths, (FileTree.system []).content? rewrittenTree path =
          (FileTree.system []).content? scriptTree path := by
  have hcontents := contents_slashedPaths
  simp only [slashedPaths, List.map_cons, List.map_nil, List.cons.injEq] at hcontents
  refine ⟨noCollision_of_versions fun content h => ?_, by decide +kernel, by decide +kernel,
    by decide +kernel, fun hall => ?_⟩
  · rw [involved_iff] at h
    simpa [slashedPaths, hcontents] using h
  · have hscript := hall ⟨"tester"⟩ (by decide)
    rw [hcontents.1.2.1, hcontents.2.2.1] at hscript
    exact absurd hscript (by decide +kernel)

end SourceWatch

end Handoff
