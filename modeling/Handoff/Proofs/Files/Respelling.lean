import Handoff.Proofs.Files.Reach
/-!
# Other spellings of a path

Two paths with the same parts differ in idle pieces only.  Those on the way make no difference to
what is read at a path, while one at the end does: before a slash or a dot only a directory is
found.
-/

namespace Handoff

namespace Path

variable {a b path : Path} {piece : String} {pieces rest : List String}

theorem same_iff : a.same b = true ↔ a.parts = b.parts :=
  beq_iff_eq

theorem same_comm (a b : Path) : a.same b = b.same a :=
  Bool.eq_iff_iff.2 (by rw [same_iff, same_iff, eq_comm])

theorem same_congr (h : a.same b = true) (path : Path) : a.same path = b.same path := by
  rw [same, same, same_iff.1 h]

/-! ## Tidy pieces -/

/-- Whether the last piece is idle, as it is after a slash at the end. -/
def endsIdle (pieces : List String) : Bool :=
  pieces.getLast?.any isIdle

/-- The pieces that are not idle, and an empty one behind them where the last piece is idle. -/
def tidy (pieces : List String) : List String :=
  pieces.filter (!isIdle ·) ++ if endsIdle pieces then [""] else []

theorem endsIdle_cons (piece : String) (hrest : rest ≠ []) :
    endsIdle (piece :: rest) = endsIdle rest := by
  obtain ⟨next, more, rfl⟩ := List.exists_cons_of_ne_nil hrest
  rw [endsIdle, endsIdle, List.getLast?_cons_cons]

theorem tidy_cons_of_not_idle (h : isIdle piece = false) (rest : List String) :
    tidy (piece :: rest) = piece :: tidy rest := by
  have hends : endsIdle (piece :: rest) = endsIdle rest := by
    by_cases hrest : rest = []
    · subst hrest
      exact h
    · exact endsIdle_cons piece hrest
  rw [tidy, tidy, hends, List.filter_cons_of_pos (by simp [h]), List.cons_append]

theorem tidy_cons_of_idle (h : isIdle piece = true) (hrest : rest ≠ []) :
    tidy (piece :: rest) = tidy rest := by
  rw [tidy, tidy, endsIdle_cons piece hrest, List.filter_cons_of_neg (by simp [h])]

theorem tidy_singleton_of_idle (h : isIdle piece = true) : tidy [piece] = [""] := by
  simp [tidy, endsIdle, h]

theorem tidy_ne_nil (hpieces : pieces ≠ []) : tidy pieces ≠ [] := by
  induction pieces with
  | nil => exact absurd rfl hpieces
  | cons piece rest ih =>
      cases hidle : isIdle piece with
      | false => simp [tidy_cons_of_not_idle hidle]
      | true =>
          by_cases hrest : rest = []
          · simp [hrest, tidy_singleton_of_idle hidle]
          · rw [tidy_cons_of_idle hidle hrest]
            exact ih hrest

theorem isEmpty_tidy (pieces : List String) : (tidy pieces).isEmpty = pieces.isEmpty := by
  by_cases hpieces : pieces = []
  · rw [hpieces]
    rfl
  · rw [List.isEmpty_eq_false_iff.2 hpieces, List.isEmpty_eq_false_iff.2 (tidy_ne_nil hpieces)]

theorem tidy_tidy (pieces : List String) : tidy (tidy pieces) = tidy pieces := by
  induction pieces with
  | nil => rfl
  | cons piece rest ih =>
      cases hidle : isIdle piece with
      | false => rw [tidy_cons_of_not_idle hidle, tidy_cons_of_not_idle hidle, ih]
      | true =>
          by_cases hrest : rest = []
          · rw [hrest, tidy_singleton_of_idle hidle]
            decide
          · rw [tidy_cons_of_idle hidle hrest, ih]

/-- Pieces can be tidied before others are put in front of them. -/
theorem tidy_append_tidy (before pieces : List String) :
    tidy (before ++ tidy pieces) = tidy (before ++ pieces) := by
  by_cases hpieces : pieces = []
  · rw [hpieces]
    rfl
  induction before with
  | nil => exact tidy_tidy pieces
  | cons piece before ih =>
      rw [List.cons_append, List.cons_append]
      cases hidle : isIdle piece with
      | false => rw [tidy_cons_of_not_idle hidle, tidy_cons_of_not_idle hidle, ih]
      | true =>
          have hsome : before ++ pieces ≠ [] := List.append_ne_nil_of_right_ne_nil _ hpieces
          have htidy : before ++ tidy pieces ≠ [] :=
            List.append_ne_nil_of_right_ne_nil _ (tidy_ne_nil hpieces)
          rw [tidy_cons_of_idle hidle htidy, tidy_cons_of_idle hidle hsome, ih]

theorem filter_eq_of_filterMap_eq {more : List String}
    (h : pieces.filterMap partOf = more.filterMap partOf) :
    pieces.filter (!isIdle ·) = more.filter (!isIdle ·) := by
  let stands (piece : String) : PathPart := if piece = ".." then .parent else .name piece
  have hparts (pieces : List String) :
      pieces.filterMap partOf = (pieces.filter (!isIdle ·)).map stands := by
    induction pieces with
    | nil => rfl
    | cons piece rest ih =>
        cases hidle : isIdle piece <;> simp [partOf, hidle, ih, stands, ← apply_ite some]
  have hinjective : ∀ x y, stands x = stands y → x = y := by
    intro x y hxy
    by_cases hx : x = ".." <;> by_cases hy : y = ".." <;> simp_all [stands]
  rw [hparts, hparts] at h
  exact (List.map_inj_right hinjective).1 h

theorem ne_of_mem_filterMap {part : PathPart} (h : part ∈ pieces.filterMap partOf) :
    part ≠ .root ∧ part ≠ .current := by
  obtain ⟨piece, -, hpart⟩ := List.mem_filterMap.1 h
  rw [partOf] at hpart
  split_ifs at hpart <;> simp [← Option.some.inj hpart]

theorem isAbsolute_iff_mem_parts : path.isAbsolute = true ↔ .root ∈ path.parts := by
  rw [parts]
  split
  · next h => simp [h]
  · next h =>
    refine iff_of_false h fun hroot => ?_
    split at hroot
    · exact (ne_of_mem_filterMap (List.mem_of_ne_of_mem (by decide) hroot)).1 rfl
    · exact (ne_of_mem_filterMap hroot).1 rfl

theorem filterMap_pieces (path : Path) : path.pieces.filterMap partOf =
    path.parts.filter fun part => part ≠ .root ∧ part ≠ .current := by
  have hkept (pieces : List String) : pieces.filterMap partOf =
      (pieces.filterMap partOf).filter fun part => part ≠ .root ∧ part ≠ .current :=
    (List.filter_eq_self.2 fun part hpart => decide_eq_true (ne_of_mem_filterMap hpart)).symm
  rw [parts]
  split
  · exact hkept path.pieces
  · split
    · next rest hpieces =>
      rw [hpieces]
      exact hkept rest
    · exact hkept _

theorem nul_mem_iff : '\x00' ∈ path.text.toList ↔
    ∃ piece ∈ tidy path.pieces, '\x00' ∈ piece.toList := by
  have hidle (piece : String) (h : isIdle piece = true) : '\x00' ∉ piece.toList := by
    rcases Bool.or_eq_true_iff.1 h with h | h <;> rw [beq_iff_eq.1 h] <;> decide
  rw [← not_iff_not, BlobKey.nul_notMem_iff, ← pieces]
  simp only [not_exists, not_and, tidy, List.mem_append]
  constructor
  · rintro h piece (hpiece | hpiece)
    · exact h piece ((List.mem_filter.1 hpiece).1)
    · split at hpiece
      · rw [List.mem_singleton.1 hpiece]
        decide
      · cases hpiece
  · intro h piece hpiece
    cases hfound : isIdle piece with
    | true => exact hidle piece hfound
    | false => exact h piece (.inl (List.mem_filter.2 ⟨hpiece, by simp [hfound]⟩))

/-! ## Spellings that read alike -/

/-- The paths have the same parts and the same kind of end, and neither is too long alone. -/
def Alike (a b : Path) : Prop :=
  a.parts = b.parts ∧ endsIdle a.pieces = endsIdle b.pieces ∧
    (a.text.utf8ByteSize < FileTree.pathMax ↔ b.text.utf8ByteSize < FileTree.pathMax)

instance (a b : Path) : Decidable (a.Alike b) :=
  inferInstanceAs (Decidable (_ ∧ _))

theorem Alike.isAbsolute_eq (h : a.Alike b) : a.isAbsolute = b.isAbsolute := by
  rw [Bool.eq_iff_iff, isAbsolute_iff_mem_parts, isAbsolute_iff_mem_parts, h.1]

theorem Alike.tidy_eq (h : a.Alike b) : tidy a.pieces = tidy b.pieces := by
  have hparts : a.pieces.filterMap partOf = b.pieces.filterMap partOf := by
    rw [filterMap_pieces, filterMap_pieces, h.1]
  rw [tidy, tidy, filter_eq_of_filterMap_eq hparts, h.2.1]

end Path

namespace FileTree

variable {tree : FileTree} {cwd : Location} {a b : Path}

def shown : Except OsFault Target → Option ByteArray
  | .ok (.present _ .directory) => none
  | .ok (.present _ entry) => some (contentOf entry)
  | _ => none

theorem toOption_read (tree : FileTree) (cwd : Location) (path : String) :
    (tree.read cwd path).toOption = shown (tree.resolve true cwd path) := by
  rw [read]
  rcases tree.resolve true cwd path with fault | (⟨place, entry⟩ | _)
  · rfl
  · cases entry <;> rfl
  · rfl

theorem shown_follow_tidy (tree : FileTree) (links : Nat) (location : Location)
    (pieces : List String) :
    shown (tree.follow true links location (Path.tidy pieces)) =
      shown (tree.follow true links location pieces) := by
  -- At a link there are fewer links left, and everywhere else fewer pieces.
  induction links using Nat.strongRecOn generalizing location pieces with
  | ind links ihlinks =>
    induction pieces generalizing location with
    | nil => rfl
    | cons piece rest ih =>
        cases hidle : Path.isIdle piece with
        | true =>
            rw [follow_cons_of_isIdle true hidle]
            by_cases hrest : rest = []
            · rw [hrest, Path.tidy_singleton_of_idle hidle, follow_cons_of_isIdle true (by decide)]
            · rw [Path.tidy_cons_of_idle hidle hrest, ih]
        | false =>
            rw [Path.tidy_cons_of_not_idle hidle, follow_cons, follow_cons, hidle,
              Path.isEmpty_tidy]
            by_cases hup : piece = ".."
            · subst hup
              exact ih location.dropLast
            by_cases hlong : nameMax < piece.utf8ByteSize
            · simp [hup, hlong]
            simp only [Bool.false_eq_true, if_false, if_neg hup, if_neg hlong, Bool.not_true,
              Bool.and_false]
            split
            · split <;> split <;> rfl
            · exact ih _
            · next text _ =>
              cases links with
              | zero => rfl
              | succ links =>
                  dsimp only
                  split
                  · rfl
                  · rw [← ihlinks links (Nat.lt_succ_self _) _ (_ ++ rest), ← Path.tidy_append_tidy,
                      ihlinks links (Nat.lt_succ_self _)]
            · rfl

/-- What is read at a path depends on its start, its tidy pieces and its length. -/
theorem toOption_read_eq (tree : FileTree) (cwd : Location) (path : Path) :
    (tree.read cwd path.text).toOption =
      if (∃ piece ∈ Path.tidy path.pieces, '\x00' ∈ piece.toList) ∨
          ¬path.text.utf8ByteSize < pathMax then none
      else shown (tree.follow true linkMax (if path.isAbsolute then [] else cwd)
        (Path.tidy path.pieces)) := by
  rw [toOption_read, shown_follow_tidy]
  simp only [← Path.nul_mem_iff]
  by_cases hnul : '\x00' ∈ path.text.toList
  · rw [if_pos (.inl hnul), resolve, if_pos (by simpa using hnul)]
    rfl
  by_cases hempty : path.text = ""
  · obtain ⟨text⟩ := path
    subst hempty
    have hhere : tree.follow true linkMax cwd [""] = .ok (.present cwd .directory) := by
      rw [follow_cons_of_isIdle true (by decide), follow_nil]
    rw [if_neg (by decide)]
    change none = shown (tree.follow true linkMax cwd [""])
    rw [hhere]
    rfl
  by_cases hsize : path.text.utf8ByteSize < pathMax
  · rw [resolve_eq true cwd hnul hempty hsize, if_neg (by simp [hnul, hsize])]
    simp [start, Path.isAbsolute]
  · rw [if_pos (.inr hsize), resolve, if_neg (by simpa using hnul), if_neg hempty,
      if_pos (Nat.not_lt.1 hsize)]
    rfl

/-- Spellings of one path with the same kind of end read alike, in any tree. -/
theorem toOption_read_congr (tree : FileTree) (cwd : Location) (h : a.Alike b) :
    (tree.read cwd a.text).toOption = (tree.read cwd b.text).toOption := by
  simp only [toOption_read_eq, h.tidy_eq, h.isAbsolute_eq, h.2.2]

end FileTree

end Handoff
