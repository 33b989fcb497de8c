import Mathlib.Algebra.GroupWithZero.Nat
import Handoff.Path
/-!
# How paths are spelled

A path is determined by its pieces.  Names that are joined to a path become its last pieces,
and the parent of a path has its first ones.
-/

namespace Handoff

namespace BlobKey

theorem intercalate_segmentsOf (text : String) : "/".intercalate (segmentsOf text) = text := by
  rw [← String.toList_inj, String.toList_intercalate, segmentsOf, List.map_map]
  have hid : String.toList ∘ String.ofList = id := funext fun _ => String.toList_ofList
  rw [hid, List.map_id]
  exact List.intercalate_splitOn '/'

theorem segmentsOf_injective {a b : String} (h : segmentsOf a = segmentsOf b) : a = b := by
  rw [← intercalate_segmentsOf a, h, intercalate_segmentsOf]

theorem segmentsOf_ne_nil (text : String) : segmentsOf text ≠ [] := by
  simp [segmentsOf]

theorem segmentsOf_intercalate {pieces : List String} (hpieces : pieces ≠ [])
    (hslash : ∀ piece ∈ pieces, '/' ∉ piece.toList) :
    segmentsOf ("/".intercalate pieces) = pieces := by
  have hsplit : (['/'].intercalate (pieces.map String.toList)).splitOn '/' =
      pieces.map String.toList :=
    List.splitOn_intercalate '/' (by simpa using hslash) (by simpa using hpieces)
  rw [segmentsOf, String.toList_intercalate]
  change ((['/'].intercalate (pieces.map String.toList)).splitOn '/').map String.ofList = pieces
  rw [hsplit, List.map_map]
  exact (List.map_congr_left fun piece _ => String.ofList_toList).trans (List.map_id _)

theorem segmentsOf_append_slash (before after : String) :
    segmentsOf (before ++ "/" ++ after) = segmentsOf before ++ segmentsOf after := by
  rw [segmentsOf, String.toList_append, String.toList_append, List.append_assoc]
  exact (congrArg (List.map String.ofList) (List.splitOn_append_cons_self _ _)).trans
    List.map_append

theorem segmentsOf_of_slash_notMem {text : String} (h : '/' ∉ text.toList) :
    segmentsOf text = [text] := by
  rw [segmentsOf, List.splitOn_eq_singleton h, List.map_singleton, String.ofList_toList]

theorem notMem_of_mem_splitOn {α : Type} [DecidableEq α] {x : α} {l : List α} :
    ∀ part ∈ l.splitOn x, x ∉ part := by
  induction l with
  | nil => simp
  | cons y rest ih =>
      rw [List.splitOn_cons_eq_if_modifyHead]
      split
      · simpa using ih
      · next hy =>
        obtain ⟨first, more, hrest⟩ := List.exists_cons_of_ne_nil (List.splitOn_ne_nil x rest)
        rw [hrest] at ih ⊢
        rw [List.forall_mem_cons] at ih
        rw [List.modifyHead_cons, List.forall_mem_cons, List.mem_cons, not_or]
        exact ⟨⟨fun heq => hy (by simp [heq]), ih.1⟩, ih.2⟩

theorem slash_notMem_of_mem_segmentsOf {text piece : String} (h : piece ∈ segmentsOf text) :
    '/' ∉ piece.toList := by
  obtain ⟨part, hpart, rfl⟩ := List.mem_map.1 h
  rw [String.toList_ofList]
  exact notMem_of_mem_splitOn part hpart

theorem nul_notMem_iff {text : String} :
    '\x00' ∉ text.toList ↔ ∀ piece ∈ segmentsOf text, '\x00' ∉ piece.toList := by
  have join (pieces : List String) : '\x00' ∉ ("/".intercalate pieces).toList ↔
      ∀ piece ∈ pieces, '\x00' ∉ piece.toList := by
    induction pieces with
    | nil => simp
    | cons piece rest ih =>
        by_cases hrest : rest = []
        · simp [hrest]
        · rw [String.intercalate_cons_of_ne_nil hrest, List.forall_mem_cons, ← ih]
          simp
  rw [← join, intercalate_segmentsOf]

theorem ne_slash_of_notMem {text : String} (h : '/' ∉ text.toList) :
    text.toList.head? ≠ some '/' ∧ text.toList.getLast? ≠ some '/' :=
  ⟨fun hhead => h (List.mem_of_head? hhead), fun hlast => h (List.mem_of_getLast? hlast)⟩

theorem head?_segmentsOf {text : String} (h : text ≠ "") :
    (segmentsOf text).head? = some "" ↔ text.toList.head? = some '/' := by
  have htext := intercalate_segmentsOf text
  have hslash : ∀ piece ∈ segmentsOf text, '/' ∉ piece.toList := fun _ =>
    slash_notMem_of_mem_segmentsOf
  obtain ⟨first, rest, hpieces⟩ := List.exists_cons_of_ne_nil (segmentsOf_ne_nil text)
  rw [hpieces] at htext hslash ⊢
  have hfirst := (ne_slash_of_notMem (hslash first List.mem_cons_self)).1
  by_cases hrest : rest = []
  · subst hrest
    rw [String.intercalate_singleton] at htext
    subst htext
    exact iff_of_false (by simpa using h) hfirst
  · rw [String.intercalate_cons_of_ne_nil hrest] at htext
    subst htext
    by_cases hempty : first = ""
    · simp [hempty]
    · have hlist : first.toList ≠ [] := by simpa using hempty
      obtain ⟨c, cs, hcs⟩ := List.exists_cons_of_ne_nil hlist
      rw [hcs] at hfirst
      simpa [hempty, hcs] using hfirst

theorem getLast?_segmentsOf {text : String} (h : text ≠ "") :
    (segmentsOf text).getLast? = some "" ↔ text.toList.getLast? = some '/' := by
  have htext := intercalate_segmentsOf text
  have hslash : ∀ piece ∈ segmentsOf text, '/' ∉ piece.toList := fun _ =>
    slash_notMem_of_mem_segmentsOf
  obtain ⟨before, last, hpieces⟩ := List.eq_nil_or_concat (segmentsOf text) |>.resolve_left
    (segmentsOf_ne_nil text)
  rw [List.concat_eq_append] at hpieces
  rw [hpieces] at htext hslash ⊢
  have hlast := (ne_slash_of_notMem (hslash last (by simp))).2
  by_cases hbefore : before = []
  · subst hbefore
    rw [List.nil_append, String.intercalate_singleton] at htext
    subst htext
    exact iff_of_false (by simpa using h) hlast
  · rw [String.intercalate_append_of_ne_nil hbefore (by simp), String.intercalate_singleton]
      at htext
    subst htext
    by_cases hempty : last = ""
    · simp [hempty]
    · have hlist : last.toList ≠ [] := by simpa using hempty
      have hends : ("/".intercalate before ++ "/" ++ last).toList.getLast? =
          last.toList.getLast? := by
        rw [String.toList_append, List.getLast?_append, List.getLast?_eq_some_getLast hlist]
        rfl
      rw [hends]
      exact iff_of_false (by simpa using hempty) hlast

end BlobKey

namespace Path

/-- A name that is one piece of a path, and is no dots. -/
structure IsPlain (name : String) : Prop where
  not_idle : isIdle name = false
  not_up : name ≠ ".."
  slash : '/' ∉ name.toList
  nul : '\x00' ∉ name.toList

theorem IsPlain.ne_empty {name : String} (h : IsPlain name) : name ≠ "" := by
  rintro rfl
  exact absurd h.not_idle (by decide)

/-- The pieces without the empty one after a slash at the end. -/
def stem (path : Path) : List String :=
  if path.text.toList.getLast? = some '/' then path.pieces.dropLast else path.pieces

variable {path : Path} {name : String} {names : List String}

theorem exists_of_getLast?_slash (h : path.text.toList.getLast? = some '/') :
    ∃ before, path.text = before ++ "/" ∧ path.pieces = BlobKey.segmentsOf before ++ [""] := by
  obtain ⟨chars, hchars⟩ := List.getLast?_eq_some_iff.1 h
  have htext : path.text = String.ofList chars ++ "/" :=
    String.toList_injective (by simpa using hchars)
  refine ⟨String.ofList chars, htext, ?_⟩
  rw [pieces, htext]
  simpa [BlobKey.segmentsOf] using BlobKey.segmentsOf_append_slash (String.ofList chars) ""

theorem pieces_eq_stem (path : Path) :
    path.pieces = path.stem ∨ path.pieces = path.stem ++ [""] := by
  rw [stem]
  split
  · next hslash =>
    obtain ⟨before, -, hpieces⟩ := exists_of_getLast?_slash hslash
    exact .inr (by rw [hpieces, List.dropLast_concat])
  · exact .inl rfl

theorem stem_ne_nil (path : Path) : path.stem ≠ [] := by
  rw [stem]
  split
  · next hslash =>
    obtain ⟨before, -, hpieces⟩ := exists_of_getLast?_slash hslash
    rw [hpieces, List.dropLast_concat]
    exact BlobKey.segmentsOf_ne_nil before
  · exact BlobKey.segmentsOf_ne_nil path.text

theorem text_ne_empty_join (hname : IsPlain name) : (path.join name).text ≠ "" := by
  rw [join]
  split
  · exact hname.ne_empty
  · split <;> simp [hname.ne_empty]

theorem pieces_join (hpath : path.text ≠ "") (hname : IsPlain name) :
    (path.join name).pieces = path.stem ++ [name] := by
  have habsolute : (Path.mk name).isAbsolute = false := by
    simpa [isAbsolute] using (BlobKey.ne_slash_of_notMem hname.slash).1
  have hnamed := BlobKey.segmentsOf_of_slash_notMem hname.slash
  rw [join, habsolute, Bool.false_or, if_neg (by simpa using hpath), stem]
  split
  · next hlast =>
    have hslash : path.text.toList.getLast? = some '/' := by simpa using hlast
    obtain ⟨before, hbefore, hpieces⟩ := exists_of_getLast?_slash hslash
    rw [if_pos hslash, hpieces, List.dropLast_concat, pieces, hbefore,
      BlobKey.segmentsOf_append_slash, hnamed]
  · next hlast =>
    rw [if_neg (by simpa using hlast), pieces, BlobKey.segmentsOf_append_slash, hnamed]
    rfl

theorem stem_join (hpath : path.text ≠ "") (hname : IsPlain name) :
    (path.join name).stem = path.stem ++ [name] := by
  have hlast : (path.join name).text.toList.getLast? ≠ some '/' := by
    rw [Ne, ← BlobKey.getLast?_segmentsOf (text_ne_empty_join hname), ← pieces,
      pieces_join hpath hname]
    simpa using hname.ne_empty
  rw [stem, if_neg hlast, pieces_join hpath hname]

def joins (path : Path) (names : List String) : Path :=
  names.foldl join path

theorem joins_append (path : Path) (names more : List String) :
    path.joins (names ++ more) = (path.joins names).joins more :=
  List.foldl_append

theorem joins_concat (path : Path) (names : List String) (name : String) :
    path.joins (names ++ [name]) = (path.joins names).join name :=
  joins_append path names [name]

theorem text_ne_empty_joins (hpath : path.text ≠ "") (hnames : ∀ name ∈ names, IsPlain name) :
    (path.joins names).text ≠ "" := by
  induction names generalizing path with
  | nil => exact hpath
  | cons name rest ih =>
      obtain ⟨hname, hrest⟩ := List.forall_mem_cons.1 hnames
      exact ih (text_ne_empty_join hname) hrest

theorem pieces_joins (hpath : path.text ≠ "") (hnames : ∀ name ∈ names, IsPlain name)
    (hsome : names ≠ []) : (path.joins names).pieces = path.stem ++ names := by
  induction names generalizing path with
  | nil => exact absurd rfl hsome
  | cons name rest ih =>
      obtain ⟨hname, hrest⟩ := List.forall_mem_cons.1 hnames
      by_cases hlast : rest = []
      · subst hlast
        exact pieces_join hpath hname
      · have hjoined : (path.join name).text ≠ "" := text_ne_empty_join hname
        have hmore := ih hjoined hrest hlast
        rw [stem_join hpath hname, List.append_assoc] at hmore
        exact hmore

/-! ## Parents -/

theorem trimIdle_concat_of_not_idle (pieces : List String) {piece : String}
    (h : isIdle piece = false) : trimIdle (pieces ++ [piece]) = pieces ++ [piece] := by
  simp [trimIdle, h]

theorem trimIdle_concat_of_idle (pieces : List String) {piece : String}
    (h : isIdle piece = true) : trimIdle (pieces ++ [piece]) = trimIdle pieces := by
  simp [trimIdle, h]

theorem exists_trimIdle (pieces : List String) :
    ∃ idle, pieces = trimIdle pieces ++ idle ∧ ∀ piece ∈ idle, isIdle piece = true := by
  refine ⟨(pieces.reverse.takeWhile isIdle).reverse, ?_, fun piece hpiece => ?_⟩
  · rw [trimIdle, ← List.reverse_append, List.takeWhile_append_dropWhile, List.reverse_reverse]
  · exact List.all_eq_true.1 List.all_takeWhile piece (List.mem_reverse.1 hpiece)

def cut (first : String) (kept : List String) : Path :=
  if first = "" ∧ kept = [] then ⟨"/"⟩ else ⟨"/".intercalate (first :: kept)⟩

def trunk (path : Path) : Path :=
  match path.pieces with
  | [] => path
  | first :: rest => cut first (trimIdle rest)

/-- The path that names below are joined to when their parent is. -/
def seat (path : Path) (names : List String) : Path :=
  if names = [] then path.trunk else path

theorem parent?_of_pieces {first last : String} {rest : List String} (hpath : path.text ≠ "")
    (hpieces : path.pieces = first :: (rest ++ [last])) (hlast : isIdle last = false) :
    path.parent? = some (cut first (trimIdle rest)) := by
  rw [parent?, if_neg hpath, hpieces]
  simp only [trimIdle_concat_of_not_idle rest hlast, List.reverse_append, List.reverse_singleton,
    List.singleton_append, List.reverse_reverse, cut]
  split <;> rfl

/-- The parent of a path, unless it is empty, has some of its first pieces, with no idle one at
the end. -/
theorem exists_of_parent? {above : Path} (h : path.parent? = some above)
    (habove : above.text ≠ "") : ∃ first kept more,
      above = cut first (trimIdle kept) ∧ path.pieces = first :: (trimIdle kept ++ more) := by
  rw [parent?] at h
  split at h
  · cases h
  split at h
  · cases h
  next first rest hpieces =>
  obtain ⟨idle, hrest, -⟩ := exists_trimIdle rest
  split at h
  · next htrim =>
    split at h
    · cases h
    · cases h
      exact absurd rfl habove
  · next last before htrim =>
    obtain ⟨inner, hbefore, -⟩ := exists_trimIdle before.reverse
    have hkept : trimIdle rest = before.reverse ++ [last] := by
      rw [← List.reverse_reverse (trimIdle rest), htrim, List.reverse_cons]
    refine ⟨first, before.reverse, inner ++ [last] ++ idle, ?_, ?_⟩
    · exact Option.some.inj (h.symm.trans (apply_ite some _ _ _).symm)
    · rw [hpieces, ← List.append_assoc, ← List.append_assoc, ← hbefore, ← hkept, ← hrest]

/-- The parent of joined names has all of them but the last. -/
theorem parent?_joins (hpath : path.text ≠ "") (hnames : ∀ name ∈ names, IsPlain name)
    (hname : IsPlain name) :
    (path.joins (names ++ [name])).parent? = some ((path.seat names).joins names) := by
  have hall : ∀ other ∈ names ++ [name], IsPlain other :=
    List.forall_mem_append.2 ⟨hnames, List.forall_mem_singleton.2 hname⟩
  have hpieces := pieces_joins hpath hall (by simp)
  obtain ⟨first, rest, hstem⟩ := List.exists_cons_of_ne_nil path.stem_ne_nil
  rw [hstem, List.cons_append, ← List.append_assoc] at hpieces
  rw [parent?_of_pieces (text_ne_empty_joins hpath hall) hpieces hname.not_idle, seat]
  refine congrArg some ?_
  by_cases hnone : names = []
  · subst hnone
    have htrim : ∃ more, path.pieces = first :: more ∧ trimIdle more = trimIdle rest := by
      rcases path.pieces_eq_stem with h | h
      · exact ⟨rest, h.trans hstem, rfl⟩
      · exact ⟨rest ++ [""], by rw [h, hstem, List.cons_append],
          trimIdle_concat_of_idle rest (by decide)⟩
    obtain ⟨more, hmore, htrimmed⟩ := htrim
    rw [if_pos rfl, List.append_nil, trunk, hmore]
    change cut first (trimIdle rest) = cut first (trimIdle more)
    rw [htrimmed]
  · rw [if_neg hnone]
    obtain ⟨before, last, rfl⟩ : ∃ before last, names = before ++ [last] :=
      ⟨_, _, (List.dropLast_concat_getLast hnone).symm⟩
    have hlast : IsPlain last := hnames last (by simp)
    have hjoined := pieces_joins hpath hnames hnone
    rw [← List.append_assoc, trimIdle_concat_of_not_idle _ hlast.not_idle, cut, if_neg (by simp)]
    rw [hstem] at hjoined
    rw [List.append_assoc, ← List.cons_append, ← hjoined]
    exact congrArg Path.mk (BlobKey.intercalate_segmentsOf _)

theorem pieces_cut {first : String} {kept more : List String}
    (hpieces : path.pieces = first :: (kept ++ more)) (htop : ¬ (first = "" ∧ kept = [])) :
    (cut first kept).pieces = first :: kept := by
  rw [cut, if_neg htop]
  refine BlobKey.segmentsOf_intercalate (by simp) fun piece hpiece => ?_
  have hmem : piece ∈ path.pieces := by
    rw [hpieces]
    exact List.mem_append_left more hpiece
  exact BlobKey.slash_notMem_of_mem_segmentsOf hmem

theorem text_ne_empty_cut {first : String} {kept more : List String}
    (hpieces : path.pieces = first :: (kept ++ more)) : (cut first kept).text ≠ "" := by
  by_cases htop : first = "" ∧ kept = []
  · rw [cut, if_pos htop]
    decide
  · intro hnone
    have hspelled := pieces_cut hpieces htop
    rw [pieces, hnone] at hspelled
    exact htop (by simpa [BlobKey.segmentsOf] using hspelled.symm)

theorem not_idle_of_getLast?_trimIdle {pieces : List String} {last : String}
    (h : (trimIdle pieces).getLast? = some last) : isIdle last = false := by
  rw [trimIdle, List.getLast?_reverse] at h
  have := List.head?_dropWhile_not isIdle pieces.reverse
  rw [h] at this
  exact this

theorem getLast?_cut {first : String} {kept more : List String}
    (hpieces : path.pieces = first :: (trimIdle kept ++ more)) :
    (cut first (trimIdle kept)).text = "/" ∨
      (cut first (trimIdle kept)).text.toList.getLast? ≠ some '/' := by
  by_cases htop : first = "" ∧ trimIdle kept = []
  · exact .inl (by rw [cut, if_pos htop])
  · refine .inr ?_
    rw [Ne, ← BlobKey.getLast?_segmentsOf (text_ne_empty_cut hpieces), ← pieces,
      pieces_cut hpieces htop]
    intro hlast
    by_cases hnone : trimIdle kept = []
    · rw [hnone, List.getLast?_singleton] at hlast
      exact htop ⟨Option.some.inj hlast, hnone⟩
    · rw [List.getLast?_cons_of_ne_nil hnone] at hlast
      exact absurd (not_idle_of_getLast?_trimIdle hlast) (by decide)

theorem getLast?_trunk (path : Path) :
    path.trunk.text = "/" ∨ path.trunk.text.toList.getLast? ≠ some '/' := by
  obtain ⟨first, rest, hpieces⟩ := List.exists_cons_of_ne_nil
    (BlobKey.segmentsOf_ne_nil path.text)
  obtain ⟨idle, hrest, -⟩ := exists_trimIdle rest
  have htrunk : path.trunk = cut first (trimIdle rest) := by rw [trunk, pieces, hpieces]
  have hsplit : path.pieces = first :: (trimIdle rest ++ idle) := by rw [pieces, hpieces, ← hrest]
  rw [htrunk]
  exact getLast?_cut hsplit

theorem getLast?_of_parent? {above : Path} (h : path.parent? = some above)
    (habove : above.text ≠ "") :
    above.text = "/" ∨ above.text.toList.getLast? ≠ some '/' := by
  obtain ⟨first, kept, more, rfl, hpieces⟩ := exists_of_parent? h habove
  exact getLast?_cut hpieces

/-! ## Lengths -/

theorem size_join_le (path : Path) (name : String) :
    (path.join name).text.utf8ByteSize ≤ path.text.utf8ByteSize + 1 + name.utf8ByteSize := by
  have hslash : "/".utf8ByteSize = 1 := by decide
  rw [join]
  split
  · simp only
    omega
  · split <;> simp only [String.utf8ByteSize_append] <;> omega

def sizeOf (names : List String) : Nat :=
  (names.map fun name => name.utf8ByteSize + 1).sum

theorem size_joins_le (path : Path) (names : List String) :
    (path.joins names).text.utf8ByteSize ≤ path.text.utf8ByteSize + sizeOf names := by
  induction names generalizing path with
  | nil => exact Nat.le_refl _
  | cons name rest ih =>
      have hfirst := size_join_le path name
      have hrest := ih (path.join name)
      simp only [sizeOf, List.map_cons, List.sum_cons] at hrest ⊢
      rw [joins, List.foldl_cons, ← joins]
      omega

theorem sizeOf_append (names more : List String) :
    sizeOf (names ++ more) = sizeOf names + sizeOf more := by
  simp [sizeOf]

theorem length_le_sizeOf (names : List String) : names.length ≤ sizeOf names := by
  induction names with
  | nil => exact Nat.le_refl _
  | cons name rest ih =>
      simp only [sizeOf, List.map_cons, List.sum_cons, List.length_cons] at ih ⊢
      omega

theorem size_intercalate (hsome : names ≠ []) :
    ("/".intercalate names).utf8ByteSize + 1 = sizeOf names := by
  induction names with
  | nil => exact absurd rfl hsome
  | cons name rest ih =>
      by_cases hlast : rest = []
      · subst hlast
        simp [sizeOf]
      · have hslash : "/".utf8ByteSize = 1 := by decide
        have hrest := ih hlast
        rw [String.intercalate_cons_of_ne_nil hlast]
        simp only [String.utf8ByteSize_append, sizeOf, List.map_cons, List.sum_cons] at hrest ⊢
        omega

theorem sizeOf_pieces (path : Path) : sizeOf path.pieces = path.text.utf8ByteSize + 1 := by
  rw [pieces, ← size_intercalate (BlobKey.segmentsOf_ne_nil _), BlobKey.intercalate_segmentsOf]

theorem size_cut_le {first : String} {kept more : List String} (hpath : path.text ≠ "")
    (hpieces : path.pieces = first :: (kept ++ more)) :
    (cut first kept).text.utf8ByteSize ≤ path.text.utf8ByteSize := by
  have htext := path.sizeOf_pieces
  rw [hpieces] at htext
  have hsplit : sizeOf (first :: (kept ++ more)) = sizeOf (first :: kept) + sizeOf more :=
    sizeOf_append (first :: kept) more
  rw [cut]
  split
  · have hempty : path.text.utf8ByteSize ≠ 0 := by simpa using hpath
    have hslash : "/".utf8ByteSize = 1 := by decide
    change "/".utf8ByteSize ≤ _
    omega
  · have hkept := size_intercalate (List.cons_ne_nil first kept)
    change ("/".intercalate (first :: kept)).utf8ByteSize ≤ _
    omega

theorem size_seat_le (hpath : path.text ≠ "") (names : List String) :
    (path.seat names).text.utf8ByteSize ≤ path.text.utf8ByteSize := by
  rw [seat]
  split
  · obtain ⟨first, rest, hpieces⟩ := List.exists_cons_of_ne_nil
      (BlobKey.segmentsOf_ne_nil path.text)
    obtain ⟨idle, hrest, -⟩ := exists_trimIdle rest
    rw [trunk, pieces, hpieces]
    exact size_cut_le hpath (by rw [pieces, hpieces, ← hrest])
  · exact Nat.le_refl _

end Path

end Handoff
