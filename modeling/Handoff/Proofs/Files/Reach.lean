import Mathlib.Tactic.SplitIfs
import Handoff.Proofs.Files.Lookup
import Handoff.Proofs.Files.Spelling
/-!
# Paths below a directory

A path that leads to a directory can be spelled without what is idle at its end, the paths
above it lead to directories as well, and names that are joined to it are looked up from
that directory on.
-/

namespace Handoff

theorem Path.IsPlain.isName {name : String} (h : Path.IsPlain name)
    (hfits : name.utf8ByteSize ≤ FileTree.nameMax) : FileTree.IsName name :=
  ⟨h.not_idle, h.not_up, hfits⟩

namespace FileTree

variable {tree other : FileTree} {cwd location : Location} {path : Path}

def Reaches (tree : FileTree) (cwd : Location) (path : Path) (location : Location) : Prop :=
  tree.resolve true cwd path.text = .ok (.present location .directory)

theorem start_eq (cwd : Location) (h : path.text ≠ "") :
    start cwd path.text = if path.pieces.head? = some "" then [] else cwd := by
  simp only [start, Path.pieces, BlobKey.head?_segmentsOf h]

theorem resolve_eq (f : Bool) (cwd : Location) (hnul : '\x00' ∉ path.text.toList)
    (hempty : path.text ≠ "") (hsize : path.text.utf8ByteSize < pathMax) :
    tree.resolve f cwd path.text =
      tree.follow f linkMax (start cwd path.text) path.pieces := by
  rw [resolve, if_neg (by simpa using hnul), if_neg hempty, if_neg (Nat.not_le.2 hsize),
    Path.pieces]

theorem reaches_iff : tree.Reaches cwd path location ↔
    '\x00' ∉ path.text.toList ∧ path.text ≠ "" ∧ path.text.utf8ByteSize < pathMax ∧
      tree.Leads linkMax (start cwd path.text) path.pieces location := by
  constructor
  · intro h
    rw [Reaches, resolve] at h
    split_ifs at h with hnul hempty hsize
    exact ⟨by simpa using hnul, hempty, Nat.not_le.1 hsize, leads_of_follow h⟩
  · rintro ⟨hnul, hempty, hsize, hleads⟩
    rw [Reaches, resolve_eq true cwd hnul hempty hsize]
    exact hleads.follow_eq

/-- A path with the first pieces of one that leads to a directory does so, and to the same one
when the others are idle. -/
theorem Reaches.cut (h : tree.Reaches cwd path location) {first : String}
    {kept more : List String} (hpieces : path.pieces = first :: (kept ++ more)) :
    ∃ middle, tree.Reaches cwd (Path.cut first kept) middle ∧
      ((∀ piece ∈ more, Path.isIdle piece = true) → middle = location) := by
  obtain ⟨hnul, hempty, hsize, hleads⟩ := reaches_iff.1 h
  have hlength := Nat.lt_of_le_of_lt (Path.size_cut_le hempty hpieces) hsize
  rw [hpieces] at hleads
  by_cases htop : first = "" ∧ kept = []
  · obtain ⟨rfl, rfl⟩ := htop
    have hcut : Path.cut "" [] = ⟨"/"⟩ := if_pos ⟨rfl, rfl⟩
    have hstart : start cwd path.text = [] := by
      rw [start_eq cwd hempty, hpieces, List.head?_cons, if_pos rfl]
    refine ⟨[], ?_, fun hidle => ?_⟩
    · have hslash : (Path.mk "/").pieces = ["", ""] := by decide
      rw [reaches_iff, hcut, hslash, start_eq cwd (by decide), hslash, List.head?_cons,
        if_pos rfl]
      exact ⟨by decide, by decide, by decide, .idle (by decide) (.idle (by decide) .here)⟩
    · rw [hstart] at hleads
      exact hleads.eq_of_isIdle (List.forall_mem_cons.2 ⟨by decide, hidle⟩)
  · have hspelled := Path.pieces_cut hpieces htop
    have htext := Path.text_ne_empty_cut hpieces
    rw [← List.cons_append] at hleads
    obtain ⟨middle, hmiddle, hsame⟩ := hleads.of_append
    refine ⟨middle, reaches_iff.2 ⟨?_, htext, hlength, ?_⟩, hsame⟩
    · rw [BlobKey.nul_notMem_iff]
      intro piece hpiece
      rw [← Path.pieces, hspelled] at hpiece
      refine BlobKey.nul_notMem_iff.1 hnul piece ?_
      rw [← Path.pieces, hpieces]
      exact List.mem_append_left more hpiece
    · rw [start_eq cwd htext, hspelled]
      rw [start_eq cwd hempty, hpieces] at hmiddle
      exact hmiddle

theorem Reaches.trunk (h : tree.Reaches cwd path location) :
    tree.Reaches cwd path.trunk location := by
  obtain ⟨first, rest, hpieces⟩ := List.exists_cons_of_ne_nil
    (BlobKey.segmentsOf_ne_nil path.text)
  obtain ⟨idle, hrest, hidle⟩ := Path.exists_trimIdle rest
  have hsplit : path.pieces = first :: (Path.trimIdle rest ++ idle) := by
    rw [Path.pieces, hpieces, ← hrest]
  obtain ⟨middle, hmiddle, hsame⟩ := h.cut hsplit
  rw [Path.trunk, Path.pieces, hpieces, ← hsame hidle]
  exact hmiddle

theorem Reaches.seat (h : tree.Reaches cwd path location) (names : List String) :
    tree.Reaches cwd (path.seat names) location := by
  rw [Path.seat]
  split
  · exact h.trunk
  · exact h

theorem Reaches.parent (h : tree.Reaches cwd path location) {above : Path}
    (habove : path.parent? = some above) (hempty : above.text ≠ "") :
    ∃ middle, tree.Reaches cwd above middle := by
  obtain ⟨first, kept, more, rfl, hpieces⟩ := Path.exists_of_parent? habove hempty
  obtain ⟨middle, hmiddle, -⟩ := h.cut hpieces
  exact ⟨middle, hmiddle⟩

theorem Reaches.mono (h : tree.Reaches cwd path location) (hkept : tree.Keeps other) :
    other.Reaches cwd path location := by
  obtain ⟨hnul, hempty, hsize, hleads⟩ := reaches_iff.1 h
  exact reaches_iff.2 ⟨hnul, hempty, hsize, hleads.mono hkept⟩

/-- Names that are joined to a path are looked up from its directory on. -/
theorem Reaches.resolve_joins (h : tree.Reaches cwd path location) :
    ∃ left, ∀ (f : Bool) (names : List String), names ≠ [] →
      (∀ name ∈ names, Path.IsPlain name) →
      (path.joins names).text.utf8ByteSize < pathMax →
      tree.resolve f cwd (path.joins names).text = tree.follow f left location names := by
  obtain ⟨hnul, hempty, -, hleads⟩ := reaches_iff.1 h
  have hstem : tree.Leads linkMax (start cwd path.text) path.stem location := by
    rcases path.pieces_eq_stem with hpieces | hpieces
    · rwa [hpieces] at hleads
    · rw [hpieces] at hleads
      obtain ⟨middle, hmiddle, hsame⟩ := hleads.of_append
      rwa [hsame (by simpa using (by decide : Path.isIdle "" = true))] at hmiddle
  obtain ⟨left, hleft⟩ := hstem.follow_append
  refine ⟨left, fun f names hsome hnames hsize => ?_⟩
  have hpieces := Path.pieces_joins hempty hnames hsome
  have hfilled := Path.text_ne_empty_joins hempty hnames
  have hhead : (path.joins names).pieces.head? = path.pieces.head? := by
    obtain ⟨first, rest, hcons⟩ := List.exists_cons_of_ne_nil path.stem_ne_nil
    rw [hpieces, hcons]
    rcases path.pieces_eq_stem with heq | heq <;> rw [heq, hcons] <;> rfl
  have hclean : '\x00' ∉ (path.joins names).text.toList := by
    rw [BlobKey.nul_notMem_iff, ← Path.pieces, hpieces, List.forall_mem_append]
    refine ⟨fun piece hpiece => ?_, fun name hname => (hnames name hname).nul⟩
    refine BlobKey.nul_notMem_iff.1 hnul piece ?_
    rw [← Path.pieces]
    rcases path.pieces_eq_stem with heq | heq <;> rw [heq]
    · exact hpiece
    · exact List.mem_append_left _ hpiece
  rw [resolve_eq f cwd hclean hfilled hsize, start_eq cwd hfilled, hhead, ← start_eq cwd hempty,
    hpieces]
  exact hleft f names hsome

end FileTree

end Handoff
