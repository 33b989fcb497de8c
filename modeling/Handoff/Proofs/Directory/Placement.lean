import Handoff.Proofs.Directory.Agreement
/-!
# Where the files of a store are placed

The path of a key goes from the root through the segments of the key, and a segment of an accepted
key is neither dots nor the start of a path of its own.  So the key can be told from the path, and
from the place of the file, where there are no links below the root.
-/

namespace Handoff

/-! ## The parts of joined names -/

namespace Path

variable {path : Path} {name first : String} {names rest : List String}

def leading (first : String) : List PathPart :=
  if first = "" then [.root] else if first = "." then [.current] else (partOf first).toList

theorem parts_of_pieces (hpath : path.text ≠ "") (hpieces : path.pieces = first :: rest) :
    path.parts = leading first ++ rest.filterMap partOf := by
  have habsolute : path.isAbsolute = true ↔ first = "" := by
    have hhead := BlobKey.head?_segmentsOf hpath
    rw [← pieces, hpieces, List.head?_cons, Option.some.injEq] at hhead
    rw [isAbsolute, beq_iff_eq, hhead]
  rw [parts, leading, hpieces]
  by_cases hroot : first = ""
  · rw [if_pos (habsolute.2 hroot), if_pos hroot, hroot]
    rfl
  · rw [if_neg (mt habsolute.1 hroot), if_neg hroot]
    split
    · next heq =>
      obtain ⟨rfl, rfl⟩ := List.cons.inj heq
      rfl
    · next hcurrent =>
      rw [if_neg fun hdot => hcurrent rest (by rw [hdot]), List.filterMap_cons]
      cases partOf first <;> rfl

theorem IsPlain.partOf_eq (h : IsPlain name) : partOf name = some (.name name) := by
  rw [partOf, h.not_idle, if_neg (by decide), if_neg h.not_up]

theorem filterMap_partOf_concat (pieces : List String) (piece : String) :
    (pieces ++ [piece]).filterMap partOf = pieces.filterMap partOf ++ (partOf piece).toList := by
  rw [List.filterMap_append, List.filterMap_cons, List.filterMap_nil]
  cases partOf piece <;> rfl

theorem parts_join (path : Path) (hname : IsPlain name) :
    (path.join name).parts = path.parts ++ [.name name] := by
  have hlast : (partOf name).toList = [.name name] := by rw [hname.partOf_eq, Option.toList_some]
  by_cases hpath : path.text = ""
  · have hjoin : path.join name = ⟨name⟩ := if_pos (by simp [hpath])
    have hempty : path = ⟨""⟩ := congrArg Path.mk hpath
    have hdot : name ≠ "." := by
      rintro rfl
      exact absurd hname.not_idle (by decide)
    have hpieces : (Path.mk name).pieces = [name] := BlobKey.segmentsOf_of_slash_notMem hname.slash
    rw [hjoin, parts_of_pieces hname.ne_empty hpieces, leading, if_neg hname.ne_empty, if_neg hdot,
      hlast, hempty]
    rfl
  · obtain ⟨first, rest, hstem⟩ := List.exists_cons_of_ne_nil path.stem_ne_nil
    have hparts : path.parts = leading first ++ rest.filterMap partOf := by
      rcases path.pieces_eq_stem with hpieces | hpieces
      · exact parts_of_pieces hpath (hpieces.trans hstem)
      · have hslash : path.pieces = first :: (rest ++ [""]) := by
          rw [hpieces, hstem, List.cons_append]
        rw [parts_of_pieces hpath hslash, filterMap_partOf_concat]
        exact congrArg (leading first ++ ·) (List.append_nil _)
    have hjoined : (path.join name).pieces = first :: (rest ++ [name]) := by
      rw [pieces_join hpath hname, hstem, List.cons_append]
    rw [parts_of_pieces (text_ne_empty_join hname) hjoined, hparts, filterMap_partOf_concat, hlast,
      List.append_assoc]

theorem parts_joins (path : Path) (hnames : ∀ name ∈ names, IsPlain name) :
    (path.joins names).parts = path.parts ++ names.map PathPart.name := by
  induction names generalizing path with
  | nil => exact (List.append_nil _).symm
  | cons name rest ih =>
      obtain ⟨hname, hrest⟩ := List.forall_mem_cons.1 hnames
      calc (path.joins (name :: rest)).parts
          = (path.join name).parts ++ rest.map PathPart.name := ih (path.join name) hrest
        _ = path.parts ++ (name :: rest).map PathPart.name := by
          rw [parts_join path hname, List.append_assoc, List.map_cons, List.singleton_append]

end Path

namespace FileTree

def Target.place : Target → Location
  | .present location _ => location
  | .absent parent name => parent ++ [name]

def LeadsTo (tree : FileTree) (cwd : Location) (path : Path) (place : Location) : Prop :=
  ∃ f target, tree.resolve f cwd path.text = .ok target ∧ target.place = place

def Share (tree : FileTree) (cwd : Location) (a b : Path) : Prop :=
  ∃ place, tree.LeadsTo cwd a place ∧ tree.LeadsTo cwd b place

theorem place_targetAt (tree : FileTree) (parent : Location) (name : FileName) :
    (tree.targetAt parent name).place = parent ++ [name] := by
  rw [targetAt]
  split <;> rfl

variable {tree : FileTree} {cwd location place : Location} {path : Path}

theorem Finds.place_eq {name : FileName} (h : tree.Finds cwd path location name)
    (hleads : tree.LeadsTo cwd path place) : place = location ++ [name] := by
  obtain ⟨f, target, hresolve, rfl⟩ := hleads
  rw [h.resolve f] at hresolve
  cases hresolve
  exact tree.place_targetAt location name

/-- Names that are joined to a path lead to no other place than theirs below its directory. -/
theorem Reaches.place_joins (h : tree.Reaches cwd path location) (hlinks : tree.NoLinks location)
    {names : List String} {last : String} (hnames : ∀ name ∈ names ++ [last], Path.IsPlain name)
    (hleads : tree.LeadsTo cwd (path.joins (names ++ [last])) place) :
    place = below location (names ++ [last]) := by
  obtain ⟨f, target, hresolve, -⟩ := id hleads
  obtain ⟨-, -, hfinds⟩ := h.finds_of_ok hnames hlinks hresolve
  rw [below_concat]
  exact hfinds.place_eq hleads

end FileTree

/-! ## The files of keys -/

namespace DirectoryStore

variable {root : Path} {text : String} {key other : BlobKey} {tree : FileTree}
  {cwd location place : Location}

/-- The path of a key has the parts of the root and then the segments of the key, which are plain
names, and it leads to no other place than theirs below the root. -/
structure Placed (root : Path) (key : BlobKey) : Prop where
  parts : (pathFor root key).parts = root.parts ++ key.segments.map PathPart.name
  some_segment : key.segments ≠ []
  plain : ∀ segment ∈ key.segments, Path.IsPlain segment
  place : ∀ {tree : FileTree} {cwd location place : Location}, tree.Reaches cwd root location →
    tree.NoLinks location → tree.LeadsTo cwd (pathFor root key) place →
      place = FileTree.below location key.segments

theorem placed (root : Path) (h : key.Built) : Placed root key where
  parts := by rw [pathFor_eq, Path.parts_joins root h.isPlain]
  some_segment := key.segments_ne_nil
  plain := h.isPlain
  place hroot hlinks hleads := by
    obtain ⟨front, last, hsplit⟩ := key.exists_segments
    have hplain := h.isPlain
    rw [pathFor_eq, hsplit] at hleads
    rw [hsplit] at hplain ⊢
    exact hroot.place_joins hlinks hplain hleads

/-- The parts of its path tell a key from others. -/
theorem Placed.eq_of_same (h : Placed root key) (hother : Placed root other)
    (hsame : (pathFor root other).same (pathFor root key) = true) : other = key := by
  rw [Path.same, beq_iff_eq, h.parts, hother.parts] at hsame
  have hnames := List.append_cancel_left hsame
  exact BlobKey.segments_injective ((List.map_inj_right fun _ _ => PathPart.name.inj).1 hnames)

theorem Placed.eq_of_share (h : Placed root key) (hother : Placed root other)
    (hroot : tree.Reaches cwd root location) (hlinks : tree.NoLinks location)
    (hshare : tree.Share cwd (pathFor root other) (pathFor root key)) : other = key := by
  obtain ⟨place, hleadsOther, hleads⟩ := hshare
  have hplaces := (hother.place hroot hlinks hleadsOther).symm.trans (h.place hroot hlinks hleads)
  exact BlobKey.segments_injective (FileTree.below_injective hplaces)

/-- For every root and every text that is accepted as a key, the path of the key goes from the root
through the segments of the key.  No other text has a key whose path is the same, or leads to the
same place where there are no links below the root. -/
theorem files_apart (root : Path) {text : String} {key : BlobKey}
    (hkey : BlobKey.ofText text = .ok key) :
    Placed root key ∧
      ∀ {more : String} {other : BlobKey}, BlobKey.ofText more = .ok other → more ≠ text →
        (pathFor root other).same (pathFor root key) = false ∧
          ∀ {tree : FileTree} {cwd location : Location}, tree.Reaches cwd root location →
            tree.NoLinks location → ¬tree.Share cwd (pathFor root other) (pathFor root key) := by
  obtain ⟨rfl, hvalid⟩ := BlobKey.ofText_eq_ok_iff.1 hkey
  have hplaced : Placed root key := placed root (.checked hvalid)
  refine ⟨hplaced, fun {more other} hmore hne => ?_⟩
  obtain ⟨rfl, hother⟩ := BlobKey.ofText_eq_ok_iff.1 hmore
  have hplacedOther : Placed root other := placed root (.checked hother)
  refine ⟨Bool.eq_false_iff.2 fun hsame => ?_, fun hroot hlinks hshare => ?_⟩
  · exact hne (congrArg BlobKey.text (hplaced.eq_of_same hplacedOther hsame))
  · exact hne (congrArg BlobKey.text (hplaced.eq_of_share hplacedOther hroot hlinks hshare))

theorem files_apart_in_folder :
    BlobKey.ofText "r7/status" = .ok ⟨"r7/status"⟩ ∧ BlobKey.ofText "r7" = .ok ⟨"r7"⟩ ∧
      (pathFor ⟨"store"⟩ ⟨"r7/status"⟩).parts = [.name "store", .name "r7", .name "status"] ∧
      plainFiles.Reaches [] ⟨"store"⟩ [.named "store"] ∧
      plainFiles.NoLinks [.named "store"] ∧
      ¬plainFiles.Share [] (pathFor ⟨"store"⟩ ⟨"r7"⟩) (pathFor ⟨"store"⟩ ⟨"r7/status"⟩) := by
  have hkey : BlobKey.ofText "r7/status" = .ok ⟨"r7/status"⟩ := by rfl
  have hother : BlobKey.ofText "r7" = .ok ⟨"r7"⟩ := by rfl
  have hempty : Holds (fun _ => False) [.named "store"] plainFiles fun _ => none :=
    holds_empty plainFiles_lookup
  obtain ⟨hplaced, hapart⟩ := files_apart ⟨"store"⟩ hkey
  exact ⟨hkey, hother, hplaced.parts, plainFiles_reaches, hempty.noLinks,
    (hapart hother (by decide)).2 plainFiles_reaches hempty.noLinks⟩

end DirectoryStore

end Handoff
