import Handoff.Proofs.Directory.Keeping
import Handoff.Proofs.Files.Outcomes
/-!
# What is found under a key

A key is looked up segment by segment below the root.  The look ends where nothing stands, at a
directory or at a file, and fails at a name that no directory can hold or when a file stands on
the way.
-/

namespace Handoff

namespace DirectoryStore

open FileTree (below IsName)

variable {root : Path} {cwd location : Location} {tree : FileTree} {key : BlobKey}
  {names : List String} {content : ByteArray}

/-- What is found under names that are looked up one after the other. -/
def peek (tree : FileTree) (location : Location) :
    List String → Except OsFault (Option ByteArray)
  | [] => .ok none
  | name :: rest =>
      if FileTree.nameMax < name.utf8ByteSize then .error .nameTooLong
      else
        match tree.lookup (location ++ [.named name]) with
        | none => .ok none
        | some .directory => peek tree (location ++ [.named name]) rest
        | some entry =>
            if rest.isEmpty then .ok (some (FileTree.contentOf entry)) else .error .notDirectory

/-- What a `get` makes of what it has found. -/
def found : Except OsFault (Option ByteArray) → Except StoreFault (Option ByteArray)
  | .ok value => .ok value
  | .error fault => .error (.os fault)

/-- What is seen where a path leads. -/
inductive Sees : Except OsFault FileTree.Target → Except OsFault (Option ByteArray) → Prop
  | fault {fault : OsFault} (real : fault ≠ .notFound) : Sees (.error fault) (.error fault)
  | missing : Sees (.error .notFound) (.ok none)
  | absent {parent : Location} {name : FileName} : Sees (.ok (.absent parent name)) (.ok none)
  | directory {place : Location} : Sees (.ok (.present place .directory)) (.ok none)
  | file {place : Location} {entry : FileEntry} (file : entry ≠ .directory) :
      Sees (.ok (.present place entry)) (.ok (some (FileTree.contentOf entry)))

/-- The way of a path is that of the look, where there are no links. -/
theorem sees_follow (hplain : ∀ name ∈ names, Path.IsPlain name)
    (hlinks : tree.NoLinks location) (links : Nat) :
    Sees (tree.follow true links location names) (peek tree location names) := by
  induction names generalizing location with
  | nil =>
      rw [FileTree.follow_nil, peek]
      exact .directory
  | cons name rest ih =>
      obtain ⟨hname, hrest⟩ := List.forall_mem_cons.1 hplain
      by_cases hlong : FileTree.nameMax < name.utf8ByteSize
      · rw [FileTree.follow_name_too_long true links hname hlong, peek, if_pos hlong]
        exact .fault (by decide)
      have hfits : IsName name := hname.isName (Nat.not_lt.1 hlong)
      rw [FileTree.follow_cons_of_isName true hfits, peek, if_neg hlong]
      cases hfound : tree.lookup (location ++ [.named name]) with
      | none =>
          dsimp only
          split
          · exact .absent
          · exact .missing
      | some entry =>
          cases entry with
          | directory =>
              have hnext : tree.NoLinks (location ++ [.named name]) := by
                intro more text _ hlink
                rw [← FileTree.below_cons] at hlink
                exact hlinks (name :: more) text (by simp) hlink
              exact ih hrest hnext
          | link text =>
              have hlink := hlinks [name] text (by simp)
              rw [FileTree.below_cons, FileTree.below_nil] at hlink
              exact absurd hfound hlink
          | _ =>
              dsimp only
              split
              · exact .file (by simp)
              · exact .fault (by decide)

theorem run_get_of_sees {path : Except OsFault FileTree.Target}
    {value : Except OsFault (Option ByteArray)}
    (hresolve : tree.resolve true cwd (pathFor root key).text = path) (h : Sees path value) :
    FileTree.run cwd (get root key) tree = (found value, tree) := by
  cases h with
  | fault hreal =>
      refine run_get_error ?_ ?_ hreal
      · rw [FileTree.isDir, hresolve]
      · rw [FileTree.read, hresolve]
  | missing =>
      refine run_get_missing ?_ ?_
      · rw [FileTree.isDir, hresolve]
      · rw [FileTree.read, hresolve]
  | absent =>
      refine run_get_missing ?_ ?_
      · rw [FileTree.isDir, hresolve]
      · rw [FileTree.read, hresolve]
  | directory =>
      have hlook : FileTree.run cwd (Files.isDir (pathFor root key)) tree = (true, tree) := by
        rw [FileTree.run_isDir, FileTree.isDir, hresolve]
      exact FileTree.run_bind_eq hlook
  | @file place entry hfile =>
      refine run_get_ok ?_ ?_
      · rw [FileTree.isDir, hresolve]
        cases entry with
        | directory => exact absurd rfl hfile
        | _ => rfl
      · rw [FileTree.read, hresolve]
        cases entry with
        | directory => exact absurd rfl hfile
        | _ => rfl

theorem run_get (hroot : tree.Reaches cwd root location) (hlinks : tree.NoLinks location)
    (hplain : ∀ segment ∈ key.segments, Path.IsPlain segment)
    (hsize : (pathFor root key).text.utf8ByteSize < FileTree.pathMax) :
    FileTree.run cwd (get root key) tree = (found (peek tree location key.segments), tree) := by
  obtain ⟨left, hleft⟩ := hroot.resolve_joins
  have hresolve := hleft true key.segments key.segments_ne_nil hplain hsize
  exact run_get_of_sees hresolve (sees_follow hplain hlinks left)

/-- The answer for a key whose path is too long does not depend on the files. -/
theorem run_get_too_long (hsize : FileTree.pathMax ≤ (pathFor root key).text.utf8ByteSize)
    (cwd : Location) : ∃ answer, ∀ tree, FileTree.run cwd (get root key) tree = (answer, tree) := by
  have hconstant : ∃ fault, ∀ tree : FileTree,
      tree.resolve true cwd (pathFor root key).text = .error fault := by
    by_cases hnul : (pathFor root key).text.toList.contains '\x00' = true
    · exact ⟨_, fun tree => by rw [FileTree.resolve, if_pos hnul]⟩
    by_cases hempty : (pathFor root key).text = ""
    · exact ⟨_, fun tree => by rw [FileTree.resolve, if_neg hnul, if_pos hempty]⟩
    · exact ⟨_, fun tree => by
        rw [FileTree.resolve, if_neg hnul, if_neg hempty, if_pos hsize]⟩
  obtain ⟨fault, hfault⟩ := hconstant
  by_cases hreal : fault = .notFound
  · subst hreal
    exact ⟨_, fun tree => run_get_of_sees (hfault tree) .missing⟩
  · exact ⟨_, fun tree => run_get_of_sees (hfault tree) (.fault hreal)⟩

/-! ## Where a look goes -/

theorem peek_cons_of_isName {name : String} (h : IsName name) (rest : List String) :
    peek tree location (name :: rest) =
      match tree.lookup (location ++ [.named name]) with
      | none => .ok none
      | some .directory => peek tree (location ++ [.named name]) rest
      | some entry =>
          if rest.isEmpty then .ok (some (FileTree.contentOf entry)) else .error .notDirectory := by
  rw [peek, if_neg (Nat.not_lt.2 h.fits)]

theorem peek_append {front : List String} (h : tree.HasDirs location front) (rest : List String) :
    peek tree location (front ++ rest) = peek tree (below location front) rest := by
  induction front generalizing location with
  | nil => rw [List.nil_append, FileTree.below_nil]
  | cons name front ih =>
      obtain ⟨hname, hfound, hfront⟩ := FileTree.hasDirs_cons.1 h
      rw [List.cons_append, peek_cons_of_isName hname, hfound, FileTree.below_cons]
      exact ih hfront

theorem peek_file {front : List String} {last : String} (h : tree.HasDirs location front)
    (hlast : IsName last) {id mode : Nat}
    (hfile : tree.lookup (below location (front ++ [last])) = some (.file id content mode)) :
    peek tree location (front ++ [last]) = .ok (some content) := by
  rw [FileTree.below_concat] at hfile
  rw [peek_append h, peek_cons_of_isName hlast, hfile]
  rfl

theorem exists_of_peek (hordinary : tree.Ordinary location)
    (hplain : ∀ name ∈ names, Path.IsPlain name)
    (h : peek tree location names = .ok (some content)) :
    ∃ front last id mode, names = front ++ [last] ∧ tree.HasDirs location front ∧ IsName last ∧
      tree.lookup (below location names) = some (.file id content mode) := by
  induction names generalizing location with
  | nil => cases h
  | cons name rest ih =>
      obtain ⟨hname, hrest⟩ := List.forall_mem_cons.1 hplain
      rw [peek] at h
      split at h
      · cases h
      next hfits =>
      have hisName : IsName name := hname.isName (Nat.not_lt.1 hfits)
      cases hfound : tree.lookup (location ++ [.named name]) with
      | none =>
          rw [hfound] at h
          cases h
      | some entry =>
          rw [hfound] at h
          have hplace : tree.lookup (below location [name]) = some entry := by
            rw [FileTree.below_cons, FileTree.below_nil, hfound]
          rcases hordinary [name] entry (by simp) hplace with rfl | ⟨id, value, mode⟩
          · have hnext : tree.Ordinary (location ++ [.named name]) := by
              intro more other _ hother
              rw [← FileTree.below_cons] at hother
              exact hordinary (name :: more) other (by simp) hother
            obtain ⟨front, last, id, mode, rfl, hfront, hlast, hfile⟩ := ih hnext hrest h
            refine ⟨name :: front, last, id, mode, rfl, ?_, hlast, ?_⟩
            · exact FileTree.hasDirs_cons.2 ⟨hisName, hfound, hfront⟩
            · rw [FileTree.below_cons, hfile]
          · dsimp only at h
            split at h
            · next hlast =>
              obtain rfl : rest = [] := by simpa using hlast
              cases h
              exact ⟨[], name, id, mode, rfl, FileTree.hasDirs_nil tree location, hisName, hplace⟩
            · cases h

/-! ## What a tree shows -/

/-- None of the names looks like that of a temporary file. -/
def Lasting (names : List String) : Prop :=
  ∀ name ∈ names, temporaryStart.toList.isPrefixOf name.toList = false

instance (names : List String) : Decidable (Lasting names) :=
  inferInstanceAs (Decidable (∀ _ ∈ _, _))

theorem Lasting.mono {names more : List String} (h : Lasting more) (habove : names <+: more) :
    Lasting names := fun name hname =>
  h name (habove.subset hname)

theorem not_lasting_temporary (front : List String) (stamp : WriterStamp) :
    ¬Lasting (front ++ [temporaryName stamp]) := by
  intro h
  have hname := h (temporaryName stamp) (by simp)
  rw [isPrefixOf_temporaryName] at hname
  cases hname

/-- The values that can be found in the tree under valid keys, without those of temporary
files. -/
def shown (tree : FileTree) (location : Location) : Contents := fun key =>
  if key.Valid ∧ Lasting key.segments then
    match peek tree location key.segments with
    | .ok value => value
    | .error _ => none
  else none

theorem shown_eq_some_iff : shown tree location key = some content ↔
    (key.Valid ∧ Lasting key.segments) ∧
      peek tree location key.segments = .ok (some content) := by
  by_cases hkey : key.Valid ∧ Lasting key.segments
  · rw [shown, if_pos hkey]
    cases peek tree location key.segments with
    | ok value => simp [hkey]
    | error fault => simp
  · simp [shown, hkey]

end DirectoryStore

end Handoff
