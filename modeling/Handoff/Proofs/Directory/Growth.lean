import Handoff.Proofs.Directory.Breaking
/-!
# Looks at a tree that has grown

What is found under a key when directories have come to a tree, or directories and the file of
one key: the same as before, with two exceptions.  A look behind the new file fails, and so does
one at a name that is too long when the directories on the way to it are there.
-/

namespace Handoff

namespace DirectoryStore

open FileTree (below)

variable {root : Path} {cwd location : Location} {before tree after : FileTree}
  {names front rest : List String} {last : String} {key other : BlobKey} {value : ByteArray}

/-! ## Looks at trees that have grown -/

def HasLong (names : List String) : Prop :=
  ∃ name ∈ names, FileTree.nameMax < name.utf8ByteSize

theorem peek_barren (hlasting : Lasting names)
    (hbarren : ∀ names, names ≠ [] → Lasting names →
      tree.lookup (below location names) = none ∨
        tree.lookup (below location names) = some .directory) :
    peek tree location names = .ok none ∨
      peek tree location names = .error .nameTooLong ∧ HasLong names := by
  induction names generalizing location with
  | nil => exact .inl rfl
  | cons name rest ih =>
      obtain ⟨hname, hrest⟩ := List.forall_mem_cons.1 hlasting
      rw [peek]
      split
      · next hlong => exact .inr ⟨rfl, name, List.mem_cons_self, hlong⟩
      have hhere := hbarren [name] (by simp) (List.forall_mem_singleton.2 hname)
      rw [FileTree.below_cons, FileTree.below_nil] at hhere
      rcases hhere with hnone | hdirectory
      · rw [hnone]
        exact .inl rfl
      · rw [hdirectory]
        have hnext := ih hrest fun more hmore hlast => by
          rw [← FileTree.below_cons]
          exact hbarren (name :: more) (by simp) (List.forall_mem_cons.2 ⟨hname, hlast⟩)
        rcases hnext with hnone | ⟨hfault, long, hmem, hlong⟩
        · exact .inl hnone
        · exact .inr ⟨hfault, long, List.mem_cons_of_mem _ hmem, hlong⟩

theorem peek_congr (h : ∀ part, part <+: names → part ≠ [] →
      tree.lookup (below location part) = after.lookup (below location part)) :
    peek tree location names = peek after location names := by
  induction names generalizing location with
  | nil => rfl
  | cons name rest ih =>
      have hhere := h [name] ⟨rest, rfl⟩ (by simp)
      rw [FileTree.below_cons, FileTree.below_nil] at hhere
      have hnext : peek tree (location ++ [.named name]) rest =
          peek after (location ++ [.named name]) rest := ih fun part hpart _ => by
        rw [← FileTree.below_cons]
        exact h (name :: part) ((List.prefix_cons_inj name).2 hpart) (by simp)
      rw [peek, peek, hhere, hnext]

/-- New directories are no values, but a name that is too long can be looked at in them. -/
theorem Grown.peek_cases (h : Grown location before tree) (hlasting : Lasting names)
    (hclosed : ∀ names more, names ≠ [] → more ≠ [] →
      before.lookup (below location names) = none →
        before.lookup (below location (names ++ more)) = none) :
    peek tree location names = peek before location names ∨
      peek before location names = .ok none ∧
        peek tree location names = .error .nameTooLong ∧ HasLong names := by
  induction names generalizing location with
  | nil => exact .inl rfl
  | cons name rest ih =>
      obtain ⟨hname, hrest⟩ := List.forall_mem_cons.1 hlasting
      have hhere := h [name] (by simp) (List.forall_mem_singleton.2 hname)
      rw [FileTree.below_cons, FileTree.below_nil] at hhere
      rw [peek, peek]
      split
      · exact .inl rfl
      rcases hhere with hsame | ⟨hnone, hdirectory⟩
      · rw [hsame]
        have hgrown : Grown (location ++ [.named name]) before tree := fun more hmore hlast => by
          rw [← FileTree.below_cons]
          exact h (name :: more) (by simp) (List.forall_mem_cons.2 ⟨hname, hlast⟩)
        have hnext := ih hgrown hrest fun names more _ hmore => by
          rw [← FileTree.below_cons, ← FileTree.below_cons]
          exact hclosed (name :: names) more (by simp) hmore
        cases before.lookup (location ++ [.named name]) with
        | none => exact .inl rfl
        | some entry =>
            cases entry with
            | directory =>
                rcases hnext with heq | ⟨hold, hfault, long, hmem, hlong⟩
                · exact .inl heq
                · exact .inr ⟨hold, hfault, long, List.mem_cons_of_mem _ hmem, hlong⟩
            | _ => exact .inl rfl
      · -- Nothing stood below the new directory before.
        rw [hnone, hdirectory]
        have hbarren : ∀ more, more ≠ [] → Lasting more →
            tree.lookup (below (location ++ [.named name]) more) = none ∨
              tree.lookup (below (location ++ [.named name]) more) = some .directory :=
          fun more hmore hlast => by
            have hempty : before.lookup (below location ([name] ++ more)) = none :=
              hclosed [name] more (by simp) hmore (by
                rwa [FileTree.below_cons, FileTree.below_nil])
            rw [List.singleton_append] at hempty
            rw [← FileTree.below_cons]
            rcases h (name :: more) (by simp) (List.forall_mem_cons.2 ⟨hname, hlast⟩) with
              heq | ⟨-, hdir⟩
            · exact .inl (heq.trans hempty)
            · exact .inr hdir
        rcases peek_barren hrest hbarren with hfound | ⟨hfault, long, hmem, hlong⟩
        · exact .inl hfound
        · exact .inr ⟨rfl, hfault, long, List.mem_cons_of_mem _ hmem, hlong⟩

theorem exists_rest (hbehind : key.segments <+: other.segments) (hne : other ≠ key) :
    ∃ rest, rest ≠ [] ∧ other.segments = key.segments ++ rest := by
  obtain ⟨rest, hrest⟩ := hbehind
  refine ⟨rest, ?_, hrest.symm⟩
  rintro rfl
  rw [List.append_nil] at hrest
  exact hne (BlobKey.segments_injective hrest.symm)

theorem peek_behind (hdirs : tree.HasDirs location key.segments.dropLast)
    (hnamed : ∀ segment ∈ key.segments, FileTree.IsName segment)
    (hfree : tree.Free (below location key.segments)) (hbehind : key.segments <+: other.segments)
    (hne : other ≠ key) : peek tree location other.segments =
      if (tree.lookup (below location key.segments)).isSome then .error .notDirectory
      else .ok none := by
  obtain ⟨front, last, hsplit⟩ := key.exists_segments
  obtain ⟨rest, hsome, hrest⟩ := exists_rest hbehind hne
  rw [hsplit, List.dropLast_concat] at hdirs
  rw [hsplit] at hnamed hfree
  rw [hrest, hsplit, List.append_assoc, List.singleton_append, peek_append hdirs,
    peek_cons_of_isName (hnamed last (by simp)), ← FileTree.below_concat]
  cases hfound : tree.lookup (below location (front ++ [last])) with
  | none => rfl
  | some entry =>
      obtain ⟨id, content, mode⟩ := hfree entry hfound
      simp [hsome]

theorem shown_behind (hdirs : tree.HasDirs location key.segments.dropLast)
    (hnamed : ∀ segment ∈ key.segments, FileTree.IsName segment)
    (hfree : tree.Free (below location key.segments)) (hbehind : key.segments <+: other.segments)
    (hne : other ≠ key) : shown tree location other = none := by
  rw [shown]
  split
  · rw [peek_behind hdirs hnamed hfree hbehind hne]
    cases (tree.lookup (below location key.segments)).isSome <;> rfl
  · rfl

namespace Tended

variable (h : Tended root cwd location before)
include h

theorem lookup_append_of_none (names more : List String) (hsome : names ≠ []) (hmore : more ≠ [])
    (hnone : before.lookup (below location names) = none) :
    before.lookup (below location (names ++ more)) = none :=
  h.lookup_append_eq_none hsome (by simp [hnone]) hmore

theorem shown_of_grown (hgrown : Grown location before tree) :
    shown tree location = shown before location := by
  funext key
  by_cases hkey : key.Valid ∧ Lasting key.segments
  · rw [shown, shown, if_pos hkey, if_pos hkey]
    rcases hgrown.peek_cases hkey.2 h.lookup_append_of_none with heq | ⟨hold, hfault, -⟩
    · rw [heq]
    · rw [hold, hfault]
  · rw [shown, shown, if_neg hkey, if_neg hkey]

end Tended

/-! ## Looks at a tree with a new file -/

namespace Settled

variable (h : Settled root location key value before tree)
include h

theorem named : ∀ segment ∈ key.segments, FileTree.IsName segment := by
  obtain ⟨-, -, -, -, -, hnamed, -, -⟩ := h
  exact hnamed

theorem short : (pathFor root key).text.utf8ByteSize < FileTree.pathMax := by
  obtain ⟨-, -, -, -, -, -, hshort, -⟩ := h
  exact hshort

theorem exists_file (hlasting : Lasting key.segments) :
    tree.HasDirs location key.segments.dropLast ∧ ∃ id mode,
      tree.lookup (below location key.segments) = some (.file id value mode) := by
  obtain ⟨id, mode, -, -, hdirs, -, -, hshows⟩ := h
  have hfile := hshows key.segments key.segments_ne_nil hlasting
  rw [if_pos rfl] at hfile
  refine ⟨⟨hdirs.named, fun part hpart hsome => ?_⟩, id, mode, hfile⟩
  have hne : part ≠ key.segments := by
    rintro rfl
    have hlength := hpart.length_le
    have hpositive := List.length_pos_iff.2 hsome
    rw [List.length_dropLast] at hlength
    omega
  rw [hshows part hsome (hlasting.mono (hpart.trans (List.dropLast_prefix _))), if_neg hne]
  exact hdirs.dirs part hpart hsome

theorem peek_self (hlasting : Lasting key.segments) :
    peek tree location key.segments = .ok (some value) := by
  have hnamed := h.named
  obtain ⟨hdirs, id, mode, hfile⟩ := h.exists_file hlasting
  obtain ⟨front, last, hsplit⟩ := key.exists_segments
  rw [hsplit, List.dropLast_concat] at hdirs
  rw [hsplit] at hnamed hfile ⊢
  exact peek_file hdirs (hnamed last (by simp)) hfile

theorem peek_behind (hlasting : Lasting other.segments) (hbehind : key.segments <+: other.segments)
    (hne : other ≠ key) : peek tree location other.segments = .error .notDirectory := by
  obtain ⟨hdirs, id, mode, hfile⟩ := h.exists_file (hlasting.mono hbehind)
  rw [DirectoryStore.peek_behind hdirs h.named (FileTree.free_of_file hfile) hbehind hne, hfile,
    Option.isSome_some, if_pos rfl]

theorem peek_cases (hbefore : Tended root cwd location before) (hlasting : Lasting other.segments)
    (hne : other ≠ key) :
    peek tree location other.segments = peek before location other.segments ∨
      peek before location other.segments = .ok none ∧
        (peek tree location other.segments = .error .notDirectory ∧
            key.segments <+: other.segments ∨
          peek tree location other.segments = .error .nameTooLong ∧ HasLong other.segments) := by
  by_cases hbehind : key.segments <+: other.segments
  · have hfault := h.peek_behind hlasting hbehind hne
    obtain @⟨middle, id, mode, hgrown, hfree, hdirs, hnamed, -, -⟩ := h
    rcases hgrown.peek_cases hlasting hbefore.lookup_append_of_none with heq | ⟨hold, -, -⟩
    · have hlook := DirectoryStore.peek_behind hdirs hnamed hfree hbehind hne
      rw [heq] at hlook
      split at hlook
      · exact .inl (hfault.trans hlook.symm)
      · exact .inr ⟨hlook, .inl ⟨hfault, hbehind⟩⟩
    · exact .inr ⟨hold, .inl ⟨hfault, hbehind⟩⟩
  · obtain @⟨middle, id, mode, hgrown, -, -, -, -, hshows⟩ := h
    have hsame : peek tree location other.segments = peek middle location other.segments :=
      peek_congr fun part hpart hsome => by
        have hpartial : part ≠ key.segments := fun heq => hbehind (heq ▸ hpart)
        rw [hshows part hsome (hlasting.mono hpart), if_neg hpartial]
    rw [hsame]
    rcases hgrown.peek_cases hlasting hbefore.lookup_append_of_none with heq | ⟨hold, hfault⟩
    · exact .inl heq
    · exact .inr ⟨hold, .inr hfault⟩

/-- Of what the tree shows, the value of the key alone is another. -/
theorem shown_of_ne (hbefore : Tended root cwd location before) (hne : other ≠ key) :
    shown tree location other = shown before location other := by
  by_cases hother : other.Valid ∧ Lasting other.segments
  · rw [shown, shown, if_pos hother, if_pos hother]
    rcases h.peek_cases hbefore hother.2 hne with heq | ⟨hold, ⟨hfault, -⟩ | ⟨hfault, -⟩⟩
    · rw [heq]
    · rw [hold, hfault]
    · rw [hold, hfault]
  · rw [shown, shown, if_neg hother, if_neg hother]

theorem shown_self (hvalid : key.Valid) (hlasting : Lasting key.segments) :
    shown tree location key = some value :=
  shown_eq_some_iff.2 ⟨⟨hvalid, hlasting⟩, h.peek_self hlasting⟩

end Settled

end DirectoryStore

end Handoff
