import Handoff.Proofs.Directory.Walking
/-!
# The listing of any tree

What a listing makes of a tree that the store has not written: links, devices, leftovers of
writers, names that are no text and names that are no part of a key may stand anywhere in it.
-/

namespace Handoff

namespace DirectoryStore

open FileTree (below)

variable {root : Path} {cwd location : Location} {tree : FileTree} {key : BlobKey}
  {names : List String} {entry : FileEntry}

theorem Stands.resolve (h : Stands tree location names entry)
    (hroot : tree.Reaches cwd root location) (hfits : FileTree.Fits root names)
    (hsome : names ≠ []) :
    tree.resolve true cwd (root.joins names).text =
      .ok (.present (below location names) entry) := by
  have hfront := h.dirs
  have hfound := h.found
  obtain ⟨front, last, rfl⟩ : ∃ front last, names = front ++ [last] :=
    ⟨_, _, (List.dropLast_concat_getLast hsome).symm⟩
  rw [List.dropLast_concat] at hfront
  have hlink (text : String) :
      tree.lookup (below location (front ++ [last])) ≠ some (.link text) := by
    rw [hfound]
    rintro ⟨⟩
    cases h.regular
  have hlast := hfits.named last (by simp)
  obtain ⟨left, hleft⟩ := hroot.resolve_joins
  rw [hleft true _ hsome hfits.plain hfits.size, hfront.follow_concat hlast hlink,
    FileTree.targetAt, ← FileTree.below_concat, hfound]

theorem Stands.ne_directory (h : Stands tree location names entry) : entry ≠ .directory := by
  rintro rfl
  cases h.regular

/-- The tree below the root is one that a file system can have, with one entry for a name and no
name with a slash or a NUL, and its directories and files can be read. -/
structure Readable (root : Path) (cwd location : Location) (tree : FileTree) : Prop where
  reaches : tree.Reaches cwd root location
  distinct : tree.Distinct location
  named : ∀ {names name entry}, tree.HasDirs location names →
    tree.lookup (below location (names ++ [name])) = some entry →
      Path.IsPlain name ∧ FileTree.IsName name
  lists : ∀ {names}, tree.HasDirs location names →
    ∃ entries, tree.list cwd (root.joins names).text = .ok entries
  reads : ∀ {names entry}, Stands tree location names entry →
    ∃ content, tree.read cwd (root.joins names).text = .ok content

namespace Readable

variable (h : Readable root cwd location tree)
include h

theorem isPlain (hdirs : tree.HasDirs location names) : ∀ name ∈ names, Path.IsPlain name := by
  induction names using List.reverseRecOn with
  | nil => exact nofun
  | append_singleton front last ih =>
      obtain ⟨hfront, -, hfound⟩ := FileTree.hasDirs_concat.1 hdirs
      have hlast := (h.named hfront hfound).1
      exact List.forall_mem_append.2 ⟨ih hfront, List.forall_mem_singleton.2 hlast⟩

theorem named_last (hstands : Stands tree location names entry) (hsome : names ≠ []) :
    Path.IsPlain (names.getLast hsome) ∧ FileTree.IsName (names.getLast hsome) := by
  have hfound := hstands.found
  rw [← List.dropLast_concat_getLast hsome] at hfound
  exact h.named hstands.dirs hfound

theorem isPlain_of_stands (hstands : Stands tree location names entry) (hsome : names ≠ []) :
    ∀ name ∈ names, Path.IsPlain name := by
  have hlast := (h.named_last hstands hsome).1
  rw [← List.dropLast_concat_getLast hsome]
  exact List.forall_mem_append.2 ⟨h.isPlain hstands.dirs, List.forall_mem_singleton.2 hlast⟩

/-- A directory that can be read has a path that is short enough. -/
theorem size_of_hasDirs (hdirs : tree.HasDirs location names) :
    (root.joins names).text.utf8ByteSize < FileTree.pathMax := by
  obtain ⟨entries, hlist⟩ := h.lists hdirs
  rw [FileTree.list] at hlist
  split at hlist
  · cases hlist
  · cases hlist
  · next hresolve => exact FileTree.size_of_resolve hresolve
  · cases hlist

theorem walkable : Walkable root cwd location tree where
  reaches := h.reaches
  named := h.named
  fits hdirs := ⟨h.isPlain hdirs, hdirs.named, h.size_of_hasDirs hdirs⟩
  distinct := h.distinct

theorem fits_of_stands (hstands : Stands tree location names entry) (hsome : names ≠ []) :
    FileTree.Fits root names where
  plain := h.isPlain_of_stands hstands hsome
  named := by
    have hlast := (h.named_last hstands hsome).2
    rw [← List.dropLast_concat_getLast hsome]
    exact List.forall_mem_append.2 ⟨hstands.dirs.named, List.forall_mem_singleton.2 hlast⟩
  size := by
    obtain ⟨content, hread⟩ := h.reads hstands
    rw [FileTree.read] at hread
    split at hread
    · cases hread
    · cases hread
    · cases hread
    · next hresolve => exact FileTree.size_of_resolve hresolve

theorem run_get (hstands : Stands tree location key.segments entry) :
    FileTree.run cwd (get root key) tree = (.ok (some (FileTree.contentOf entry)), tree) := by
  have hfits := h.fits_of_stands hstands key.segments_ne_nil
  have hresolve := hstands.resolve h.reaches hfits key.segments_ne_nil
  exact run_get_of_sees hresolve (.file hstands.ne_directory)

end Readable

/-- Whatever stands below the root, a listing gives valid keys that start as wanted, in the
order of their bytes.  Each has a regular file at its own segments, which a `get` reads, and every
regular file is listed that is reached through directories alone, under no temporary name, and
whose joined names are such a key. -/
theorem lists_any_tree (h : Readable root cwd location tree) (start : String) :
    ∃ keys, FileTree.run cwd (list root start) tree = (.ok keys, tree) ∧
      (keys.Pairwise fun a b => Text.utf8 a.text.toList < Text.utf8 b.text.toList) ∧
      (∀ key ∈ keys, key.Valid ∧ Lasting key.segments ∧
        Text.utf8 start.toList <+: Text.utf8 key.text.toList ∧
        ∃ entry, Stands tree location key.segments entry ∧
          FileTree.run cwd (get root key) tree =
            (.ok (some (FileTree.contentOf entry)), tree)) ∧
      ∀ names entry key, Stands tree location names entry →
        BlobKey.ofText ("/".intercalate names) = .ok key →
        Text.utf8 start.toList <+: Text.utf8 key.text.toList → Lasting names → key ∈ keys := by
  obtain ⟨keys, hrun, hmem, hascending⟩ := h.walkable.run_list start
  refine ⟨keys, hrun, hascending, fun key hkey => ?_, fun names entry key hstands hkey hstart
    hlasting => ?_⟩
  · obtain ⟨hfiled, hstart⟩ := (hmem key).1 hkey
    obtain ⟨entry, hstands⟩ := hfiled.stands
    exact ⟨hfiled.valid, hfiled.lasting, hstart, entry, hstands, h.run_get hstands⟩
  · rw [BlobKey.ofText] at hkey
    split at hkey
    · next hfault =>
      cases hkey
      have hsome : names ≠ [] := by
        rintro rfl
        exact absurd hfault (by decide)
      have hslash : ∀ name ∈ names, '/' ∉ name.toList := fun name hname =>
        (h.isPlain_of_stands hstands hsome name hname).slash
      have hsegments := BlobKey.segmentsOf_intercalate hsome hslash
      refine (hmem _).2 ⟨⟨hfault, ?_, entry, ?_⟩, hstart⟩
      · rwa [BlobKey.segments, hsegments]
      · rwa [BlobKey.segments, hsegments]
    · cases hkey

/-- A store beside a link to its folder, what a writer left behind, and a name that no key has. -/
def foreignRows : List (List String × FileEntry) :=
  [([], .directory), (["a"], .file 1 "x".toUTF8 FileTree.plainMode), (["d"], .directory),
    (["d", "b"], .file 2 "y".toUTF8 FileTree.plainMode),
    (["d", ".ho-tmp-2-0"], .file 3 "z".toUTF8 FileTree.plainMode),
    (["d", "\x07"], .file 4 "z".toUTF8 FileTree.plainMode), (["e"], .link "d")]

/-- The rows in a directory, and a file there whose name is no text. -/
def foreignFiles : FileTree where
  entries := ([.named "store", .undecodable [0xff]], .file 5 "z".toUTF8 FileTree.plainMode) ::
    foreignRows.map fun row => (below [.named "store"] row.1, row.2)
  nextId := 6

theorem foreignFiles_distinct : foreignFiles.Distinct [.named "store"] := by
  rw [FileTree.Distinct]
  decide

theorem mem_foreignRows
    (hfound : foreignFiles.lookup (below [.named "store"] names) = some entry) :
    (names, entry) ∈ foreignRows := by
  rw [FileTree.lookup, if_neg (by simp [below])] at hfound
  obtain ⟨before, after, hsplit, -⟩ := List.lookup_eq_some_iff.1 hfound
  have hmem : (below [.named "store"] names, entry) ∈ foreignFiles.entries := by
    rw [hsplit]
    simp
  rcases List.mem_cons.1 hmem with hundecodable | hrow
  · have hplace := congrArg Prod.fst hundecodable
    cases names <;> simp [below] at hplace
  · obtain ⟨row, hrow, heq⟩ := List.mem_map.1 hrow
    obtain ⟨hplace, rfl⟩ := Prod.mk.inj heq
    rwa [← FileTree.below_injective hplace]

theorem fits_foreignRows {row : List String × FileEntry} (h : row ∈ foreignRows) :
    FileTree.Fits ⟨"store"⟩ row.1 := by
  have hplain : ∀ row ∈ foreignRows, ∀ name ∈ row.1, Path.isIdle name = false ∧ name ≠ ".." ∧
      '/' ∉ name.toList ∧ '\x00' ∉ name.toList ∧ name.utf8ByteSize ≤ FileTree.nameMax := by
    decide
  have hsize : ∀ row ∈ foreignRows,
      ((Path.mk "store").joins row.1).text.utf8ByteSize < FileTree.pathMax := by
    decide
  refine ⟨fun name hname => ?_, fun name hname => ?_, hsize row h⟩
  · obtain ⟨hidle, hup, hslash, hnul, -⟩ := hplain row h name hname
    exact ⟨hidle, hup, hslash, hnul⟩
  · obtain ⟨hidle, hup, -, -, hfits⟩ := hplain row h name hname
    exact ⟨hidle, hup, hfits⟩

theorem readable_foreignFiles : Readable ⟨"store"⟩ [] [.named "store"] foreignFiles := by
  have hroot : foreignFiles.Reaches [] ⟨"store"⟩ [.named "store"] := by
    rw [FileTree.reaches_iff]
    refine ⟨by decide, by decide, by decide, ?_⟩
    exact .down ⟨by decide, by decide, by decide⟩ (by decide) .here
  have hfits {names : List String} {entry : FileEntry}
      (hfound : foreignFiles.lookup (below [.named "store"] names) = some entry) :
      FileTree.Fits ⟨"store"⟩ names := fits_foreignRows (mem_foreignRows hfound)
  refine ⟨hroot, foreignFiles_distinct, fun {names name entry} hdirs hfound => ?_,
    fun {names} hdirs => ?_, fun {names entry} hstands => ?_⟩
  · exact ⟨(hfits hfound).plain name (by simp), (hfits hfound).named name (by simp)⟩
  · by_cases hsome : names = []
    · subst hsome
      exact ⟨_, hroot.list⟩
    · have hdirectory := hdirs.dirs names (List.prefix_refl _) hsome
      exact ⟨_, (hroot.joins hdirs (hfits hdirectory)).list⟩
  · have hsome : names ≠ [] := by
      rintro rfl
      have hmem := mem_foreignRows hstands.found
      obtain rfl : entry = .directory := by simpa [foreignRows] using hmem
      exact hstands.ne_directory rfl
    refine ⟨FileTree.contentOf entry, ?_⟩
    rw [FileTree.read, hstands.resolve hroot (hfits hstands.found) hsome]
    have hfile := hstands.ne_directory
    cases entry with
    | directory => exact absurd rfl hfile
    | _ => rfl

theorem lists_any_tree_on_foreignFiles :
    Readable ⟨"store"⟩ [] [.named "store"] foreignFiles ∧
      ∃ keys, FileTree.run [] (list ⟨"store"⟩ "") foreignFiles = (.ok keys, foreignFiles) ∧
        (∀ key, key ∈ keys ↔ key = ⟨"a"⟩ ∨ key = ⟨"d/b"⟩) ∧
        FileTree.run [] (get ⟨"store"⟩ ⟨"d/b"⟩) foreignFiles =
          (.ok (some "y".toUTF8), foreignFiles) := by
  obtain ⟨keys, hrun, -, hsound, hcomplete⟩ := lists_any_tree readable_foreignFiles ""
  have hfolder : FileTree.IsName "d" := ⟨by decide, by decide, by decide⟩
  have ha : Stands foreignFiles [.named "store"] ["a"] (.file 1 "x".toUTF8 FileTree.plainMode) :=
    ⟨FileTree.hasDirs_nil _ _, by decide, rfl⟩
  have hb : Stands foreignFiles [.named "store"] ["d", "b"]
      (.file 2 "y".toUTF8 FileTree.plainMode) := by
    refine ⟨?_, by decide, rfl⟩
    exact FileTree.hasDirs_cons.2 ⟨hfolder, by decide, FileTree.hasDirs_nil _ _⟩
  have hother : ∀ row ∈ foreignRows, FileTree.kindOf row.2 = .file → Lasting row.1 →
      (BlobKey.mk ("/".intercalate row.1)).Valid →
        row.1 = BlobKey.segments ⟨"a"⟩ ∨ row.1 = BlobKey.segments ⟨"d/b"⟩ := by decide
  have hlisted : ⟨"d/b"⟩ ∈ keys := hcomplete _ _ _ hb (by decide) (by simp) (by decide)
  refine ⟨readable_foreignFiles, keys, hrun, fun key => ⟨fun hkey => ?_, ?_⟩, ?_⟩
  · obtain ⟨hvalid, hlasting, -, entry, hstands, -⟩ := hsound key hkey
    rw [BlobKey.Valid, ← key.intercalate_segments] at hvalid
    rcases hother _ (mem_foreignRows hstands.found) hstands.regular hlasting hvalid with hsame | hsame
    · exact .inl (BlobKey.segments_injective hsame)
    · exact .inr (BlobKey.segments_injective hsame)
  · rintro (rfl | rfl)
    · exact hcomplete _ _ _ ha (by decide) (by simp) (by decide)
    · exact hlisted
  · obtain ⟨-, -, -, entry, hstands, hget⟩ := hsound _ hlisted
    have hsegments : BlobKey.segments ⟨"d/b"⟩ = ["d", "b"] := by decide
    have hfound := hstands.found
    rw [hsegments, hb.found] at hfound
    cases hfound
    exact hget

end DirectoryStore

end Handoff
