import Handoff.Proofs.Directory.Looking
/-!
# The listing of a directory store

The walk through the directories below the root comes by the file of every key, once, in whatever
order the directories are read, and goes through no link.
-/

namespace Handoff

namespace DirectoryStore

open FileTree (below)

variable {root : Path} {keys : BlobKey → Prop} {cwd location : Location} {tree : FileTree}
  {contents : Contents} {key : BlobKey} {names : List String} {entry : FileEntry}

/-- The keys of a kind that begin with the segments, each of them once. -/
structure Covers (keys : BlobKey → Prop) (segments : List String) (found : List BlobKey) :
    Prop where
  mem_iff : ∀ key, key ∈ found ↔ keys key ∧ segments <+: key.segments
  nodup : found.Nodup

def visit (below : Path → List String → Program Files (Except StoreFault (List BlobKey)))
    (path : Path) (above : List String) (name : String) :
    FileKind → Program Files (Except StoreFault (List BlobKey))
  | .directory => below (path.join name) (above ++ [name])
  | .file =>
      match BlobKey.ofText ("/".intercalate (above ++ [name])) with
      | .ok key => pure (.ok [key])
      | .error _ => pure (.ok [])
  | .other => pure (.ok [])

theorem run_keysOf_cons
    {below : Path → List String → Program Files (Except StoreFault (List BlobKey))}
    {path : Path} {above : List String} {name : String} {kind : FileKind}
    {rest : List (FileName × FileKind)} {found more : List BlobKey}
    (hname : temporaryStart.toList.isPrefixOf name.toList = false)
    (hvisit : FileTree.run cwd (visit below path above name kind) tree = (.ok found, tree))
    (hrest : FileTree.run cwd (keysOf below path above rest) tree = (.ok more, tree)) :
    FileTree.run cwd (keysOf below path above ((.named name, kind) :: rest)) tree =
      (.ok (found ++ more), tree) := by
  rw [keysOf, if_neg (by simp [hname])]
  cases kind with
  | directory => exact (FileTree.run_bind_eq hvisit).trans (FileTree.run_bind_eq hrest)
  | other => exact (FileTree.run_bind_eq hvisit).trans (FileTree.run_bind_eq hrest)
  | file =>
      rw [visit] at hvisit
      dsimp only
      cases hkey : BlobKey.ofText ("/".intercalate (above ++ [name])) with
      | ok key =>
          rw [hkey] at hvisit
          exact (FileTree.run_bind_eq hvisit).trans (FileTree.run_bind_eq hrest)
      | error fault =>
          rw [hkey] at hvisit
          exact (FileTree.run_bind_eq hvisit).trans (FileTree.run_bind_eq hrest)

theorem eq_of_concat {names all : List String} {a b : String}
    (ha : names ++ [a] <+: all) (hb : names ++ [b] <+: all) : a = b := by
  have hsame := List.prefix_of_prefix_length_le ha hb (by simp)
  exact List.singleton_inj.1 (List.append_cancel_left (hsame.eq_of_length (by simp)))

theorem keysOf_cons_skipped
    (below : Path → List String → Program Files (Except StoreFault (List BlobKey))) (path : Path)
    (above : List String) {fileName : FileName} (kind : FileKind)
    (rest : List (FileName × FileKind))
    (h : ∀ name, fileName = .named name →
      temporaryStart.toList.isPrefixOf name.toList = true) :
    keysOf below path above ((fileName, kind) :: rest) = keysOf below path above rest := by
  cases fileName with
  | undecodable bytes => rw [keysOf]
  | named name => rw [keysOf, if_pos (h name rfl)]

/-- When each entry that is not passed over gives the keys that begin with it, all of them
together give the keys that begin with one of them. -/
theorem run_keysOf {below : Path → List String → Program Files (Except StoreFault (List BlobKey))}
    {path : Path} {entries : List (FileName × FileEntry)}
    (hdistinct : entries.Pairwise fun a b => a.1 ≠ b.1)
    (hvisit : ∀ name entry, (.named name, entry) ∈ entries →
      temporaryStart.toList.isPrefixOf name.toList = false →
      ∃ found, FileTree.run cwd (visit below path names name (FileTree.kindOf entry)) tree =
        (.ok found, tree) ∧ Covers keys (names ++ [name]) found) :
    ∃ found, FileTree.run cwd (keysOf below path names
        (entries.map fun e => (e.1, FileTree.kindOf e.2))) tree = (.ok found, tree) ∧
      (∀ key, key ∈ found ↔ keys key ∧ ∃ name entry, (.named name, entry) ∈ entries ∧
        temporaryStart.toList.isPrefixOf name.toList = false ∧ names ++ [name] <+: key.segments) ∧
      found.Nodup := by
  induction entries with
  | nil => exact ⟨[], rfl, by simp, List.nodup_nil⟩
  | cons e rest ih =>
      obtain ⟨hfirst, hrest⟩ := List.pairwise_cons.1 hdistinct
      obtain ⟨more, hrunMore, hmem, hnodup⟩ := ih hrest fun name entry hentry =>
        hvisit name entry (List.mem_cons_of_mem _ hentry)
      obtain ⟨fileName, entry⟩ := e
      by_cases hskip : ∀ name, fileName = .named name →
          temporaryStart.toList.isPrefixOf name.toList = true
      · refine ⟨more, ?_, fun key => ?_, hnodup⟩
        · rw [List.map_cons, keysOf_cons_skipped below path names _ _ hskip]
          exact hrunMore
        · rw [hmem]
          refine and_congr_right fun _ => ⟨?_, ?_⟩
          · rintro ⟨name, other, hother, hbegins⟩
            exact ⟨name, other, List.mem_cons_of_mem _ hother, hbegins⟩
          · rintro ⟨name, other, hother, hlasting, hbegins⟩
            rcases List.mem_cons.1 hother with heq | hother
            · cases heq
              rw [hskip name rfl] at hlasting
              cases hlasting
            · exact ⟨name, other, hother, hlasting, hbegins⟩
      · obtain ⟨name, hnamed⟩ := not_forall.1 hskip
        obtain ⟨rfl, htemporary⟩ := Classical.not_imp.1 hnamed
        have hlasting := Bool.eq_false_iff.2 htemporary
        obtain ⟨found, hrun, hcovers⟩ := hvisit name entry List.mem_cons_self hlasting
        refine ⟨found ++ more, run_keysOf_cons hlasting hrun hrunMore, fun key => ?_, ?_⟩
        · rw [List.mem_append, hcovers.mem_iff, hmem, ← and_or_left]
          refine and_congr_right fun _ => ⟨?_, ?_⟩
          · rintro (hkey | ⟨other, entry', hentry, hkey⟩)
            · exact ⟨name, entry, List.mem_cons_self, hlasting, hkey⟩
            · exact ⟨other, entry', List.mem_cons_of_mem _ hentry, hkey⟩
          · rintro ⟨other, entry', hentry, hother, hkey⟩
            rcases List.mem_cons.1 hentry with heq | hentry
            · cases heq
              exact .inl hkey
            · exact .inr ⟨other, entry', hentry, hother, hkey⟩
        · refine hcovers.nodup.append hnodup fun key hfound hmore => ?_
          obtain ⟨-, other, entry', hentry, -, hkey⟩ := (hmem key).1 hmore
          have heq := eq_of_concat ((hcovers.mem_iff key).1 hfound).2 hkey
          exact hfirst _ hentry (congrArg FileName.named heq)

theorem kindOf_eq_directory (h : FileTree.kindOf entry = .directory) : entry = .directory := by
  cases entry with
  | directory => rfl
  | _ => cases h

theorem ascending_mergeSort {found : List BlobKey} (hnodup : found.Nodup) :
    (found.mergeSort fun a b => decide (a.text ≤ b.text)).Pairwise fun a b =>
      Text.utf8 a.text.toList < Text.utf8 b.text.toList := by
  have hsorted := Text.sorted_mergeSort BlobKey.text found
  have hdistinct := (List.mergeSort_perm found fun a b : BlobKey =>
    decide (a.text ≤ b.text)).nodup_iff.2 hnodup
  refine hsorted.imp₂ (fun a b hle hne => ?_) hdistinct
  have htext : a.text ≠ b.text := fun heq => hne (congrArg BlobKey.mk heq)
  have hlt : a.text < b.text := Std.lt_of_le_of_ne hle htext
  exact Text.utf8_lt_of_lt hlt

/-! ## Walks -/

/-- A regular file stands at the names, each of which but the last is that of a directory. -/
structure Stands (tree : FileTree) (location : Location) (names : List String)
    (entry : FileEntry) : Prop where
  dirs : tree.HasDirs location names.dropLast
  found : tree.lookup (below location names) = some entry
  regular : FileTree.kindOf entry = .file

/-- The key has a file in the tree, under no name of a temporary file. -/
structure Filed (tree : FileTree) (location : Location) (key : BlobKey) : Prop where
  valid : key.Valid
  lasting : Lasting key.segments
  stands : ∃ entry, Stands tree location key.segments entry

theorem Stands.eq_of_prefix {all : List String} (h : Stands tree location all entry)
    (hbegins : names <+: all) (hsome : names ≠ [])
    (hplace : tree.lookup (below location names) ≠ some .directory) : all = names := by
  have hall : all ≠ [] := by
    rintro rfl
    exact hsome (List.prefix_nil.1 hbegins)
  have hfront := h.dirs
  rw [← List.dropLast_concat_getLast hall] at hbegins
  rcases List.prefix_concat_iff.1 hbegins with heq | habove
  · rw [heq, List.dropLast_concat_getLast hall]
  · exact absurd (hfront.dirs names habove hsome) hplace

theorem Stands.exists_child {all : List String} (h : Stands tree location all entry)
    (hbegins : names <+: all) (hsome : all ≠ []) (hdirs : tree.HasDirs location names) :
    ∃ name other, names ++ [name] <+: all ∧
      tree.lookup (below location names ++ [.named name]) = some other := by
  obtain ⟨rest, rfl⟩ := hbegins
  cases rest with
  | nil =>
      -- The names of a file are not those of a directory.
      rw [List.append_nil] at h hsome
      have hregular := h.regular
      have hdirectory := hdirs.dirs names (List.prefix_refl _) hsome
      rw [h.found] at hdirectory
      cases hdirectory
      cases hregular
  | cons name rest =>
      have hnext : names ++ [name] <+: names ++ name :: rest := ⟨rest, by simp⟩
      refine ⟨name, ?_⟩
      rw [← FileTree.below_concat]
      by_cases hlast : rest = []
      · subst hlast
        exact ⟨_, hnext, h.found⟩
      · have hfront : names ++ [name] <+: (names ++ name :: rest).dropLast := by
          rw [List.dropLast_append_of_ne_nil (by simp), List.dropLast_cons_of_ne_nil hlast]
          exact ⟨rest.dropLast, by simp⟩
        exact ⟨_, hnext, h.dirs.dirs _ hfront (by simp)⟩

/-- Nothing has its file at or behind what is neither a file nor a directory. -/
theorem run_visit_other
    {walkBelow : Path → List String → Program Files (Except StoreFault (List BlobKey))}
    {path : Path} {name : String}
    (hfound : tree.lookup (below location (names ++ [name])) = some entry)
    (hother : FileTree.kindOf entry = .other) :
    ∃ found, FileTree.run cwd (visit walkBelow path names name .other) tree = (.ok found, tree) ∧
      Covers (Filed tree location) (names ++ [name]) found := by
  have hplace : tree.lookup (below location (names ++ [name])) ≠ some .directory := by
    rw [hfound]
    rintro ⟨⟩
    cases hother
  refine ⟨[], rfl, fun key => iff_of_false List.not_mem_nil ?_, List.nodup_nil⟩
  rintro ⟨hfiled, hbegins⟩
  obtain ⟨file, hstands⟩ := hfiled.stands
  have heq := hstands.eq_of_prefix hbegins (by simp) hplace
  have hsame := hstands.found
  rw [heq, hfound] at hsame
  cases hsame
  have hregular := hstands.regular
  rw [hother] at hregular
  cases hregular

/-- The directories below the root can be opened, and hold names that fit. -/
structure Walkable (root : Path) (cwd location : Location) (tree : FileTree) : Prop where
  reaches : tree.Reaches cwd root location
  named : ∀ {names name entry}, tree.HasDirs location names →
    tree.lookup (below location (names ++ [name])) = some entry →
      Path.IsPlain name ∧ FileTree.IsName name
  fits : ∀ {names}, tree.HasDirs location names → FileTree.Fits root names
  distinct : tree.Distinct location

theorem length_lt_of_fits (hroot : root.text ≠ "") (h : FileTree.Fits root names) :
    names.length < FileTree.pathMax := by
  by_cases hsome : names = []
  · rw [hsome]
    decide
  have hpieces := Path.pieces_joins hroot h.plain hsome
  have hlength := Path.length_le_sizeOf (root.joins names).pieces
  have hsize := (root.joins names).sizeOf_pieces
  have hstem := List.length_pos_iff.2 root.stem_ne_nil
  have hshort := h.size
  rw [hsize, hpieces, List.length_append] at hlength
  omega

namespace Walkable

variable (h : Walkable root cwd location tree)
include h

theorem run_visit_file
    {walkBelow : Path → List String → Program Files (Except StoreFault (List BlobKey))}
    {path : Path} {name : String} (hdirs : tree.HasDirs location names)
    (hlasting : Lasting (names ++ [name]))
    (hfound : tree.lookup (below location (names ++ [name])) = some entry)
    (hregular : FileTree.kindOf entry = .file) :
    ∃ found, FileTree.run cwd (visit walkBelow path names name .file) tree = (.ok found, tree) ∧
      Covers (Filed tree location) (names ++ [name]) found := by
  have hstands : Stands tree location (names ++ [name]) entry :=
    ⟨by rwa [List.dropLast_concat], hfound, hregular⟩
  have hplace : tree.lookup (below location (names ++ [name])) ≠ some .directory := by
    rw [hfound]
    rintro ⟨⟩
    cases hregular
  have hslash : ∀ segment ∈ names ++ [name], '/' ∉ segment.toList :=
    List.forall_mem_append.2 ⟨fun segment hsegment => ((h.fits hdirs).plain segment hsegment).slash,
      List.forall_mem_singleton.2 (h.named hdirs hfound).1.slash⟩
  have hsegments : BlobKey.segmentsOf ("/".intercalate (names ++ [name])) = names ++ [name] :=
    BlobKey.segmentsOf_intercalate (by simp) hslash
  have hothers {other : BlobKey} (hother : Filed tree location other)
      (hbegins : names ++ [name] <+: other.segments) :
      other = ⟨"/".intercalate (names ++ [name])⟩ := by
    obtain ⟨_, hstands⟩ := hother.stands
    have heq := hstands.eq_of_prefix hbegins (by simp) hplace
    exact BlobKey.segments_injective (heq.trans hsegments.symm)
  cases hfault : BlobKey.fault? ("/".intercalate (names ++ [name])) with
  | none =>
      have hkey : BlobKey.ofText ("/".intercalate (names ++ [name])) =
          .ok ⟨"/".intercalate (names ++ [name])⟩ := by rw [BlobKey.ofText, hfault]
      have hfiled : Filed tree location ⟨"/".intercalate (names ++ [name])⟩ := by
        refine ⟨hfault, ?_, entry, ?_⟩
        · rwa [BlobKey.segments, hsegments]
        · rwa [BlobKey.segments, hsegments]
      refine ⟨_, by rw [visit, hkey]; rfl, fun other => ?_, List.nodup_singleton _⟩
      rw [List.mem_singleton]
      constructor
      · rintro rfl
        exact ⟨hfiled, [], (List.append_nil _).trans hsegments.symm⟩
      · rintro ⟨hother, hbegins⟩
        exact hothers hother hbegins
  | some fault =>
      have hkey : BlobKey.ofText ("/".intercalate (names ++ [name])) = .error fault := by
        rw [BlobKey.ofText, hfault]
      refine ⟨[], by rw [visit, hkey]; rfl, fun other => ?_, List.nodup_nil⟩
      refine iff_of_false List.not_mem_nil ?_
      rintro ⟨hother, hbegins⟩
      have hvalid := hother.valid
      rw [hothers hother hbegins, BlobKey.Valid, hfault] at hvalid
      cases hvalid

/-- The walk from a directory comes by the keys that have their files below it. -/
theorem run_walk (depth : Nat) (hdirs : tree.HasDirs location names) (hlasting : Lasting names)
    (hdepth : FileTree.pathMax ≤ depth + names.length) :
    ∃ found, FileTree.run cwd (walk depth (root.joins names) names) tree = (.ok found, tree) ∧
      Covers (Filed tree location) names found := by
  induction depth generalizing names with
  | zero =>
      have hroot := (FileTree.reaches_iff.1 h.reaches).2.1
      have := length_lt_of_fits hroot (h.fits hdirs)
      omega
  | succ depth ih =>
      have hparent : location <+: below location names := List.prefix_append _ _
      have hreach := h.reaches.joins hdirs (h.fits hdirs)
      have hentries : FileTree.run cwd (Files.entries (root.joins names)) tree =
          (.ok ((tree.children (below location names)).map fun e =>
            (e.1, FileTree.kindOf e.2)), tree) := by
        rw [FileTree.run_entries, hreach.list]
      have hvisit : ∀ name entry, (.named name, entry) ∈ tree.children (below location names) →
          temporaryStart.toList.isPrefixOf name.toList = false →
          ∃ found, FileTree.run cwd (visit (walk depth) (root.joins names) names name
            (FileTree.kindOf entry)) tree = (.ok found, tree) ∧
              Covers (Filed tree location) (names ++ [name]) found := by
        intro name entry hentry hname
        have hfound := (h.distinct.mem_children_iff hparent).1 hentry
        rw [← FileTree.below_concat] at hfound
        have hnext : Lasting (names ++ [name]) :=
          List.forall_mem_append.2 ⟨hlasting, List.forall_mem_singleton.2 hname⟩
        cases hkind : FileTree.kindOf entry with
        | directory =>
            obtain rfl := kindOf_eq_directory hkind
            rw [visit, ← Path.joins_concat]
            refine ih (FileTree.hasDirs_concat.2 ⟨hdirs, (h.named hdirs hfound).2, hfound⟩)
              hnext ?_
            rw [List.length_append, List.length_singleton]
            omega
        | file => exact h.run_visit_file hdirs hnext hfound hkind
        | other => exact run_visit_other hfound hkind
      obtain ⟨found, hrun, hmem, hnodup⟩ :=
        run_keysOf (h.distinct.nodup_children hparent) hvisit
      refine ⟨found, (FileTree.run_bind_eq hentries).trans hrun, fun key => ?_, hnodup⟩
      rw [hmem]
      refine and_congr_right fun hfiled => ⟨?_, fun hbegins => ?_⟩
      · rintro ⟨name, -, -, -, hbegins⟩
        exact (List.prefix_append _ _).trans hbegins
      · obtain ⟨_, hstands⟩ := hfiled.stands
        obtain ⟨name, entry, hnext, hfound⟩ :=
          hstands.exists_child hbegins key.segments_ne_nil hdirs
        exact ⟨name, entry, (h.distinct.mem_children_iff hparent).2 hfound,
          hfiled.lasting name (hnext.subset (by simp)), hnext⟩

/-- A listing gives the keys that have files and start as wanted, in the order of their bytes. -/
theorem run_list (start : String) :
    ∃ found, FileTree.run cwd (list root start) tree = (.ok found, tree) ∧
      (∀ key, key ∈ found ↔ Filed tree location key ∧
        Text.utf8 start.toList <+: Text.utf8 key.text.toList) ∧
      found.Pairwise fun a b => Text.utf8 a.text.toList < Text.utf8 b.text.toList := by
  obtain ⟨found, hrun, hcovers⟩ := h.run_walk pathMax (FileTree.hasDirs_nil tree location)
    (fun _ hname => absurd hname List.not_mem_nil) (by decide)
  have hmem (key : BlobKey) : key ∈ found ↔ Filed tree location key := by
    rw [hcovers.mem_iff]
    exact and_iff_left List.nil_prefix
  have hwanted (key : BlobKey) :
      key ∈ (found.filter fun key => start.toList.isPrefixOf key.text.toList).mergeSort
        (fun a b => decide (a.text ≤ b.text)) ↔
      Filed tree location key ∧ Text.utf8 start.toList <+: Text.utf8 key.text.toList := by
    rw [List.mem_mergeSort, List.mem_filter, hmem, ← MemoryStore.startsWith_iff]
    rfl
  exact ⟨_, FileTree.run_bind_eq hrun, hwanted, ascending_mergeSort (hcovers.nodup.filter _)⟩

end Walkable

/-! ## Trees of files and directories -/

/-- The directories below the root can be opened, and hold nothing but files and directories
whose names fit. -/
structure Browsable (root : Path) (cwd location : Location) (tree : FileTree) : Prop
    extends Walkable root cwd location tree where
  ordinary : tree.Ordinary location

namespace Browsable

variable (h : Browsable root cwd location tree)
include h

theorem peek_of_shown {content : ByteArray} (hshown : shown tree location key = some content) :
    ∃ front last id mode, key.segments = front ++ [last] ∧ tree.HasDirs location front ∧
      FileTree.IsName last ∧
      tree.lookup (below location key.segments) = some (.file id content mode) := by
  obtain ⟨⟨hvalid, -⟩, hpeek⟩ := shown_eq_some_iff.1 hshown
  exact exists_of_peek h.ordinary (BlobKey.Built.checked hvalid).isPlain hpeek

theorem isSome_shown_iff : (shown tree location key).isSome ↔ Filed tree location key := by
  constructor
  · intro hsome
    obtain ⟨content, hcontent⟩ := Option.isSome_iff_exists.1 hsome
    obtain ⟨front, last, id, mode, hsplit, hdirs, -, hfile⟩ := h.peek_of_shown hcontent
    obtain ⟨hvalid, hlasting⟩ := (shown_eq_some_iff.1 hcontent).1
    refine ⟨hvalid, hlasting, _, ?_, hfile, rfl⟩
    rwa [hsplit, List.dropLast_concat]
  · rintro ⟨hvalid, hlasting, entry, hdirs, hfound, hregular⟩
    obtain ⟨front, last, hsplit⟩ := key.exists_segments
    rcases h.ordinary _ entry key.segments_ne_nil hfound with rfl | ⟨id, content, mode⟩
    · cases hregular
    · rw [hsplit, List.dropLast_concat] at hdirs
      rw [hsplit] at hfound
      have hpeek := peek_file hdirs (h.named hdirs hfound).2 hfound
      have hshown : shown tree location key = some content := by
        rw [shown_eq_some_iff, hsplit]
        exact ⟨⟨hvalid, hsplit ▸ hlasting⟩, hpeek⟩
      rw [hshown]
      rfl

theorem run_list (start : String) :
    ∃ found, FileTree.run cwd (list root start) tree = (.ok found, tree) ∧
      (shown tree location).Enumerates start found := by
  obtain ⟨found, hrun, hmem, hascending⟩ := h.toWalkable.run_list start
  refine ⟨found, hrun, fun key => ?_, hascending⟩
  rw [hmem, h.isSome_shown_iff]

end Browsable

/-! ## The listing of what is held -/

namespace Holds

variable (h : Holds keys location tree contents)
include h

theorem ordinary : tree.Ordinary location := by
  intro names entry hsome hfound
  cases h.accounted hsome hfound with
  | folder => exact .inl rfl
  | file id mode stored => exact .inr (.intro id _ mode)

theorem exists_key (hsome : names ≠ []) {entry : FileEntry}
    (hfound : tree.lookup (below location names) = some entry) :
    ∃ key, keys key ∧ names <+: key.segments := by
  cases h.accounted hsome hfound with
  | folder known above => exact ⟨_, known, above⟩
  | file id mode stored => exact ⟨_, h.known stored, List.prefix_refl _⟩

theorem browsable (hkeys : Fileable root keys) (hroot : tree.Reaches cwd root location) :
    Browsable root cwd location tree where
  reaches := hroot
  ordinary := h.ordinary
  named _ hfound := by
    obtain ⟨key, hkey, hbegins⟩ := h.exists_key (by simp) hfound
    have hmem := hbegins.subset (List.mem_append_right _ List.mem_cons_self)
    exact ⟨hkeys.isPlain hkey _ hmem, hkeys.isName hkey _ hmem⟩
  fits {names} hdirs := by
    by_cases hsome : names = []
    · subst hsome
      exact ⟨nofun, nofun, (FileTree.reaches_iff.1 hroot).2.2.1⟩
    · obtain ⟨key, hkey, hbegins⟩ :=
        h.exists_key hsome (hdirs.dirs names (List.prefix_refl _) hsome)
      exact hkeys.fits_front hkey hbegins
  distinct := h.distinct

theorem shown_eq (hkeys : Fileable root keys) : shown tree location = contents := by
  funext key
  cases hvalue : contents key with
  | some value =>
      have hkey := h.known hvalue
      obtain ⟨front, last, hsplit⟩ := key.exists_segments
      obtain ⟨id, mode, hfile⟩ := h.file hvalue
      have hfolders := h.folders hvalue
      rw [hsplit] at hfile hfolders
      rw [List.dropLast_concat] at hfolders
      have hlast := hkeys.isName hkey last (by simp [hsplit])
      refine shown_eq_some_iff.2 ⟨⟨hkeys.valid hkey, hkeys.lasting hkey⟩, ?_⟩
      rw [hsplit]
      exact peek_file hfolders hlast hfile
  | none =>
      by_contra hsome
      obtain ⟨content, hcontent⟩ := Option.ne_none_iff_exists'.1 hsome
      obtain ⟨⟨hvalid, -⟩, hpeek⟩ := shown_eq_some_iff.1 hcontent
      obtain ⟨-, -, id, mode, -, -, -, hfile⟩ :=
        exists_of_peek h.ordinary (BlobKey.Built.checked hvalid).isPlain hpeek
      generalize hsegments : key.segments = segments at hfile
      cases h.accounted (hsegments ▸ key.segments_ne_nil) hfile with
      | file id mode stored =>
          obtain rfl := BlobKey.segments_injective hsegments
          rw [hvalue] at stored
          cases stored

theorem run_list (hkeys : Fileable root keys) (hroot : tree.Reaches cwd root location)
    (start : String) : ∃ answer, FileTree.run cwd (list root start) tree = (answer, tree) ∧
      contents.Answers (.list start) answer := by
  obtain ⟨found, hrun, hfound⟩ := (h.browsable hkeys hroot).run_list start
  rw [h.shown_eq hkeys] at hfound
  refine ⟨_, hrun, found, hfound, ?_⟩
  have hvalid : (found.findSome? fun key => BlobKey.fault? key.text) = none := by
    refine List.findSome?_eq_none_iff.2 fun key hkey => ?_
    obtain ⟨value, hvalue⟩ := Option.isSome_iff_exists.1 ((hfound.mem_iff key).1 hkey).1
    exact hkeys.valid (h.known hvalue)
  rw [Contents.listed, hvalid]

end Holds

end DirectoryStore

end Handoff
