import Handoff.Proofs.Directory.Naming
/-!
# What a directory store keeps

Below its root stand the directories on the way to keys and one file for each stored key.
The point calls read and change the file of their key, and keep it so.
-/

namespace Handoff

namespace DirectoryStore

open FileTree (below)

/-- Keys that can be files side by side below a root: none is above another, none goes through
what looks like a temporary file, and names and paths fit. -/
structure Fileable (root : Path) (keys : BlobKey → Prop) : Prop where
  valid : ∀ {key}, keys key → key.Valid
  apart : ∀ {a b}, keys a → keys b → a.segments <+: b.segments → a = b
  lasting : ∀ {key}, keys key → ∀ segment ∈ key.segments,
    temporaryStart.toList.isPrefixOf segment.toList = false
  fits : ∀ {key}, keys key → ∀ segment ∈ key.segments, segment.utf8ByteSize ≤ FileTree.nameMax
  short : ∀ {key}, keys key →
    root.text.utf8ByteSize + key.text.utf8ByteSize + FileTree.nameMax + 2 < FileTree.pathMax

/-- What may stand below the root when the keys have these values. -/
inductive Accounted (keys : BlobKey → Prop) (contents : Contents) : List String → FileEntry → Prop
  | folder {key : BlobKey} {names : List String} (known : keys key)
      (above : names <+: key.segments) (proper : names ≠ key.segments) :
      Accounted keys contents names .directory
  | file {key : BlobKey} {value : ByteArray} (id mode : Nat) (stored : contents key = some value) :
      Accounted keys contents key.segments (.file id value mode)

structure Holds (keys : BlobKey → Prop) (location : Location) (tree : FileTree)
    (contents : Contents) : Prop where
  known : ∀ {key value}, contents key = some value → keys key
  file : ∀ {key value}, contents key = some value →
    ∃ id mode, tree.lookup (below location key.segments) = some (.file id value mode)
  folders : ∀ {key value}, contents key = some value →
    tree.HasDirs location key.segments.dropLast
  only : ∀ {place entry}, place ≠ [] → tree.lookup (location ++ place) = some entry →
    ∃ names, place = names.map .named ∧ Accounted keys contents names entry
  distinct : tree.Distinct location

variable {root : Path} {keys : BlobKey → Prop} {cwd location : Location} {tree after : FileTree}
  {contents : Contents} {key : BlobKey}

namespace Fileable

theorem isPlain (hkeys : Fileable root keys) (hkey : keys key) :
    ∀ segment ∈ key.segments, Path.IsPlain segment :=
  (BlobKey.Built.checked (hkeys.valid hkey)).isPlain

theorem isName (hkeys : Fileable root keys) (hkey : keys key) :
    ∀ segment ∈ key.segments, FileTree.IsName segment := fun segment hsegment =>
  (hkeys.isPlain hkey segment hsegment).isName (hkeys.fits hkey segment hsegment)

theorem temporaryName_notMem (hkeys : Fileable root keys) (hkey : keys key)
    (stamp : WriterStamp) : temporaryName stamp ∉ key.segments := by
  intro hmem
  have hlasting := hkeys.lasting hkey _ hmem
  rw [isPrefixOf_temporaryName] at hlasting
  cases hlasting

theorem size_front (hkeys : Fileable root keys) (hkey : keys key) {names : List String}
    (hbegins : names <+: key.segments) :
    root.text.utf8ByteSize + Path.sizeOf names < FileTree.pathMax := by
  have hshort := hkeys.short hkey
  have hlength := key.size_segments
  obtain ⟨rest, hrest⟩ := hbegins
  rw [← hrest, Path.sizeOf_append] at hlength
  omega

theorem fits_front (hkeys : Fileable root keys) (hkey : keys key) {names : List String}
    (hbegins : names <+: key.segments) : FileTree.Fits root names where
  plain name hname := hkeys.isPlain hkey name (hbegins.subset hname)
  named name hname := hkeys.isName hkey name (hbegins.subset hname)
  size := Nat.lt_of_le_of_lt (Path.size_joins_le root names) (hkeys.size_front hkey hbegins)

theorem fits_path (hkeys : Fileable root keys) (hkey : keys key) :
    FileTree.Fits root key.segments :=
  hkeys.fits_front hkey (List.prefix_refl _)

theorem fits_temporary (hkeys : Fileable root keys) (hempty : root.text ≠ "") (hkey : keys key)
    {front : List String} {last : String} (hsplit : key.segments = front ++ [last])
    {stamp : WriterStamp} (hstamp : Bounded stamp) :
    FileTree.Fits (root.seat front) (front ++ [temporaryName stamp]) where
  plain := by
    have hplain := hkeys.isPlain hkey
    rw [hsplit] at hplain
    exact List.forall_mem_append.2 ⟨(List.forall_mem_append.1 hplain).1,
      List.forall_mem_singleton.2 (isPlain_temporaryName stamp)⟩
  named := by
    have hnamed := hkeys.isName hkey
    rw [hsplit] at hnamed
    exact List.forall_mem_append.2 ⟨(List.forall_mem_append.1 hnamed).1,
      List.forall_mem_singleton.2 (isName_temporaryName hstamp)⟩
  size := by
    have hjoined := Path.size_joins_le (root.seat front) (front ++ [temporaryName stamp])
    have hseat := Path.size_seat_le hempty front
    have hshort := hkeys.short hkey
    have hlength := key.size_segments
    have htemporary := size_temporaryName_le hstamp
    rw [hsplit, Path.sizeOf_append] at hlength
    rw [Path.sizeOf_append] at hjoined
    simp only [Path.sizeOf, List.map_cons, List.map_nil, List.sum_cons, List.sum_nil]
      at hjoined hlength
    omega

end Fileable

/-! ## Runs of the point calls -/

section Runs

variable {value : ByteArray} {stamp : WriterStamp}

theorem run_get_ok {content : ByteArray}
    (hdir : tree.isDir cwd (pathFor root key).text = false)
    (hread : tree.read cwd (pathFor root key).text = .ok content) :
    FileTree.run cwd (get root key) tree = (.ok (some content), tree) := by
  have hlook : FileTree.run cwd (Files.isDir (pathFor root key)) tree = (false, tree) := by
    rw [FileTree.run_isDir, hdir]
  have hfile : FileTree.run cwd (Files.read (pathFor root key)) tree = (.ok content, tree) := by
    rw [FileTree.run_read, hread]
  exact (FileTree.run_bind_eq hlook).trans (FileTree.run_bind_eq hfile)

theorem run_get_missing (hdir : tree.isDir cwd (pathFor root key).text = false)
    (hread : tree.read cwd (pathFor root key).text = .error .notFound) :
    FileTree.run cwd (get root key) tree = (.ok none, tree) := by
  have hlook : FileTree.run cwd (Files.isDir (pathFor root key)) tree = (false, tree) := by
    rw [FileTree.run_isDir, hdir]
  have hfile : FileTree.run cwd (Files.read (pathFor root key)) tree =
      (.error .notFound, tree) := by
    rw [FileTree.run_read, hread]
  exact (FileTree.run_bind_eq hlook).trans (FileTree.run_bind_eq hfile)

theorem run_get_error {fault : OsFault} (hdir : tree.isDir cwd (pathFor root key).text = false)
    (hread : tree.read cwd (pathFor root key).text = .error fault) (hreal : fault ≠ .notFound) :
    FileTree.run cwd (get root key) tree = (.error (.os fault), tree) := by
  have hlook : FileTree.run cwd (Files.isDir (pathFor root key)) tree = (false, tree) := by
    rw [FileTree.run_isDir, hdir]
  have hfile : FileTree.run cwd (Files.read (pathFor root key)) tree = (.error fault, tree) := by
    rw [FileTree.run_read, hread]
  refine (FileTree.run_bind_eq hlook).trans ((FileTree.run_bind_eq hfile).trans ?_)
  cases fault with
  | notFound => exact absurd rfl hreal
  | _ => rfl

theorem run_delete_ok (hremove : tree.remove cwd (pathFor root key).text = .ok after) :
    FileTree.run cwd (delete root key) tree = (.ok (), after) := by
  have hfile : FileTree.run cwd (Files.remove (pathFor root key)) tree = (.ok (), after) := by
    rw [FileTree.run_remove, hremove]
    rfl
  exact FileTree.run_bind_eq hfile

theorem run_delete_missing
    (hremove : tree.remove cwd (pathFor root key).text = .error .notFound) :
    FileTree.run cwd (delete root key) tree = (.ok (), tree) := by
  have hfile : FileTree.run cwd (Files.remove (pathFor root key)) tree =
      (.error .notFound, tree) := by
    rw [FileTree.run_remove, hremove]
    rfl
  exact FileTree.run_bind_eq hfile

theorem run_delete_error {fault : OsFault}
    (hremove : tree.remove cwd (pathFor root key).text = .error fault)
    (hreal : fault ≠ .notFound) :
    FileTree.run cwd (delete root key) tree = (.error (.os fault), tree) := by
  have hfile : FileTree.run cwd (Files.remove (pathFor root key)) tree = (.error fault, tree) := by
    rw [FileTree.run_remove, hremove]
    rfl
  refine (FileTree.run_bind_eq hfile).trans ?_
  cases fault with
  | notFound => exact absurd rfl hreal
  | _ => rfl

theorem run_put_ok {parent : Path} {made written : FileTree}
    (hparent : (pathFor root key).parent? = some parent)
    (hmake : FileTree.run cwd (Files.makeDirAll parent) tree = (.ok (), made))
    (hwrite : made.write cwd (parent.join (temporaryName stamp)).text value = .ok written)
    (hrename : written.rename cwd (parent.join (temporaryName stamp)).text (pathFor root key).text =
      .ok after) :
    FileTree.run cwd (put root stamp key value) tree = (.ok (), after) := by
  have hsecond : FileTree.run cwd (Files.write (parent.join (temporaryName stamp)) value) made =
      (.ok (), written) := by
    rw [FileTree.run_write, hwrite]
    rfl
  have hthird : FileTree.run cwd (Files.rename (parent.join (temporaryName stamp))
      (pathFor root key)) written = (.ok (), after) := by
    rw [FileTree.run_rename, hrename]
    rfl
  rw [put, hparent]
  dsimp only
  rw [FileTree.run_bind_eq hmake]
  dsimp only
  rw [FileTree.run_bind_eq hsecond]
  dsimp only
  rw [FileTree.run_bind_eq hthird]
  rfl

/-- A value is put where the way to its place is open and no file stands in that of the temporary
file. -/
theorem run_put_of_open (hroot : tree.Reaches cwd root location) {front : List String}
    {last : String} (hsplit : key.segments = front ++ [last])
    (hfits : FileTree.Fits root key.segments)
    (hspare : FileTree.Fits (root.seat front) (front ++ [temporaryName stamp]))
    (hsize : root.text.utf8ByteSize + Path.sizeOf front < FileTree.pathMax)
    (hlinks : tree.NoLinks location) (hopen : tree.Open location front)
    (hfree : tree.Free (below location key.segments))
    (hnone : tree.lookup (below location (front ++ [temporaryName stamp])) = none)
    (hne : temporaryName stamp ≠ last) (value : ByteArray) :
    ∃ made after id mode, FileTree.run cwd (put root stamp key value) tree = (.ok (), after) ∧
      tree.Made made location front ∧
      made.Alters after (below location key.segments) (some (.file id value mode)) ∧
      (made.Distinct location → after.Distinct location) := by
  have hempty := (FileTree.reaches_iff.1 hroot).2.1
  rw [hsplit] at hfits hfree
  obtain ⟨hplain, hlast⟩ := List.forall_mem_append.1 hfits.plain
  have hnamed := (List.forall_mem_append.1 hfits.named).1
  -- The directories are made.
  obtain ⟨made, hmake, hmade⟩ := hroot.run_makeDirAll hplain hnamed hopen hlinks hsize
  have hreach := hroot.mono (hmade.keeps hopen)
  have hlinksMade := hlinks.of_made hmade
  have hother {name : String} : made.lookup (below location (front ++ [name])) =
      tree.lookup (below location (front ++ [name])) := by
    refine hmade.others _ (FileTree.below_ne_nil location (by simp)) fun part hpart _ heq => ?_
    have hlength := hpart.length_le
    rw [← FileTree.below_injective heq, List.length_append, List.length_singleton] at hlength
    omega
  have hfreeMade : made.Free (below location (front ++ [last])) := fun entry hfound =>
    hfree entry (hother ▸ hfound)
  -- The temporary file is written, and moved.
  have hnoneMade := hother.trans hnone
  obtain ⟨written, id, mode, hwrite, hwritten, hdistinct⟩ := hspare.write (hreach.seat front)
    hmade.dirs hlinksMade (FileTree.free_of_none hnoneMade) value
  obtain ⟨after, hrename, halters, hdistinct'⟩ := hwritten.rename hreach (hreach.seat front)
    hmade.dirs hlinksMade hfits hspare hne hnoneMade hfreeMade
  rw [Path.joins_concat] at hwrite hrename
  rw [← hsplit] at hrename halters
  refine ⟨made, after, id, mode, run_put_ok ?_ hmake hwrite hrename, hmade, halters,
    fun hbefore => hdistinct' (hdistinct hbefore)⟩
  rw [pathFor_eq, hsplit]
  exact Path.parent?_joins hempty hplain (hlast last List.mem_cons_self)

end Runs

/-! ## What the invariant says -/

namespace Holds

variable (h : Holds keys location tree contents)
include h

theorem accounted {names : List String} {entry : FileEntry} (hsome : names ≠ [])
    (hfound : tree.lookup (below location names) = some entry) :
    Accounted keys contents names entry := by
  obtain ⟨others, hplace, haccounted⟩ := h.only (by simpa using hsome) hfound
  rwa [(List.map_inj_right fun _ _ => FileName.named.inj).1 hplace]

theorem noLinks : tree.NoLinks location := by
  intro names text hsome hfound
  generalize hentry : FileEntry.link text = entry at hfound
  cases h.accounted hsome hfound <;> cases hentry

theorem lookup_none (hkeys : Fileable root keys) (hkey : keys key) (hnone : contents key = none) :
    tree.lookup (below location key.segments) = none := by
  by_contra hsome
  obtain ⟨entry, hfound⟩ := Option.ne_none_iff_exists'.1 hsome
  generalize hnames : key.segments = names at hfound
  cases h.accounted (hnames ▸ key.segments_ne_nil) hfound with
  | folder known above proper =>
      subst hnames
      exact proper (congrArg BlobKey.segments (hkeys.apart hkey known above))
  | file id mode stored =>
      obtain rfl := BlobKey.segments_injective hnames
      rw [hnone] at stored
      cases stored

theorem isOpen (hkeys : Fileable root keys) (hkey : keys key) {front : List String}
    {last : String} (hsplit : key.segments = front ++ [last]) : tree.Open location front := by
  intro part hpart hsome
  cases hfound : tree.lookup (below location part) with
  | none => exact .inl rfl
  | some entry =>
      cases h.accounted hsome hfound with
      | folder => exact .inr rfl
      | file id mode stored =>
          have habove := hpart.trans (hsplit ▸ List.prefix_append front [last])
          obtain rfl := hkeys.apart (h.known stored) hkey habove
          have := hpart.length_le
          rw [hsplit, List.length_append, List.length_singleton] at this
          omega

theorem not_temporary (hkeys : Fileable root keys) {names : List String} {entry : FileEntry}
    (hsome : names ≠ []) (hfound : tree.lookup (below location names) = some entry) :
    ∀ name ∈ names, temporaryStart.toList.isPrefixOf name.toList = false := by
  intro name hname
  cases h.accounted hsome hfound with
  | folder known above proper => exact hkeys.lasting known name (above.subset hname)
  | file id mode stored => exact hkeys.lasting (h.known stored) name hname

theorem lookup_temporary (hkeys : Fileable root keys) (front : List String) (stamp : WriterStamp) :
    tree.lookup (below location (front ++ [temporaryName stamp])) = none := by
  by_contra hsome
  obtain ⟨entry, hfound⟩ := Option.ne_none_iff_exists'.1 hsome
  have := h.not_temporary hkeys (by simp) hfound (temporaryName stamp) (by simp)
  rw [isPrefixOf_temporaryName] at this
  cases this

theorem look (hkeys : Fileable root keys) (hroot : tree.Reaches cwd root location)
    (hkey : keys key) :
    (∃ front last, key.segments = front ++ [last] ∧ tree.HasDirs location front ∧
        tree.Finds cwd (pathFor root key) (below location front) (.named last)) ∨
      FileTree.hasFinalSlash (pathFor root key).text = false ∧
        (pathFor root key).text.utf8ByteSize < FileTree.pathMax ∧
        (∀ f, tree.resolve f cwd (pathFor root key).text = .error .notFound) ∧
        contents key = none := by
  obtain ⟨front, last, hsplit⟩ := key.exists_segments
  have hplain := hkeys.isPlain hkey
  have hnamed := hkeys.isName hkey
  have hsize := (hkeys.fits_path hkey).size
  have hslash := FileTree.hasFinalSlash_joins (FileTree.reaches_iff.1 hroot).2.1 hplain
    key.segments_ne_nil
  rw [pathFor_eq]
  rcases FileTree.hasDirs_or_missing (fun name hname => hnamed name (by simp [hsplit, hname]))
    (h.isOpen hkeys hkey hsplit) with hdirs | ⟨above, missing, rest, rfl, hdirs, hnone⟩
  · refine .inl ⟨front, last, hsplit, hdirs, ?_⟩
    rw [hsplit] at hplain hsize ⊢
    exact hroot.finds hplain hsize hdirs (hnamed last (by simp [hsplit])) h.noLinks
  · refine .inr ⟨hslash, hsize, fun f => ?_, ?_⟩
    · rw [hsplit, List.append_assoc, List.cons_append] at hplain hsize ⊢
      exact hroot.resolve_missing hplain hsize hdirs (hnamed missing (by simp [hsplit])) hnone
        (by simp) f
    · by_contra hstored
      obtain ⟨value, hvalue⟩ := Option.ne_none_iff_exists'.1 hstored
      have hfolders := h.folders hvalue
      rw [hsplit, List.dropLast_concat] at hfolders
      rw [hfolders.dirs (above ++ [missing]) ⟨rest, by simp⟩ (by simp)] at hnone
      cases hnone

theorem look_some (hkeys : Fileable root keys) (hroot : tree.Reaches cwd root location)
    (hkey : keys key) {value : ByteArray} (hvalue : contents key = some value) :
    ∃ front last id mode, key.segments = front ++ [last] ∧
      tree.Finds cwd (pathFor root key) (below location front) (.named last) ∧
      tree.lookup (below location front ++ [.named last]) = some (.file id value mode) := by
  rcases h.look hkeys hroot hkey with ⟨front, last, hsplit, -, hfinds⟩ | ⟨-, -, -, hnone⟩
  · obtain ⟨id, mode, hfound⟩ := h.file hvalue
    rw [hsplit, FileTree.below_concat] at hfound
    exact ⟨front, last, id, mode, hsplit, hfinds, hfound⟩
  · rw [hvalue] at hnone
    cases hnone

theorem read (hkeys : Fileable root keys) (hroot : tree.Reaches cwd root location)
    (hkey : keys key) {value : ByteArray} (hvalue : contents key = some value) :
    tree.read cwd (pathFor root key).text = .ok value := by
  obtain ⟨front, last, id, mode, -, hfinds, hfound⟩ := h.look_some hkeys hroot hkey hvalue
  exact hfinds.read_file hfound

/-! ## The point calls -/

theorem run_get (hkeys : Fileable root keys) (hroot : tree.Reaches cwd root location)
    (hkey : keys key) : FileTree.run cwd (get root key) tree = (.ok (contents key), tree) := by
  cases hvalue : contents key with
  | none =>
      rcases h.look hkeys hroot hkey with
        ⟨front, last, hsplit, -, hfinds⟩ | ⟨-, -, hresolve, -⟩
      · have hfound := h.lookup_none hkeys hkey hvalue
        rw [hsplit, FileTree.below_concat] at hfound
        exact run_get_missing (by rw [hfinds.isDir, hfound]; rfl) (hfinds.read_none hfound)
      · exact run_get_missing (by rw [FileTree.isDir, hresolve]) (by rw [FileTree.read, hresolve])
  | some value =>
      obtain ⟨front, last, id, mode, -, hfinds, hfound⟩ := h.look_some hkeys hroot hkey hvalue
      exact run_get_ok (by rw [hfinds.isDir, hfound]; rfl) (hfinds.read_file hfound)

theorem run_delete_none (hkeys : Fileable root keys) (hroot : tree.Reaches cwd root location)
    (hkey : keys key) (hnone : contents key = none) :
    FileTree.run cwd (delete root key) tree = (.ok (), tree) := by
  refine run_delete_missing ?_
  rcases h.look hkeys hroot hkey with
    ⟨front, last, hsplit, -, hfinds⟩ | ⟨hslash, hsize, hresolve, -⟩
  · have hfound := h.lookup_none hkeys hkey hnone
    rw [hsplit, FileTree.below_concat] at hfound
    exact hfinds.remove_none hfound
  · rw [FileTree.remove, FileTree.resolveName, if_neg (Nat.not_le.2 hsize),
      FileTree.withoutFinalSlash_eq hslash, hresolve]

theorem run_delete_some (hkeys : Fileable root keys) (hroot : tree.Reaches cwd root location)
    (hkey : keys key) {value : ByteArray} (hvalue : contents key = some value) :
    FileTree.run cwd (delete root key) tree =
      (.ok (), tree.unset (below location key.segments)) := by
  refine run_delete_ok ?_
  obtain ⟨front, last, id, mode, hsplit, hfinds, hfound⟩ := h.look_some hkeys hroot hkey hvalue
  rw [hsplit, FileTree.below_concat]
  exact hfinds.remove_file hfound

theorem free (hkeys : Fileable root keys) (hkey : keys key) :
    tree.Free (below location key.segments) := by
  cases hvalue : contents key with
  | none => exact FileTree.free_of_none (h.lookup_none hkeys hkey hvalue)
  | some value =>
      obtain ⟨id, mode, hfile⟩ := h.file hvalue
      exact FileTree.free_of_file hfile

theorem update (hkeys : Fileable root keys) (hkey : keys key) {value : Option ByteArray}
    (hfolders : value.isSome → tree.HasDirs location key.segments.dropLast) (id mode : Nat)
    (halters : tree.Alters after (below location key.segments)
      (value.map fun content => .file id content mode))
    (hdistinct : after.Distinct location) :
    Holds keys location after (Function.update contents key value) := by
  have hkept : tree.Keeps after := halters.keeps (h.free hkeys hkey)
  have hcases {other : BlobKey} {content : ByteArray}
      (hupdate : Function.update contents key value other = some content) :
      other = key ∧ value = some content ∨ other ≠ key ∧ contents other = some content := by
    by_cases heq : other = key
    · subst heq
      exact .inl ⟨rfl, by simpa using hupdate⟩
    · exact .inr ⟨heq, by rwa [Function.update_of_ne heq] at hupdate⟩
  have hplace := halters.lookup_self (FileTree.below_ne_nil location key.segments_ne_nil)
  refine ⟨fun {other content} hupdate => ?_, fun {other content} hupdate => ?_,
    fun {other content} hupdate => ?_, fun {place entry} hsome hfound => ?_, hdistinct⟩
  · rcases hcases hupdate with ⟨rfl, -⟩ | ⟨-, hold⟩
    · exact hkey
    · exact h.known hold
  · rcases hcases hupdate with ⟨rfl, rfl⟩ | ⟨hne, hold⟩
    · exact ⟨id, mode, hplace⟩
    · obtain ⟨id, mode, hstored⟩ := h.file hold
      refine ⟨id, mode, ?_⟩
      rw [halters.lookup_of_ne fun heq =>
        hne (BlobKey.segments_injective (FileTree.below_injective heq)), hstored]
  · rcases hcases hupdate with ⟨rfl, hnew⟩ | ⟨-, hold⟩
    · exact (hfolders (Option.isSome_of_eq_some hnew)).mono hkept
    · exact (h.folders hold).mono hkept
  · by_cases hat : location ++ place = below location key.segments
    · rw [hat, hplace] at hfound
      obtain ⟨content, rfl, rfl⟩ := Option.map_eq_some_iff.1 hfound
      exact ⟨key.segments, List.append_cancel_left hat, .file id mode (by simp)⟩
    · rw [halters.lookup_of_ne hat] at hfound
      obtain ⟨names, hnames, haccounted⟩ := h.only hsome hfound
      refine ⟨names, hnames, ?_⟩
      cases haccounted with
      | folder known above proper => exact .folder known above proper
      | @file other content id mode stored =>
          have hne : other ≠ key := fun heq => hat (by rw [hnames, heq]; rfl)
          exact .file id mode (by rwa [Function.update_of_ne hne])

theorem unset (hkeys : Fileable root keys) (hkey : keys key) :
    Holds keys location (tree.unset (below location key.segments))
      (Function.update contents key none) :=
  h.update hkeys hkey (by simp) 0 0 (FileTree.alters_unset tree _) (h.distinct.unset _)

theorem made (hkeys : Fileable root keys) (hkey : keys key) {front : List String} {last : String}
    (hsplit : key.segments = front ++ [last]) (hmade : tree.Made after location front) :
    Holds keys location after contents where
  known := h.known
  file {other value} hvalue := by
    obtain ⟨id, mode, hfile⟩ := h.file hvalue
    refine ⟨id, mode, ?_⟩
    rw [hmade.others _ (FileTree.below_ne_nil location other.segments_ne_nil) ?_, hfile]
    rintro part hpart hsome heq
    rw [FileTree.below_injective heq] at hfile
    rcases h.isOpen hkeys hkey hsplit part hpart hsome with hnone | hdir
    · rw [hnone] at hfile
      cases hfile
    · rw [hdir] at hfile
      cases hfile
  folders hvalue := (h.folders hvalue).mono (hmade.keeps (h.isOpen hkeys hkey hsplit))
  only {place entry} hsome hfound := by
    by_cases hway : ∃ part, part <+: front ∧ part ≠ [] ∧ location ++ place = below location part
    · obtain ⟨part, hpart, hpartial, heq⟩ := hway
      rw [heq, hmade.dirs.dirs part hpart hpartial] at hfound
      cases hfound
      refine ⟨part, List.append_cancel_left heq, .folder hkey ?_ fun hall => ?_⟩
      · exact hpart.trans (hsplit ▸ List.prefix_append front [last])
      · have := hpart.length_le
        rw [hall, hsplit, List.length_append, List.length_singleton] at this
        omega
    · rw [hmade.others _ (by simp [hsome]) fun part hpart hpartial heq =>
        hway ⟨part, hpart, hpartial, heq⟩] at hfound
      exact h.only hsome hfound
  distinct := hmade.distinct h.distinct

theorem run_makeDirs (hkeys : Fileable root keys) (hroot : tree.Reaches cwd root location)
    (hkey : keys key) {front : List String} {last : String}
    (hsplit : key.segments = front ++ [last]) :
    (pathFor root key).parent? = some ((root.seat front).joins front) ∧
      ∃ made, FileTree.run cwd (Files.makeDirAll ((root.seat front).joins front)) tree =
          (.ok (), made) ∧
        tree.Keeps made ∧ made.HasDirs location front ∧ Holds keys location made contents := by
  have hempty := (FileTree.reaches_iff.1 hroot).2.1
  have hfront : front <+: key.segments := hsplit ▸ List.prefix_append front [last]
  have hfits := hkeys.fits_front hkey hfront
  have hopen := h.isOpen hkeys hkey hsplit
  obtain ⟨made, hmake, hmade⟩ := hroot.run_makeDirAll hfits.plain hfits.named hopen h.noLinks
    (hkeys.size_front hkey hfront)
  refine ⟨?_, made, hmake, hmade.keeps hopen, hmade.dirs, h.made hkeys hkey hsplit hmade⟩
  rw [pathFor_eq, hsplit]
  exact Path.parent?_joins hempty hfits.plain (hkeys.isPlain hkey last (by simp [hsplit]))

/-- When the temporary file beside a key is moved into its place, the key has the value in it. -/
theorem rename_temporary (hkeys : Fileable root keys) (hroot : tree.Reaches cwd root location)
    (hkey : keys key) {front : List String} {last : String}
    (hsplit : key.segments = front ++ [last]) (hdirs : tree.HasDirs location front)
    {stamp : WriterStamp} (hstamp : Bounded stamp) {written : FileTree} {id mode : Nat}
    {value : ByteArray}
    (hwritten : tree.Alters written (below location (front ++ [temporaryName stamp]))
      (some (.file id value mode)))
    (hdistinct : written.Distinct location) :
    ∃ after, written.rename cwd (((root.seat front).joins front).join (temporaryName stamp)).text
        (pathFor root key).text = .ok after ∧
      Holds keys location after (Function.update contents key (some value)) ∧
      tree.Keeps after := by
  have hempty := (FileTree.reaches_iff.1 hroot).2.1
  have hfits := hkeys.fits_path hkey
  have hspare := hkeys.fits_temporary hempty hkey hsplit hstamp
  have hfree := h.free hkeys hkey
  have hne := hkeys.temporaryName_notMem hkey stamp
  rw [hsplit] at hfits hfree hne
  obtain ⟨after, hrename, halters, hdistinct'⟩ :=
    hwritten.rename hroot (hroot.seat front) hdirs h.noLinks hfits hspare
      (fun heq => hne (by simp [heq])) (h.lookup_temporary hkeys front stamp) hfree
  rw [Path.joins_concat, ← hsplit] at hrename
  rw [← hsplit] at halters hfree
  refine ⟨after, hrename, ?_, halters.keeps hfree⟩
  refine h.update hkeys hkey (fun _ => ?_) id mode halters (hdistinct' hdistinct)
  rw [hsplit, List.dropLast_concat]
  exact hdirs

/-- A value is put under its key, and the temporary file is gone. -/
theorem run_put (hkeys : Fileable root keys) (hroot : tree.Reaches cwd root location)
    (hkey : keys key) {stamp : WriterStamp} (hstamp : Bounded stamp) (value : ByteArray) :
    ∃ after, FileTree.run cwd (put root stamp key value) tree = (.ok (), after) ∧
      Holds keys location after (Function.update contents key (some value)) ∧
      tree.Keeps after := by
  obtain ⟨front, last, hsplit⟩ := key.exists_segments
  have hspare := hkeys.fits_temporary (FileTree.reaches_iff.1 hroot).2.1 hkey hsplit hstamp
  have hopen := h.isOpen hkeys hkey hsplit
  have hne : temporaryName stamp ≠ last := fun heq =>
    hkeys.temporaryName_notMem hkey stamp (by simp [hsplit, heq])
  obtain ⟨made, after, id, mode, hrun, hmade, halters, hdistinct⟩ :=
    run_put_of_open hroot hsplit (hkeys.fits_path hkey) hspare
      (hkeys.size_front hkey (hsplit ▸ List.prefix_append front [last])) h.noLinks hopen
      (h.free hkeys hkey) (h.lookup_temporary hkeys front stamp) hne value
  have hholds := h.made hkeys hkey hsplit hmade
  refine ⟨after, hrun, hholds.update hkeys hkey (fun _ => ?_) id mode halters
    (hdistinct hholds.distinct), (hmade.keeps hopen).trans (halters.keeps (hholds.free hkeys hkey))⟩
  rw [hsplit, List.dropLast_concat]
  exact hmade.dirs

end Holds

end DirectoryStore

end Handoff
