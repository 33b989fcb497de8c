import Handoff.Proofs.Archive.Readable
import Handoff.Proofs.Directory.Records
import Handoff.Proofs.Directory.Slots
import Handoff.Proofs.Round.Exchange
/-!
# Which units can have a status

A store that is a map keeps the status of every unit.  In a directory store the id is the name of
a directory, so there the status of a unit is kept exactly when its id can be such a name.
-/

namespace Handoff

namespace FileTree

variable {tree : FileTree} {cwd location : Location} {path : Path} {above : List Path}

theorem run_makeDirs_error {fault : OsFault} (hpath : path.text ≠ "")
    (h : tree.makeDir cwd path.text = .error fault) (hreal : fault ≠ .notFound)
    (hdir : tree.isDir cwd path.text = false) :
    run cwd (Files.makeDirs (path :: above)) tree = (.error fault, tree) := by
  have hmake : run cwd (Files.makeDir path) tree = (.error fault, tree) := by
    rw [run_makeDir, h]
    rfl
  have hlook : run cwd (Files.isDir path) tree = (false, tree) := by rw [run_isDir, hdir]
  rw [Files.makeDirs, if_neg hpath]
  refine (run_bind_eq hmake).trans ?_
  cases fault with
  | notFound => exact absurd rfl hreal
  | _ => exact run_bind_eq hlook

theorem Reaches.run_makeDirAll_too_long (h : tree.Reaches cwd path location) {name : String}
    (hplain : Path.IsPlain name) (hlong : nameMax < name.utf8ByteSize)
    (hsize : (path.joins [name]).text.utf8ByteSize < pathMax) :
    run cwd (Files.makeDirAll (path.joins [name])) tree = (.error .nameTooLong, tree) := by
  have hempty := (reaches_iff.1 h).2.1
  have hnames : ∀ piece ∈ [name], Path.IsPlain piece := List.forall_mem_singleton.2 hplain
  obtain ⟨left, hleft⟩ := h.resolve_joins
  have hresolve (f : Bool) :
      tree.resolve f cwd (path.joins [name]).text = .error .nameTooLong := by
    rw [hleft f [name] (by simp) hnames hsize, follow_name_too_long f left hplain hlong]
  refine run_makeDirs_error (Path.text_ne_empty_joins hempty hnames) ?_ (by decide) ?_
  · rw [makeDir, resolveName, if_neg (Nat.not_le.2 hsize),
      withoutFinalSlash_eq (hasFinalSlash_joins hempty hnames (by simp)), hresolve]
  · rw [isDir, hresolve]

end FileTree

namespace DirectoryStore

open FileTree (below)

variable {root : Path} {cwd location : Location} {tree : FileTree} {key : BlobKey}
  {stamp : WriterStamp} {front : List String} {last : String}

/-- In an empty directory a value is put under any key that can be a file there, and found. -/
theorem run_put_of_empty (hroot : tree.Reaches cwd root location)
    (hempty : ∀ place, place ≠ [] → tree.lookup (location ++ place) = none)
    (hsplit : key.segments = front ++ [last])
    (hplain : ∀ segment ∈ key.segments, Path.IsPlain segment)
    (hfits : ∀ segment ∈ key.segments, segment.utf8ByteSize ≤ FileTree.nameMax)
    (hsize : root.text.utf8ByteSize + key.text.utf8ByteSize + FileTree.nameMax + 2 <
      FileTree.pathMax)
    (hstamp : Bounded stamp) (hne : temporaryName stamp ≠ last) (value : ByteArray) :
    ∃ after, FileTree.run cwd (put root stamp key value) tree = (.ok (), after) ∧
      FileTree.run cwd (get root key) after = (.ok (some value), after) := by
  have htext := (FileTree.reaches_iff.1 hroot).2.1
  have hnone (names : List String) (hsome : names ≠ []) :
      tree.lookup (below location names) = none := hempty _ (by simpa using hsome)
  have hlinks : tree.NoLinks location := (records_empty hroot hempty).tended.noLinks
  have hopen : tree.Open location front := fun names _ hsome => .inl (hnone names hsome)
  have hnamed : ∀ segment ∈ key.segments, FileTree.IsName segment := fun segment hsegment =>
    (hplain segment hsegment).isName (hfits segment hsegment)
  -- The paths of the key and of the temporary file beside it are short.
  have hlength := key.size_segments
  rw [hsplit, Path.sizeOf_append] at hlength
  have hpath : FileTree.Fits root key.segments := {
    plain := hplain
    named := hnamed
    size := by
      have hjoined := Path.size_joins_le root key.segments
      rw [key.size_segments] at hjoined
      omega }
  have hspare : FileTree.Fits (root.seat front) (front ++ [temporaryName stamp]) := {
    plain := List.forall_mem_append.2 ⟨fun name hname => hplain name (by simp [hsplit, hname]),
      List.forall_mem_singleton.2 (isPlain_temporaryName stamp)⟩
    named := List.forall_mem_append.2 ⟨fun name hname => hnamed name (by simp [hsplit, hname]),
      List.forall_mem_singleton.2 (isName_temporaryName hstamp)⟩
    size := by
      have hjoined := Path.size_joins_le (root.seat front) (front ++ [temporaryName stamp])
      have hseat := Path.size_seat_le htext front
      have htemporary := size_temporaryName_le hstamp
      rw [Path.sizeOf_append] at hjoined
      simp only [Path.sizeOf, List.map_cons, List.map_nil, List.sum_cons, List.sum_nil]
        at hjoined hlength
      omega }
  obtain ⟨made, after, id, mode, hrun, hmade, halters, -⟩ := run_put_of_open hroot hsplit hpath
    hspare (by omega) hlinks hopen
    (FileTree.free_of_none (hnone _ key.segments_ne_nil)) (hnone _ (by simp)) hne value
  -- The file that is found is the one that was moved into place.
  have hfree : made.Free (below location key.segments) := by
    refine FileTree.free_of_none ((hmade.others _ ?_ ?_).trans (hnone _ key.segments_ne_nil))
    · exact FileTree.below_ne_nil location key.segments_ne_nil
    · intro names hnames _ heq
      have hshort := hnames.length_le
      rw [← FileTree.below_injective heq, hsplit, List.length_append, List.length_singleton]
        at hshort
      omega
  have hkept := halters.keeps hfree
  have hreach := hroot.mono ((hmade.keeps hopen).trans hkept)
  have hfile := halters.lookup_self (FileTree.below_ne_nil location key.segments_ne_nil)
  have hplaces : after.NoLinks location := halters.noLinks (hlinks.of_made hmade) (by simp)
  have hpeek : peek after location key.segments = .ok (some value) := by
    rw [hsplit] at hfile ⊢
    exact peek_file (hmade.dirs.mono hkept) (hnamed last (by simp [hsplit])) hfile
  refine ⟨after, hrun, ?_⟩
  rw [run_get hreach hplaces hplain hpath.size, hpeek]
  rfl

end DirectoryStore

/-! ## Writing and reading a status -/

namespace Archive

variable {σ : Type} {model : StoreModel σ} {id : WorkUnitId} {status : Status} {s t : σ}

/-- A status that is written for the unit is acknowledged, and is read afterwards. -/
def KeepsStatus (model : StoreModel σ) (s : σ) (id : WorkUnitId) (status : Status) : Prop :=
  ∃ after, model.run (writeStatus id status).run s = (.ok (), after) ∧
    (model.run (readStatus id).run after).1 = .ok (some status)

theorem keepsStatus_of_calls
    (hput : model (.put (BlobKey.status id) status.payload) s = (.ok (), t))
    (hget : (model (.get (BlobKey.status id)) t).1 = .ok (some status.payload)) :
    KeepsStatus model s id status := by
  refine ⟨t, hput, ?_⟩
  rw [run_readStatus]
  change (statusOf <$> (model (.get (BlobKey.status id)) t).1 : Except StoreFault _) = _
  rw [hget]
  exact congrArg Except.ok (statusOf_payload status)

theorem keepsStatus (map : KeyValue model) (s : σ) (id : WorkUnitId) (status : Status) :
    KeepsStatus model s id status := by
  refine keepsStatus_of_calls (map.put_eq _ _ s) ?_
  rw [map.get_eq, map.contents_snd, StoreCall.effect_put, Function.update_self]

end Archive

namespace DirectoryStore

open Archive (KeepsStatus keepsStatus writeStatus)

variable {root : Path} {location : Location} {session : Session}

theorem run_put_status_too_long {cwd : Location} {tree : FileTree} {id : WorkUnitId}
    (hroot : tree.Reaches cwd root location) (hlong : FileTree.nameMax < id.text.utf8ByteSize)
    (hshort : root.text.utf8ByteSize + 2 * FileTree.nameMax + 9 < FileTree.pathMax)
    (stamp : WriterStamp) (value : ByteArray) :
    FileTree.run cwd (put root stamp (BlobKey.status id) value) tree =
      (.error (.os .nameTooLong), tree) := by
  have htext := (FileTree.reaches_iff.1 hroot).2.1
  have hsplit : (BlobKey.status id).segments = [id.text] ++ [statusSegment] :=
    Slot.segments_status id
  have hplain : ∀ segment ∈ (BlobKey.status id).segments, Path.IsPlain segment :=
    BlobKey.Built.isPlain (.status id)
  rw [hsplit] at hplain
  have hunit : Path.IsPlain id.text := hplain id.text (by simp)
  have hparent : (pathFor root (BlobKey.status id)).parent? = some (root.joins [id.text]) := by
    rw [pathFor_eq, hsplit, Path.parent?_joins htext (List.forall_mem_singleton.2 hunit)
      (hplain statusSegment (by simp)), Path.seat, if_neg (by simp)]
  have hsize : (root.joins [id.text]).text.utf8ByteSize < FileTree.pathMax := by
    have hjoined := Path.size_joins_le root [id.text]
    have hid := (WorkUnitId.fault?_eq_none_iff.1 id.sound).2.1
    have hmax : WorkUnitId.maxBytes ≤ 2 * FileTree.nameMax := by decide
    simp only [Path.sizeOf, List.map_cons, List.map_nil, List.sum_cons, List.sum_nil] at hjoined
    omega
  rw [put, hparent]
  exact FileTree.run_bind_eq (hroot.run_makeDirAll_too_long hunit hlong hsize)

theorem run_writeStatus_too_long {id : WorkUnitId} (hstore : session.store = .directory root)
    (hroot : session.host.files.Reaches session.host.cwd root location)
    (hlong : FileTree.nameMax < id.text.utf8ByteSize)
    (hshort : root.text.utf8ByteSize + 2 * FileTree.nameMax + 9 < FileTree.pathMax)
    (status : Status) : (Session.answer.run (writeStatus id status).run session).1 =
      .error (.os .nameTooLong) := by
  obtain ⟨host, store⟩ := session
  obtain rfl : store = .directory root := hstore
  have hput : FileTree.run host.cwd (DirectoryStore.answer root host.stamp.1
      (.put (BlobKey.status id) status.payload)) host.files =
      (.error (.os .nameTooLong), host.files) :=
    run_put_status_too_long hroot hlong hshort host.stamp.1 status.payload
  exact congrArg Prod.fst (answer_directory hput)

/-- In an empty directory the status of a unit is kept when its id can be the name of a file. -/
theorem keepsStatus_of_fits {id : WorkUnitId} (hstore : session.store = .directory root)
    (hroot : session.host.files.Reaches session.host.cwd root location)
    (hempty : ∀ place, place ≠ [] → session.host.files.lookup (location ++ place) = none)
    (hshort : root.text.utf8ByteSize + 2 * FileTree.nameMax + 9 < FileTree.pathMax)
    (hprocess : session.host.process < 2 ^ 32) (hfits : id.text.utf8ByteSize ≤ FileTree.nameMax)
    (status : Status) : KeepsStatus Session.answer session id status := by
  obtain ⟨host, store⟩ := session
  obtain rfl : store = .directory root := hstore
  have hsplit : (BlobKey.status id).segments = [id.text] ++ [statusSegment] :=
    Slot.segments_status id
  have hstamp : Bounded host.stamp.1 := ⟨hprocess, Nat.mod_lt _ (by decide)⟩
  have hsizes : ∀ segment ∈ (BlobKey.status id).segments,
      segment.utf8ByteSize ≤ FileTree.nameMax := by
    rw [hsplit]
    exact List.forall_mem_cons.2 ⟨hfits, List.forall_mem_singleton.2 (by decide)⟩
  have hlength := BlobKey.size_status id
  have hlast : temporaryName host.stamp.1 ≠ statusSegment := fun heq => by
    have hprefix := isPrefixOf_temporaryName host.stamp.1
    rw [heq] at hprefix
    exact absurd hprefix (by decide)
  obtain ⟨files, hput, hget⟩ := run_put_of_empty hroot hempty hsplit
    (BlobKey.Built.isPlain (.status id)) hsizes (by omega) hstamp hlast status.payload
  have hwritten : FileTree.run host.cwd (DirectoryStore.answer root host.stamp.1
      (.put (BlobKey.status id) status.payload)) host.files = (.ok (), files) := hput
  have hread : FileTree.run (host.stamp.2.withFiles files).cwd (DirectoryStore.answer root
      (host.stamp.2.withFiles files).stamp.1 (.get (BlobKey.status id)))
      (host.stamp.2.withFiles files).files = (.ok (some status.payload), files) := hget
  refine Archive.keepsStatus_of_calls (answer_directory hwritten) ?_
  exact congrArg Prod.fst (answer_directory hread)

/-- Take a store that was just opened: in memory, in a table, or in an empty directory whose path
is short.  The first two keep the status of every unit.  The last keeps it exactly when the id is
no longer than the name of a file can be, and refuses to write it otherwise. -/
theorem status_kept_iff (id : WorkUnitId) (status : Status)
    (hstore : session.store = .directory root)
    (hroot : session.host.files.Reaches session.host.cwd root location)
    (hempty : ∀ place, place ≠ [] → session.host.files.lookup (location ++ place) = none)
    (hshort : root.text.utf8ByteSize + 2 * FileTree.nameMax + 9 < FileTree.pathMax)
    (hprocess : session.host.process < 2 ^ 32) :
    KeepsStatus MemoryStore.answer StringMap.empty id status ∧
      KeepsStatus BlobTable.answer [] id status ∧
      (KeepsStatus Session.answer session id status ↔
        id.text.utf8ByteSize ≤ FileTree.nameMax) ∧
      (FileTree.nameMax < id.text.utf8ByteSize →
        (Session.answer.run (writeStatus id status).run session).1 =
          .error (.os .nameTooLong)) := by
  have hrefused (hlong : FileTree.nameMax < id.text.utf8ByteSize) :=
    run_writeStatus_too_long hstore hroot hlong hshort status
  refine ⟨keepsStatus MemoryStore.keyValue _ id status, keepsStatus BlobTable.keyValue _ id status,
    ⟨fun hkeeps => ?_, fun hfits =>
      keepsStatus_of_fits hstore hroot hempty hshort hprocess hfits status⟩, hrefused⟩
  by_contra hlong
  obtain ⟨after, hok, -⟩ := hkeeps
  have hfault := hrefused (Nat.not_le.1 hlong)
  rw [hok] at hfault
  cases hfault

def wideUnit (size : Nat) (hsome : 5 < size) (hfits : size ≤ WorkUnitId.maxBytes) :
    WorkUnitId where
  text := String.ofList (List.replicate size 'x')
  sound := by
    have hne {text : String} (hshort : text.toList.length ≤ 5) :
        String.ofList (List.replicate size 'x') ≠ text := by
      rintro rfl
      rw [String.toList_ofList, List.length_replicate] at hshort
      omega
    refine WorkUnitId.fault?_eq_none_iff.2 ⟨hne (by decide), ?_,
      ⟨hne (by decide), hne (by decide), hne (by decide)⟩, fun c hc => ?_⟩
    · rwa [Archive.utf8ByteSize_replicate]
    · rw [String.toList_ofList] at hc
      obtain rfl := List.eq_of_mem_replicate hc
      decide

def widestUnit : WorkUnitId := wideUnit 255 (by decide) (by decide)

theorem status_kept_of_widest :
    plainSession.store = .directory ⟨"store"⟩ ∧
      plainSession.host.files.Reaches [] ⟨"store"⟩ [.named "store"] ∧
      (∀ place, place ≠ [] → plainSession.host.files.lookup ([.named "store"] ++ place) = none) ∧
      widestUnit.text.utf8ByteSize = FileTree.nameMax ∧
      KeepsStatus Session.answer plainSession widestUnit .failed := by
  have hstore : plainSession.store = .directory ⟨"store"⟩ := rfl
  have hroot : plainSession.host.files.Reaches [] ⟨"store"⟩ [.named "store"] := plainFiles_reaches
  have hempty : ∀ place, place ≠ [] →
      plainSession.host.files.lookup ([.named "store"] ++ place) = none := plainFiles_lookup
  have hsize : widestUnit.text.utf8ByteSize = FileTree.nameMax := Archive.utf8ByteSize_replicate 255
  have hkept := status_kept_iff widestUnit .failed hstore hroot hempty (by decide) (by decide)
  exact ⟨hstore, hroot, hempty, hsize, hkept.2.2.1.2 hsize.le⟩

def overlongUnit : WorkUnitId := wideUnit 256 (by decide) (by decide)

theorem overlong_status_refused :
    KeepsStatus MemoryStore.answer StringMap.empty overlongUnit .passed ∧
      ¬KeepsStatus Session.answer plainSession overlongUnit .passed ∧
      (Session.answer.run (writeStatus overlongUnit .passed).run plainSession).1 =
        .error (.os .nameTooLong) := by
  have hlong : FileTree.nameMax < overlongUnit.text.utf8ByteSize := by
    rw [show overlongUnit.text.utf8ByteSize = 256 from Archive.utf8ByteSize_replicate 256]
    decide
  have hshort : (⟨"store"⟩ : Path).text.utf8ByteSize + 2 * FileTree.nameMax + 9 <
      FileTree.pathMax := by decide
  have hstore : plainSession.store = .directory ⟨"store"⟩ := rfl
  have hroot : plainSession.host.files.Reaches plainSession.host.cwd ⟨"store"⟩ [.named "store"] :=
    plainFiles_reaches
  have hrefused := run_writeStatus_too_long hstore hroot hlong hshort .passed
  refine ⟨keepsStatus MemoryStore.keyValue _ _ _, fun hkeeps => ?_, hrefused⟩
  obtain ⟨after, hok, -⟩ := hkeeps
  rw [hok] at hrefused
  cases hrefused

end DirectoryStore

end Handoff
