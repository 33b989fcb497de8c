import Handoff.Proofs.Directory.Remains
import Handoff.Proofs.Directory.Showing
/-!
# Keys without a value

A look at a key without a value finds nothing, unless a file stands where a folder above the key
would be.  A removal of such a key fails there too, and where a folder stands in the place of the
key itself.
-/

namespace Handoff

namespace BlobKey

theorem Valid.of_prefix {key : BlobKey} {front : List String} (h : key.Valid)
    (hfront : front <+: key.segments) (hsome : front ≠ []) :
    (BlobKey.mk ("/".intercalate front)).Valid := by
  have hsegments : segmentsOf ("/".intercalate front) = front :=
    segmentsOf_intercalate hsome fun segment hsegment =>
      slash_notMem_of_mem_segmentsOf (hfront.subset hsegment)
  have hfaults : front.findSome? segmentFault? = none :=
    List.findSome?_eq_none_iff.2 fun segment hsegment =>
      h.segmentFault?_eq_none segment (hfront.subset hsegment)
  have hempty : "/".intercalate front ≠ "" := by
    intro hempty
    rw [hempty] at hsegments
    rw [← hsegments] at hfaults
    exact absurd hfaults (by decide)
  obtain ⟨more, hmore⟩ := hfront
  have htext : ∃ rest, key.text = "/".intercalate front ++ rest := by
    rw [← key.intercalate_segments, ← hmore]
    by_cases hlast : more = []
    · exact ⟨"", by simp [hlast]⟩
    · rw [String.intercalate_append_of_ne_nil hsome hlast, String.append_assoc]
      exact ⟨_, rfl⟩
  obtain ⟨rest, htext⟩ := htext
  have hsize : ¬maxBytes < ("/".intercalate front).utf8ByteSize := by
    have hshort : ¬maxBytes < key.text.utf8ByteSize := by
      rw [Valid, fault?] at h
      split_ifs at h
      assumption
    rw [htext, String.utf8ByteSize_append] at hshort
    omega
  have hcontrol : ("/".intercalate front).toList.any Text.isControl = false := by
    refine List.any_eq_false.2 fun c hc => ?_
    have hc' : c ∈ key.text.toList := by
      rw [htext, String.toList_append]
      exact List.mem_append_left _ hc
    simp [h.isControl c hc']
  rw [Valid, fault?, if_neg hempty, if_neg hsize, hcontrol, hsegments]
  exact hfaults

end BlobKey

namespace FileTree

variable {tree : FileTree} {cwd location : Location} {path : Path} {names rest : List String}

/-- All the names are those of directories, or there is a first that is missing or that of a
file. -/
theorem Ordinary.way (h : tree.Ordinary location) (hnamed : ∀ name ∈ names, IsName name) :
    tree.HasDirs location names ∨ ∃ front next rest, names = front ++ next :: rest ∧
      tree.HasDirs location front ∧ tree.Free (below location (front ++ [next])) := by
  induction names using List.reverseRecOn with
  | nil => exact .inl (hasDirs_nil tree location)
  | append_singleton names last ih =>
      obtain ⟨hnames, hlast⟩ := List.forall_mem_append.1 hnamed
      rcases ih hnames with hdirs | ⟨front, next, rest, rfl, hdirs, hfree⟩
      · by_cases hdirectory : tree.lookup (below location (names ++ [last])) = some .directory
        · exact .inl (hasDirs_concat.2 ⟨hdirs, hlast last List.mem_cons_self, hdirectory⟩)
        · exact .inr ⟨names, last, [], rfl, hdirs, h.free (by simp) hdirectory⟩
      · exact .inr ⟨front, next, rest ++ [last], by simp, hdirs, hfree⟩

theorem Reaches.resolve_behind (h : tree.Reaches cwd path location) {front : List String}
    {next : String} (hfits : Fits path (front ++ next :: rest))
    (hdirs : tree.HasDirs location front) {id mode : Nat} {content : ByteArray}
    (hfile : tree.lookup (below location (front ++ [next])) = some (.file id content mode))
    (hrest : rest ≠ []) (f : Bool) :
    tree.resolve f cwd (path.joins (front ++ next :: rest)).text = .error .notDirectory := by
  obtain ⟨left, hleft⟩ := h.resolve_joins
  obtain ⟨further, hfurther⟩ := (hdirs.leads left).follow_append
  have hnext : IsName next := hfits.named next (by simp)
  rw [below_concat] at hfile
  rw [hleft f _ (by simp) hfits.plain hfits.size, hfurther f _ (by simp),
    follow_cons_of_isName f hnext, hfile]
  simp [hrest]

theorem remove_of_error {text : String} {fault : OsFault} (hslash : hasFinalSlash text = false)
    (hsize : text.utf8ByteSize < pathMax) (h : tree.resolve false cwd text = .error fault) :
    tree.remove cwd text = .error fault := by
  rw [remove, resolveName, if_neg (Nat.not_le.2 hsize), withoutFinalSlash_eq hslash, h]

theorem Fits.mono {more : List String} (h : Fits path more) (hpath : path.text ≠ "")
    (hnames : names <+: more) (hsome : names ≠ []) : Fits path names where
  plain name hname := h.plain name (hnames.subset hname)
  named name hname := h.named name (hnames.subset hname)
  size := by
    have hshort := h.size
    have hlong := (path.joins more).sizeOf_pieces
    have hsize := (path.joins names).sizeOf_pieces
    have hplain := h.plain
    obtain ⟨rest, rfl⟩ := hnames
    have hfront : ∀ name ∈ names, Path.IsPlain name := fun name hname =>
      hplain name (List.mem_append_left rest hname)
    rw [Path.pieces_joins hpath hplain (by simp [hsome]), Path.sizeOf_append,
      Path.sizeOf_append] at hlong
    rw [Path.pieces_joins hpath hfront hsome, Path.sizeOf_append] at hsize
    omega

end FileTree

namespace DirectoryStore

open FileTree (below below_injective below_ne_nil)

variable {root : Path} {cwd location : Location} {tree : FileTree} {key : BlobKey}
  {names : List String} {contents : Contents} {known : BlobKey → Prop} {stamp : WriterStamp}

theorem fits_of_valid (hvalid : key.Valid)
    (hnames : ∀ segment ∈ key.segments, segment.utf8ByteSize ≤ FileTree.nameMax)
    (hshort : (pathFor root key).text.utf8ByteSize < FileTree.pathMax) :
    FileTree.Fits root key.segments where
  plain := (BlobKey.Built.checked hvalid).isPlain
  named segment hsegment :=
    ((BlobKey.Built.checked hvalid).isPlain segment hsegment).isName (hnames segment hsegment)
  size := hshort

/-! ## What is in the way -/

inductive Obstacle where
  | nothing
  /-- A file in the place of a folder above the key. -/
  | file
  /-- A folder in the place of the key itself. -/
  | folder
  deriving DecidableEq

namespace Obstacle

def onGet : Obstacle → Except StoreFault (Option ByteArray)
  | .file => .error (.os .notDirectory)
  | _ => .ok none

def onHas : Obstacle → Except StoreFault Bool
  | .file => .error (.os .notDirectory)
  | _ => .ok false

def onDelete : Obstacle → Except StoreFault Unit
  | .nothing => .ok ()
  | .file => .error (.os .notDirectory)
  | .folder => .error (.os .isDirectory)

end Obstacle

/-- Where the names end when they lead to no file. -/
inductive Obstructs (tree : FileTree) (location : Location) (names : List String) :
    Obstacle → Prop
  | nothing {front rest : List String} {missing : String} (split : names = front ++ missing :: rest)
      (dirs : tree.HasDirs location front)
      (absent : tree.lookup (below location (front ++ [missing])) = none) :
      Obstructs tree location names .nothing
  | file {front rest : List String} {next : String} {content : ByteArray} (id mode : Nat)
      (split : names = front ++ next :: rest) (further : rest ≠ [])
      (dirs : tree.HasDirs location front)
      (found : tree.lookup (below location (front ++ [next])) = some (.file id content mode)) :
      Obstructs tree location names .file
  | folder (dirs : tree.HasDirs location names) : Obstructs tree location names .folder

section Answers

variable {obstacle : Obstacle} (hroot : tree.Reaches cwd root location)
  (hlinks : tree.NoLinks location) (hfits : FileTree.Fits root key.segments)
  (h : Obstructs tree location key.segments obstacle)
include hroot hlinks hfits h

theorem run_get_of_obstructs :
    FileTree.run cwd (get root key) tree = (obstacle.onGet, tree) := by
  have hlook := run_get hroot hlinks hfits.plain hfits.size
  rw [hlook]
  have hnamed := hfits.named
  cases h with
  | nothing split dirs absent =>
      rw [split] at hnamed ⊢
      rw [FileTree.below_concat] at absent
      rw [peek_append dirs, peek_cons_of_isName (hnamed _ (by simp)), absent]
      rfl
  | file id mode split further dirs found =>
      rw [split] at hnamed ⊢
      rw [FileTree.below_concat] at found
      rw [peek_append dirs, peek_cons_of_isName (hnamed _ (by simp)), found]
      simp [further, DirectoryStore.found, Obstacle.onGet]
  | folder dirs =>
      have hpeek := peek_append dirs []
      rw [List.append_nil] at hpeek
      rw [hpeek]
      rfl

theorem run_has_of_obstructs :
    FileTree.run cwd (answer root stamp (.has key)) tree = (obstacle.onHas, tree) := by
  have hget := run_get_of_obstructs hroot hlinks hfits h
  rw [answer, FileTree.run_bind_eq hget]
  cases obstacle <;> rfl

theorem run_delete_of_obstructs :
    FileTree.run cwd (delete root key) tree = (obstacle.onDelete, tree) := by
  have hslash := FileTree.hasFinalSlash_joins (FileTree.reaches_iff.1 hroot).2.1 hfits.plain
    key.segments_ne_nil
  have hsize := hfits.size
  cases h with
  | @nothing front rest missing split dirs absent =>
      refine run_delete_missing ?_
      rw [pathFor_eq]
      rw [split] at hfits hslash hsize ⊢
      by_cases hlast : rest = []
      · subst hlast
        have hfinds := hfits.finds hroot dirs hlinks
        rw [FileTree.below_concat] at absent
        exact hfinds.remove_none absent
      · exact FileTree.remove_of_error hslash hsize (hroot.resolve_missing hfits.plain hsize dirs
          (hfits.named missing (by simp)) absent hlast false)
  | file id mode split further dirs found =>
      refine run_delete_error ?_ (by decide)
      rw [pathFor_eq]
      rw [split] at hfits hslash hsize ⊢
      exact FileTree.remove_of_error hslash hsize (hroot.resolve_behind hfits dirs found further
        false)
  | folder dirs =>
      refine run_delete_error ?_ (by decide)
      obtain ⟨front, last, hsplit⟩ := key.exists_segments
      rw [pathFor_eq]
      rw [hsplit] at hfits dirs ⊢
      obtain ⟨hfront, -, hdirectory⟩ := FileTree.hasDirs_concat.1 dirs
      have hfinds := hfits.finds hroot hfront hlinks
      rw [FileTree.below_concat] at hdirectory
      rw [FileTree.remove, hfinds.resolveName, FileTree.targetAt, hdirectory]

end Answers

/-! ## Which obstacle it is -/

/-- Where nothing but backed files and directories stand, a key without a value has no file. -/
theorem Backed.exists_obstructs (h : Backed known location tree contents)
    (hordinary : tree.Ordinary location)
    (hnamed : ∀ segment ∈ key.segments, FileTree.IsName segment) (hnone : contents key = none) :
    ∃ obstacle, Obstructs tree location key.segments obstacle := by
  rcases hordinary.way hnamed with hdirs | ⟨front, next, rest, hsplit, hdirs, hfree⟩
  · exact ⟨.folder, .folder hdirs⟩
  cases hfound : tree.lookup (below location (front ++ [next])) with
  | none => exact ⟨.nothing, .nothing hsplit hdirs hfound⟩
  | some entry =>
      obtain ⟨id, content, mode⟩ := hfree entry hfound
      by_cases hlast : rest = []
      · subst hlast
        have hfile := h _ _ (by simp) hfound
        rw [← hsplit] at hfile
        generalize hsegments : key.segments = names at hfile
        cases hfile with
        | file id mode stored =>
            obtain rfl := BlobKey.segments_injective hsegments
            rw [hnone] at stored
            cases stored
      · exact ⟨.file, .file id mode hsplit hlast hdirs hfound⟩

namespace Obstructs

variable {obstacle : Obstacle} {front : List String}

theorem eq_file (h : Obstructs tree location names obstacle)
    (htended : Tended root cwd location tree) (hfront : front <+: names) (hne : front ≠ names)
    (hsome : front ≠ []) {id mode : Nat} {content : ByteArray}
    (hfile : tree.lookup (below location front) = some (.file id content mode)) :
    obstacle = .file := by
  cases h with
  | file => rfl
  | folder dirs =>
      have hdirectory := dirs.dirs front hfront hsome
      rw [hfile] at hdirectory
      cases hdirectory
  | @nothing before rest missing split dirs absent =>
      have hmissing : before ++ [missing] <+: names := ⟨rest, by simp [split]⟩
      rcases List.prefix_or_prefix_of_prefix hfront hmissing with habove | hbehind
      · rcases List.prefix_concat_iff.1 habove with rfl | hbefore
        · rw [hfile] at absent
          cases absent
        · have hdirectory := dirs.dirs front hbefore hsome
          rw [hfile] at hdirectory
          cases hdirectory
      · obtain ⟨more, rfl⟩ := hbehind
        by_cases hmore : more = []
        · rw [hmore, List.append_nil, absent] at hfile
          cases hfile
        · rw [htended.lookup_append_eq_none (by simp) (by simp [absent]) hmore] at hfile
          cases hfile

theorem exists_front (h : Obstructs tree location names .file) :
    ∃ front id content mode, front <+: names ∧ front ≠ names ∧ front ≠ [] ∧
      tree.HasDirs location front.dropLast ∧
      tree.lookup (below location front) = some (.file id content mode) := by
  cases h with
  | @file before rest next content id mode split further dirs found =>
      refine ⟨before ++ [next], id, content, mode, ⟨rest, by simp [split]⟩, ?_, by simp,
        by rwa [List.dropLast_concat], found⟩
      intro hall
      rw [split] at hall
      have hlast := List.append_cancel_left hall
      exact further (List.cons.inj hlast).2.symm

theorem eq_folder_iff (h : Obstructs tree location names obstacle)
    (htended : Tended root cwd location tree) (hsome : names ≠ []) :
    obstacle = .folder ↔ tree.lookup (below location names) = some .directory := by
  cases h with
  | folder dirs => exact iff_of_true rfl (dirs.dirs names (List.prefix_refl _) hsome)
  | @nothing before rest missing split dirs absent =>
      refine iff_of_false (by simp) ?_
      rw [split, List.append_cons]
      by_cases hlast : rest = []
      · simp [hlast, absent]
      · rw [htended.lookup_append_eq_none (by simp) (by simp [absent]) hlast]
        simp
  | file id mode split further dirs found =>
      refine iff_of_false (by simp) ?_
      rw [split, List.append_cons,
        htended.lookup_append_eq_none (by simp) (by simp [found]) further]
      simp

end Obstructs

/-! ## Sessions -/

def PutIn (talk : Storage.Talk) (key : BlobKey) : Prop :=
  ∃ value answer, ⟨.put key value, answer⟩ ∈ talk

/-- The files of the session are accounted for by what was said so far. -/
structure Traced (root : Path) (location : Location) (talk : Storage.Talk) (session : Session) :
    Prop where
  recording : Recording root location (Contents.acknowledge (fun _ => none) talk) session
  backed : Backed (PutIn talk) location session.host.files
    (Contents.acknowledge (fun _ => none) talk)
  raised : ∀ key value, ⟨.put key value, .ok ()⟩ ∈ talk →
    session.host.files.HasDirs location key.segments.dropLast

namespace Traced

variable {talk : Storage.Talk} {session : Session} {calls : List StoreCall}

theorem answer (h : Traced root location talk session) {call : StoreCall}
    (hbuilt : ∀ key, call.key? = some key → key.Built) :
    Traced root location (talk ++ [⟨call, (Session.answer call session).1⟩])
      (Session.answer call session).2 := by
  have hrecording := h.recording.answer hbuilt
  obtain ⟨⟨hstore, hrecords⟩, hbacked, hraised⟩ := h
  obtain ⟨host, store⟩ := session
  obtain rfl : store = .directory root := hstore
  rcases hrun : FileTree.run host.cwd (DirectoryStore.answer root host.stamp.1 call) host.files with
    ⟨result, after⟩
  have hanswer := answer_directory hrun
  rw [hanswer] at hrecording ⊢
  have hknown : ∀ key value, call = .put key value → PutIn (talk ++ [⟨call, result⟩]) key := by
    rintro key value rfl
    exact ⟨value, result, by simp⟩
  have hmore : ∀ key, PutIn talk key → PutIn (talk ++ [⟨call, result⟩]) key := by
    rintro key ⟨value, given, hmem⟩
    exact ⟨value, given, List.mem_append_left _ hmem⟩
  obtain ⟨hkept, hafter, hdirs⟩ :=
    Backed.answer hrecords.tended (hbacked.mono hmore) hbuilt hknown hrun
  have hacknowledged : Contents.acknowledge (fun _ => none) (talk ++ [⟨call, result⟩]) =
      call.acknowledged result (Contents.acknowledge (fun _ => none) talk) := by
    rw [Contents.acknowledge, List.foldl_append]
    rfl
  refine ⟨by rwa [hacknowledged], by rwa [hacknowledged], fun key value hmem => ?_⟩
  rcases List.mem_append.1 hmem with hold | hnew
  · exact (hraised key value hold).mono hkept
  · exact hdirs key value (List.mem_singleton.1 hnew).symm

theorem served (h : Traced root location talk session)
    (hcalls : ∀ call ∈ calls, ∀ key, call.key? = some key → key.Built) :
    Traced root location (talk ++ Session.answer.serve calls session)
      (Session.answer.served calls session) := by
  induction calls generalizing talk session with
  | nil =>
      rw [StoreModel.serve, List.append_nil]
      exact h
  | cons call rest ih =>
      obtain ⟨hcall, hrest⟩ := List.forall_mem_cons.1 hcalls
      have hnext := ih (h.answer hcall) hrest
      rwa [List.append_assoc] at hnext

end Traced

theorem traced_empty {session : Session} (hstore : session.store = .directory root)
    (hroot : session.host.files.Reaches session.host.cwd root location)
    (hempty : ∀ place, place ≠ [] → session.host.files.lookup (location ++ place) = none) :
    Traced root location [] session where
  recording := ⟨hstore, records_empty hroot hempty⟩
  backed names entry hsome hfound := by
    have hnone := hempty (names.map .named) (by simpa using hsome)
    rw [below, hnone] at hfound
    cases hfound
  raised _ _ := nofun

section Answers

variable {session : Session} {talk : Storage.Talk} {calls : List StoreCall}

theorem Recording.answer_fst (h : Recording root location contents session) (call : StoreCall) :
    (Session.answer call session).1 = (FileTree.run session.host.cwd
      (DirectoryStore.answer root session.host.stamp.1 call) session.host.files).1 := by
  obtain ⟨host, store⟩ := session
  obtain ⟨rfl, -⟩ := h
  exact congrArg Prod.fst (answer_directory rfl)

theorem Traced.exists_stored (h : Traced root location talk session) (hvalid : key.Valid)
    (hfits : FileTree.Fits root key.segments)
    (hfile : Obstructs session.host.files location key.segments .file) :
    ∃ other value, other.Valid ∧ other ≠ key ∧ other.segments <+: key.segments ∧
      Contents.acknowledge (fun _ => none) talk other = some value ∧
      (Session.answer (.get other) session).1 = .ok (some value) := by
  have htended := h.recording.records.tended
  obtain ⟨front, id, content, mode, hfront, hne, hsome, hdirs, hfound⟩ := hfile.exists_front
  generalize hentry : FileEntry.file id content mode = entry at hfound
  cases h.backed front entry hsome hfound with
  | folder => cases hentry
  | @file other _ _ _ stored =>
      cases hentry
      have hother : other.Valid := by
        have hprefix := hvalid.of_prefix hfront hsome
        rwa [other.intercalate_segments] at hprefix
      refine ⟨other, content, hother, fun heq => hne (heq ▸ rfl), hfront, stored, ?_⟩
      have hpath := hfits.mono htended.root_ne_empty hfront hsome
      obtain ⟨names, last, hsplit⟩ := other.exists_segments
      have hpeek : peek session.host.files location other.segments = .ok (some content) := by
        rw [hsplit, List.dropLast_concat] at hdirs
        rw [hsplit] at hfound ⊢
        exact peek_file hdirs (hpath.named last (by simp [hsplit])) hfound
      rw [h.recording.answer_fst, DirectoryStore.answer,
        run_get htended.reaches htended.noLinks hpath.plain hpath.size, hpeek]
      rfl

theorem Traced.eq_file (h : Traced root location talk session) {obstacle : Obstacle}
    (hobstructs : Obstructs session.host.files location key.segments obstacle)
    (hfits : FileTree.Fits root key.segments) {other : BlobKey} {value : ByteArray}
    (hne : other ≠ key) (hfront : other.segments <+: key.segments)
    (hget : (Session.answer (.get other) session).1 = .ok (some value)) : obstacle = .file := by
  have htended := h.recording.records.tended
  have hpath := hfits.mono htended.root_ne_empty hfront other.segments_ne_nil
  rw [h.recording.answer_fst, DirectoryStore.answer,
    run_get htended.reaches htended.noLinks hpath.plain hpath.size] at hget
  have hpeek : peek session.host.files location other.segments = .ok (some value) := by
    cases hlook : peek session.host.files location other.segments with
    | ok found =>
        rw [hlook] at hget
        cases hget
        rfl
    | error fault =>
        rw [hlook] at hget
        cases hget
  obtain ⟨-, -, id, mode, -, -, -, hfile⟩ := exists_of_peek htended.ordinary hpath.plain hpeek
  exact hobstructs.eq_file htended hfront (fun heq => hne (BlobKey.segments_injective heq))
    other.segments_ne_nil hfile

/-- After any calls on a store that was empty at first, a valid key without a value is answered by
what is in its way.  Unless that is a file, a `get` finds nothing, and so a `has`; and only if
nothing is in its way, a `delete` succeeds.  The file is that of a stored key whose segments are
the first ones of the key, and the folder is on the way to a key that a value was to be put
under. -/
theorem missing_keys_answered (hstore : session.store = .directory root)
    (hroot : session.host.files.Reaches session.host.cwd root location)
    (hempty : ∀ place, place ≠ [] → session.host.files.lookup (location ++ place) = none)
    (hcalls : ∀ call ∈ calls, ∀ key, call.key? = some key → key.Built)
    (hvalid : key.Valid) (hnames : ∀ segment ∈ key.segments, segment.utf8ByteSize ≤ FileTree.nameMax)
    (hshort : (pathFor root key).text.utf8ByteSize < FileTree.pathMax)
    (hmissing : Contents.acknowledge (fun _ => none) (Session.answer.serve calls session) key =
      none) :
    let talk := Session.answer.serve calls session
    let after := Session.answer.served calls session
    ∃ obstacle : Obstacle, (Session.answer (.get key) after).1 = obstacle.onGet ∧
      (Session.answer (.has key) after).1 = obstacle.onHas ∧
      (Session.answer (.delete key) after).1 = obstacle.onDelete ∧
      (obstacle = .file ↔ ∃ other value, other.Valid ∧ other ≠ key ∧
        other.segments <+: key.segments ∧
        Contents.acknowledge (fun _ => none) talk other = some value ∧
        (Session.answer (.get other) after).1 = .ok (some value)) ∧
      (∀ other, Lasting other.segments → other ≠ key → other.segments <+: key.segments →
        (Contents.acknowledge (fun _ => none) talk other).isSome → obstacle = .file) ∧
      (obstacle = .folder ↔
        after.host.files.lookup (below location key.segments) = some .directory) ∧
      (obstacle = .folder →
        ∃ other, PutIn talk other ∧ other ≠ key ∧ key.segments <+: other.segments) ∧
      ∀ other value, ⟨.put other value, .ok ()⟩ ∈ talk → other ≠ key →
        key.segments <+: other.segments → obstacle = .folder := by
  intro talk after
  have htraced : Traced root location talk after :=
    (traced_empty hstore hroot hempty).served hcalls
  have hrecords := htraced.recording.records
  have htended := hrecords.tended
  have hfits := fits_of_valid hvalid hnames hshort
  obtain ⟨obstacle, hobstructs⟩ :=
    htraced.backed.exists_obstructs htended.ordinary hfits.named hmissing
  have hfolder := hobstructs.eq_folder_iff htended key.segments_ne_nil
  refine ⟨obstacle, ?_, ?_, ?_, ⟨?_, ?_⟩, ?_, hfolder, ?_, ?_⟩
  · rw [htraced.recording.answer_fst, DirectoryStore.answer,
      run_get_of_obstructs htended.reaches htended.noLinks hfits hobstructs]
  · rw [htraced.recording.answer_fst,
      run_has_of_obstructs htended.reaches htended.noLinks hfits hobstructs]
  · rw [htraced.recording.answer_fst, DirectoryStore.answer,
      run_delete_of_obstructs htended.reaches htended.noLinks hfits hobstructs]
  · rintro rfl
    exact htraced.exists_stored hvalid hfits hobstructs
  · rintro ⟨other, value, -, hne, hfront, -, hget⟩
    exact htraced.eq_file hobstructs hfits hne hfront hget
  · intro other hlasting hne hfront hstored
    obtain ⟨value, hvalue⟩ := Option.isSome_iff_exists.1 hstored
    have hshown : shown after.host.files location other = some value := by
      rw [hrecords.shown, lastingPart, if_pos hlasting, hvalue]
    have hget : (Session.answer (.get other) after).1 = .ok (some value) := by
      rw [htraced.recording.answer_fst, DirectoryStore.answer, hrecords.run_get hshown]
    exact htraced.eq_file hobstructs hfits hne hfront hget
  · intro hobstacle
    have hdirectory := hfolder.1 hobstacle
    generalize hentry : FileEntry.directory = entry at hdirectory
    generalize hsegments : key.segments = names at hdirectory
    cases htraced.backed names entry (hsegments ▸ key.segments_ne_nil) hdirectory with
    | @folder other _ hput habove hproper =>
        refine ⟨other, hput, fun heq => hproper (heq ▸ hsegments.symm), hsegments ▸ habove⟩
    | file => cases hentry
  · intro other value hput hne hbehind
    obtain ⟨rest, hsome, hrest⟩ := exists_rest hbehind hne
    have hdirs := htraced.raised other value hput
    rw [hrest, List.dropLast_append_of_ne_nil hsome] at hdirs
    exact hfolder.2 (hdirs.dirs key.segments (List.prefix_append _ _) key.segments_ne_nil)

end Answers

/-! ## One value -/

theorem fileable_of_short (hvalid : key.Valid) (hlasting : Lasting key.segments)
    (hfits : ∀ segment ∈ key.segments, segment.utf8ByteSize ≤ FileTree.nameMax)
    (hshort : key.text.utf8ByteSize < 3000) : Fileable ⟨"store"⟩ (· = key) where
  valid h := h ▸ hvalid
  apart ha hb _ := ha.trans hb.symm
  lasting h := h ▸ hlasting
  fits h := h ▸ hfits
  short h := by
    subst h
    have hroot : (Path.mk "store").text.utf8ByteSize = 5 := by decide
    have hname : FileTree.nameMax = 255 := rfl
    have hpath : FileTree.pathMax = 4096 := rfl
    omega

theorem serves_put (hkeys : Fileable ⟨"store"⟩ (· = key)) (value : ByteArray) :
    Session.answer.serve [.put key value] plainSession = [⟨.put key value, .ok ()⟩] ∧
      Serves ⟨"store"⟩ (· = key) [.named "store"]
        (Session.answer.served [.put key value] plainSession)
        (Function.update (fun _ => none) key (some value)) := by
  have hserves : Serves ⟨"store"⟩ (· = key) [.named "store"] plainSession fun _ => none :=
    ⟨rfl, plainFiles_reaches, holds_empty plainFiles_lookup, by decide⟩
  obtain ⟨hanswer, hafter⟩ := hserves.answer hkeys (.put key value) (by rintro _ ⟨⟩; rfl)
  refine ⟨?_, hafter⟩
  exact congrArg (fun answered => [(⟨.put key value, answered⟩ : Sigma Storage.Answer)]) hanswer

/-- A folder that was made for a value is in the way of a removal. -/
theorem missing_keys_answered_on_folder :
    plainSession.store = .directory ⟨"store"⟩ ∧
      plainSession.host.files.Reaches [] ⟨"store"⟩ [.named "store"] ∧
      (∀ place, place ≠ [] → plainSession.host.files.lookup ([.named "store"] ++ place) = none) ∧
      (⟨"a"⟩ : BlobKey).Valid ∧
      Session.answer.serve [.put ⟨"a/b"⟩ "x".toUTF8] plainSession =
        [⟨.put ⟨"a/b"⟩ "x".toUTF8, .ok ()⟩] ∧
      (Session.answer (.get ⟨"a"⟩)
        (Session.answer.served [.put ⟨"a/b"⟩ "x".toUTF8] plainSession)).1 = .ok none ∧
      (Session.answer (.has ⟨"a"⟩)
        (Session.answer.served [.put ⟨"a/b"⟩ "x".toUTF8] plainSession)).1 = .ok false ∧
      (Session.answer (.delete ⟨"a"⟩)
        (Session.answer.served [.put ⟨"a/b"⟩ "x".toUTF8] plainSession)).1 =
          .error (.os .isDirectory) := by
  have hkeys : Fileable ⟨"store"⟩ (· = ⟨"a/b"⟩) :=
    fileable_of_short (by decide) (by decide) (by decide) (by decide)
  obtain ⟨hserve, -⟩ := serves_put hkeys "x".toUTF8
  have hkey : BlobKey.Built ⟨"a/b"⟩ := .checked (by decide)
  have hmissing : Contents.acknowledge (fun _ => none)
      (Session.answer.serve [.put ⟨"a/b"⟩ "x".toUTF8] plainSession) ⟨"a"⟩ = none := by
    have hne : (⟨"a"⟩ : BlobKey) ≠ ⟨"a/b"⟩ := by decide
    rw [hserve]
    exact Function.update_of_ne hne (some "x".toUTF8) fun _ => none
  have hstore : plainSession.store = .directory ⟨"store"⟩ := rfl
  have hroot : plainSession.host.files.Reaches [] ⟨"store"⟩ [.named "store"] := plainFiles_reaches
  have hempty : ∀ place, place ≠ [] →
      plainSession.host.files.lookup ([.named "store"] ++ place) = none := plainFiles_lookup
  obtain ⟨obstacle, hget, hhas, hdelete, -, -, -, -, hput⟩ :=
    missing_keys_answered hstore hroot hempty (built_of_mem_put "x".toUTF8 hkey) (by decide)
      (by decide) (by decide) hmissing
  obtain rfl := hput ⟨"a/b"⟩ "x".toUTF8 (by rw [hserve]; simp) (by decide) (by decide)
  exact ⟨hstore, hroot, hempty, by decide, hserve, hget, hhas, hdelete⟩

/-- All calls about a key behind that of a stored value fail, though it never had a value. -/
theorem missing_key_refused :
    (⟨"a"⟩ : BlobKey).Valid ∧ (⟨"a/b"⟩ : BlobKey).Valid ∧
      Session.answer.serve [.put ⟨"a"⟩ "x".toUTF8] plainSession =
        [⟨.put ⟨"a"⟩ "x".toUTF8, .ok ()⟩] ∧
      (Session.answer (.get ⟨"a/b"⟩)
        (Session.answer.served [.put ⟨"a"⟩ "x".toUTF8] plainSession)).1 =
          .error (.os .notDirectory) ∧
      (Session.answer (.has ⟨"a/b"⟩)
        (Session.answer.served [.put ⟨"a"⟩ "x".toUTF8] plainSession)).1 =
          .error (.os .notDirectory) ∧
      (Session.answer (.delete ⟨"a/b"⟩)
        (Session.answer.served [.put ⟨"a"⟩ "x".toUTF8] plainSession)).1 =
          .error (.os .notDirectory) := by
  have hkeys : Fileable ⟨"store"⟩ (· = ⟨"a"⟩) :=
    fileable_of_short (by decide) (by decide) (by decide) (by decide)
  obtain ⟨hserve, hserves⟩ := serves_put hkeys "x".toUTF8
  have hfirst : Recording ⟨"store"⟩ [.named "store"] (fun _ => none) plainSession :=
    ⟨rfl, records_empty plainFiles_reaches plainFiles_lookup⟩
  have hbuilt : BlobKey.Built ⟨"a"⟩ := .checked (by decide)
  have hrecording := hfirst.served (built_of_mem_put "x".toUTF8 hbuilt)
  have hlinks := hserves.holds.noLinks
  have hfits : FileTree.Fits ⟨"store"⟩ (BlobKey.segments ⟨"a/b"⟩) :=
    fits_of_valid (by decide) (by decide) (by decide)
  -- The file of the stored value stands where the folder would be.
  obtain ⟨id, mode, hfile⟩ := hserves.holds.file (Function.update_self _ _ _)
  have hsplit : BlobKey.segments ⟨"a/b"⟩ = [] ++ "a" :: ["b"] := by decide
  have hobstructs := Obstructs.file id mode hsplit (by simp)
    (FileTree.hasDirs_nil _ [.named "store"]) hfile
  refine ⟨by decide, by decide, hserve, ?_, ?_, ?_⟩
  · rw [hrecording.answer_fst, DirectoryStore.answer,
      run_get_of_obstructs hserves.root hlinks hfits hobstructs]
    rfl
  · rw [hrecording.answer_fst, run_has_of_obstructs hserves.root hlinks hfits hobstructs]
    rfl
  · rw [hrecording.answer_fst, DirectoryStore.answer,
      run_delete_of_obstructs hserves.root hlinks hfits hobstructs]
    rfl

end DirectoryStore

end Handoff
