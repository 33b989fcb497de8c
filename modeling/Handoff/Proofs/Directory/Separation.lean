import Handoff.Proofs.Directory.Agreement
import Handoff.Proofs.Directory.Sharing
import Handoff.Proofs.Files.Outcomes
/-!
# Writers that share a directory

When no temporary file is in the way of another process, the processes that share a directory
do not mix up their values, however they take turns: what is read under a key was put there,
and a write that succeeds has put its own value into place.
-/

namespace Handoff

namespace Sharing

open DirectoryStore (temporaryName temporaryName_injective isPlain_temporaryName pathFor
  pathFor_eq)
open FileTree (below below_injective below_ne_nil changed_cases)

variable {ι : Type} {clients : ι → Client} {location : Location}
  {files tree after : FileTree} {client : ι}

/-! ## What the processes share -/

def temporaryPlace (stamp : WriterStamp) (key : BlobKey) : List String :=
  key.segments.dropLast ++ [temporaryName stamp]

/-- The value was put under the key by some process, or stood there from the start. -/
def Passed (clients : ι → Client) (location : Location) (files : FileTree) (key : BlobKey)
    (value : ByteArray) : Prop :=
  (∃ client stamp, ⟨stamp, .put key value⟩ ∈ (clients client).errands) ∨
    ∃ id mode, files.lookup (below location key.segments) = some (.file id value mode)

/-- A rename by the process has put the value into the place of the key. -/
def Placed (clients : ι → Client) (client : ι) (history : List (Event ι)) (stamp : WriterStamp)
    (key : BlobKey) (value : ByteArray) : Prop :=
  ∃ temporary renamed, .asked client ⟨stamp, .put key value⟩
      (.rename temporary (pathFor (clients client).root key)) (.ok ()) renamed ∈ history ∧
    renamed.read (clients client).cwd (pathFor (clients client).root key).text = .ok value

/-- The roots of all processes are one directory, with nothing but directories and files below
it. -/
structure Shares (clients : ι → Client) (location : Location) (files : FileTree) : Prop where
  roots : ∀ client, files.Reaches (clients client).cwd (clients client).root location
  ordinary : files.Ordinary location
  built : ∀ {client errand key}, errand ∈ (clients client).errands →
    errand.call.key? = some key → key.Built

/-- Processes that share a temporary file put the same value, and no key leads to or through a
temporary file. -/
structure Apart (clients : ι → Client) : Prop where
  same : ∀ {a b stamp key other value content}, a ≠ b →
    ⟨stamp, .put key value⟩ ∈ (clients a).errands →
    ⟨stamp, .put other content⟩ ∈ (clients b).errands →
    key.segments.dropLast = other.segments.dropLast → value = content
  off : ∀ {a b stamp key value errand other}, ⟨stamp, .put key value⟩ ∈ (clients a).errands →
    errand ∈ (clients b).errands → errand.call.key? = some other →
    ¬temporaryPlace stamp key <+: other.segments

theorem temporaryPlace_ne_nil (stamp : WriterStamp) (key : BlobKey) :
    temporaryPlace stamp key ≠ [] := by
  simp [temporaryPlace]

theorem temporaryPlace_eq {stamp other : WriterStamp} {key key' : BlobKey}
    (h : temporaryPlace stamp key = temporaryPlace other key') :
    stamp = other ∧ key.segments.dropLast = key'.segments.dropLast := by
  obtain ⟨hfolder, hname⟩ := List.append_inj' h rfl
  exact ⟨temporaryName_injective (List.singleton_inj.1 hname), hfolder⟩

/-- A key does not lead through a temporary file when no segment of it is called like one. -/
theorem temporaryPlace_off {root : Path} {keys : BlobKey → Prop} {other : BlobKey}
    (hkeys : DirectoryStore.Fileable root keys) (hother : keys other) (stamp : WriterStamp)
    (key : BlobKey) : ¬temporaryPlace stamp key <+: other.segments := fun hbegins =>
  hkeys.temporaryName_notMem hother stamp
    (hbegins.subset (List.mem_append_right _ (List.mem_singleton_self _)))

/-! ## Changes of the files -/

/-- What a process may leave at a place: directories on the way to a key, its value in the
temporary file and in the place of the key, or nothing. -/
inductive Fit (clients : ι → Client) (client : ι) : List String → Option FileEntry → Prop
  | folder {stamp : WriterStamp} {key : BlobKey} {value : ByteArray} {names : List String}
      (puts : ⟨stamp, .put key value⟩ ∈ (clients client).errands) (way : names <+: key.segments) :
      Fit clients client names (some .directory)
  | temporary {stamp : WriterStamp} {key : BlobKey} {value : ByteArray}
      (puts : ⟨stamp, .put key value⟩ ∈ (clients client).errands) (id mode : Nat) :
      Fit clients client (temporaryPlace stamp key) (some (.file id value mode))
  | placed {stamp : WriterStamp} {key : BlobKey} {value : ByteArray}
      (puts : ⟨stamp, .put key value⟩ ∈ (clients client).errands) (id mode : Nat) :
      Fit clients client key.segments (some (.file id value mode))
  | removed (names : List String) : Fit clients client names none

inductive Touch (clients : ι → Client) (location : Location) (client : ι) :
    FileTree → FileTree → Prop
  | at {tree after : FileTree} {names : List String} {now? : Option FileEntry}
      (fit : Fit clients client names now?) (some : names ≠ [])
      (free : tree.Free (below location names))
      (alters : tree.Alters after (below location names) now?) :
      Touch clients location client tree after

structure Accounted (clients : ι → Client) (location : Location) (files tree : FileTree) :
    Prop where
  roots : ∀ client, tree.Reaches (clients client).cwd (clients client).root location
  ordinary : tree.Ordinary location
  values : ∀ {client errand key}, errand ∈ (clients client).errands →
    errand.call.key? = some key → ∀ {id content mode},
      tree.lookup (below location key.segments) = some (.file id content mode) →
        Passed clients location files key content

theorem Fit.ordinary {names : List String} {now? : Option FileEntry}
    (h : Fit clients client names now?) (entry : FileEntry) (hentry : now? = some entry) :
    entry = .directory ∨ entry.IsFile := by
  cases h with
  | folder => exact .inl (Option.some.inj hentry).symm
  | temporary _ id mode | placed _ id mode =>
      exact .inr (Option.some.inj hentry ▸ .intro id _ mode)
  | removed => cases hentry

theorem Shares.accounted (h : Shares clients location files) :
    Accounted clients location files files where
  roots := h.roots
  ordinary := h.ordinary
  values _ _ _ _ _ hfound := .inr ⟨_, _, hfound⟩

theorem Accounted.touch (h : Accounted clients location files tree) (hapart : Apart clients)
    (htouch : Touch clients location client tree after) :
    Accounted clients location files after := by
  obtain ⟨hfit, hsome, hfree, halters⟩ := htouch
  refine ⟨fun other => (h.roots other).mono (halters.keeps hfree),
    halters.ordinary h.ordinary hfit.ordinary, ?_⟩
  intro other errand key hmem hkey id content mode hfound
  rw [halters _ (below_ne_nil location key.segments_ne_nil)] at hfound
  split at hfound
  · next hplace =>
    replace hplace := below_injective hplace
    cases hfit with
    | folder => cases hfound
    | temporary puts => exact absurd (hplace ▸ List.prefix_refl _) (hapart.off puts hmem hkey)
    | placed puts =>
        cases hfound
        obtain rfl := BlobKey.segments_injective hplace
        exact .inl ⟨client, _, puts⟩
    | removed => cases hfound
  · exact h.values hmem hkey hfound

def Written (tree : FileTree) (place : Location) (value : ByteArray) : Prop :=
  ∀ entry, tree.lookup place = some entry → ∃ id mode, entry = .file id value mode

theorem Written.touch (hapart : Apart clients) {stamp : WriterStamp} {key : BlobKey}
    {value : ByteArray} {other : ι} (hputs : ⟨stamp, .put key value⟩ ∈ (clients client).errands)
    (h : Written tree (below location (temporaryPlace stamp key)) value) (hne : other ≠ client)
    (htouch : Touch clients location other tree after) :
    Written after (below location (temporaryPlace stamp key)) value := by
  obtain ⟨hfit, hsome, hfree, halters⟩ := htouch
  intro entry hfound
  rw [halters _ (below_ne_nil location (temporaryPlace_ne_nil stamp key))] at hfound
  split at hfound
  · next hplace =>
    replace hplace := below_injective hplace
    cases hfit with
    | folder puts way => exact absurd (hplace ▸ way) (hapart.off hputs puts rfl)
    | temporary puts id mode =>
        cases hfound
        obtain ⟨rfl, hfolder⟩ := temporaryPlace_eq hplace
        rw [hapart.same hne puts hputs hfolder.symm]
        exact ⟨id, mode, rfl⟩
    | placed puts => exact absurd (hplace ▸ List.prefix_refl _) (hapart.off hputs puts rfl)
    | removed => cases hfound
  · exact h entry hfound

/-! ## What the calls do to the files -/

theorem IsAbove.eq {root parent : Path} {key : BlobKey} (h : IsAbove root key parent)
    (hroot : root.text ≠ "") (hkey : key.Built) (stamp : WriterStamp) :
    ∃ front last, key.segments = front ++ [last] ∧ temporaryPlace stamp key =
        front ++ [temporaryName stamp] ∧
      (∀ name ∈ front ++ [last], Path.IsPlain name) ∧
      (∀ name ∈ front ++ [temporaryName stamp], Path.IsPlain name) ∧
      pathFor root key = root.joins (front ++ [last]) ∧
      parent = (root.seat front).joins front ∧
      parent.join (temporaryName stamp) =
        (root.seat front).joins (front ++ [temporaryName stamp]) := by
  obtain ⟨front, last, hsplit⟩ := key.exists_segments
  have hplain := hkey.isPlain
  rw [hsplit] at hplain
  obtain ⟨hfront, hlast⟩ := List.forall_mem_append.1 hplain
  have hspare : Path.IsPlain (temporaryName stamp) := isPlain_temporaryName stamp
  rw [IsAbove, pathFor_eq, hsplit,
    Path.parent?_joins hroot hfront (hlast last List.mem_cons_self)] at h
  obtain rfl := Option.some.inj h
  refine ⟨front, last, hsplit, ?_, hplain, ?_, ?_, rfl, (Path.joins_concat _ _ _).symm⟩
  · rw [temporaryPlace, hsplit, List.dropLast_concat]
  · exact List.forall_mem_append.2 ⟨hfront, List.forall_mem_singleton.2 hspare⟩
  · rw [pathFor_eq, hsplit]

namespace Accounted

variable {stamp : WriterStamp} {key : BlobKey} {value : ByteArray} {parent : Path}

theorem root_ne_empty (h : Accounted clients location files tree) (client : ι) :
    (clients client).root.text ≠ "" :=
  (FileTree.reaches_iff.1 (h.roots client)).2.1

variable (h : Accounted clients location files tree)
  (hputs : ⟨stamp, .put key value⟩ ∈ (clients client).errands) (hkey : key.Built)
  (habove : IsAbove (clients client).root key parent)
include h hputs hkey habove

theorem makeDir {path : Path} (hway : path ∈ parent.ancestors)
    (hmake : tree.makeDir (clients client).cwd path.text = .ok after) :
    Touch clients location client tree after := by
  obtain ⟨front, last, hsplit, -, hplain, -, -, rfl, -⟩ :=
    habove.eq (h.root_ne_empty client) hkey stamp
  obtain ⟨names, hnames, hsome, hnone, halters⟩ := (h.roots client).makeDir_climb_ok h.ordinary
    (List.forall_mem_append.1 hplain).1 hway hmake
  have hwhole : names <+: key.segments := hnames.trans (hsplit ▸ List.prefix_append _ _)
  exact .at (.folder hputs hwhole) hsome (FileTree.free_of_none hnone) halters

theorem write (hwrite : tree.write (clients client).cwd
      (parent.join (temporaryName stamp)).text value = .ok after) :
    Touch clients location client tree after ∧
      Written after (below location (temporaryPlace stamp key)) value := by
  obtain ⟨front, last, hsplit, hplace, -, hspare, -, -, hjoin⟩ :=
    habove.eq (h.root_ne_empty client) hkey stamp
  rw [hjoin] at hwrite
  obtain ⟨hfree, id, mode, halters⟩ :=
    ((h.roots client).seat front).write_ok h.ordinary hspare hwrite
  rw [← hplace] at hfree halters
  have hsome := temporaryPlace_ne_nil stamp key
  refine ⟨.at (.temporary hputs id mode) hsome hfree halters, fun entry hfound => ?_⟩
  rw [halters _ (below_ne_nil location hsome), if_pos rfl] at hfound
  exact ⟨id, mode, (Option.some.inj hfound).symm⟩

theorem rename (hwritten : Written tree (below location (temporaryPlace stamp key)) value)
    (hrename : tree.rename (clients client).cwd (parent.join (temporaryName stamp)).text
      (pathFor (clients client).root key).text = .ok after) :
    (∃ middle, Touch clients location client tree middle ∧
      Touch clients location client middle after) ∧
      after.read (clients client).cwd (pathFor (clients client).root key).text = .ok value := by
  obtain ⟨front, last, hsplit, hplace, hplain, hspare, hpath, -, hjoin⟩ :=
    habove.eq (h.root_ne_empty client) hkey stamp
  have hsource : tree.Free (below location (front ++ [temporaryName stamp])) := by
    intro entry hfound
    rw [← hplace] at hfound
    obtain ⟨id, mode, rfl⟩ := hwritten entry hfound
    exact .intro id value mode
  rw [hjoin, hpath] at hrename
  obtain ⟨id, content, mode, middle, hfile, hgone, hfree, hput, hread⟩ :=
    FileTree.Reaches.rename_ok ((h.roots client).seat front) (h.roots client) h.ordinary hspare
      hplain hsource hrename
  rw [← hplace] at hfile hgone hsource
  obtain ⟨_, _, hcontent⟩ := hwritten _ hfile
  cases hcontent
  rw [← hsplit] at hfree hput
  rw [hpath]
  exact ⟨⟨middle, .at (.removed _) (temporaryPlace_ne_nil stamp key) hsource hgone,
    .at (.placed hputs id mode) key.segments_ne_nil hfree hput⟩, hread⟩

omit hputs in
theorem discard (hremove : tree.remove (clients client).cwd
      (parent.join (temporaryName stamp)).text = .ok after) :
    Touch clients location client tree after := by
  obtain ⟨front, last, -, hplace, -, hspare, -, -, hjoin⟩ :=
    habove.eq (h.root_ne_empty client) hkey stamp
  rw [hjoin] at hremove
  obtain ⟨hfree, halters⟩ := ((h.roots client).seat front).remove_ok h.ordinary hspare hremove
  rw [← hplace] at hfree halters
  exact .at (.removed _) (temporaryPlace_ne_nil stamp key) hfree halters

omit hputs habove

theorem remove (hremove : tree.remove (clients client).cwd
      (pathFor (clients client).root key).text = .ok after) :
    Touch clients location client tree after := by
  obtain ⟨front, last, hsplit⟩ := key.exists_segments
  have hplain := hkey.isPlain
  rw [pathFor_eq, hsplit] at hremove
  rw [hsplit] at hplain
  obtain ⟨hfree, halters⟩ := (h.roots client).remove_ok h.ordinary hplain hremove
  exact .at (.removed _) (by simp) hfree halters

theorem read {errand : Errand} (hmem : errand ∈ (clients client).errands)
    (hconcerns : errand.call.key? = some key)
    (hread : tree.read (clients client).cwd (pathFor (clients client).root key).text =
      .ok value) : Passed clients location files key value := by
  obtain ⟨front, last, hsplit⟩ := key.exists_segments
  have hplain := hkey.isPlain
  rw [pathFor_eq, hsplit] at hread
  rw [hsplit] at hplain
  obtain ⟨id, mode, hfile⟩ := (h.roots client).read_ok h.ordinary hplain hread
  rw [← hsplit] at hfile
  exact h.values hmem hconcerns hfile

end Accounted

/-! ## What holds at every moment -/

/-- What a phase says about the files and the history. -/
def Stands (clients : ι → Client) (location : Location) (files : FileTree) (client : ι)
    (tree : FileTree) (history : List (Event ι)) : Errand → Phase → Prop
  | ⟨stamp, .put key value⟩, .written =>
      Written tree (below location (temporaryPlace stamp key)) value
  | ⟨stamp, .put key value⟩, .placed => Placed clients client history stamp key value
  | ⟨_, .get key⟩, .found value => Passed clients location files key value
  | _, _ => True

/-- The result of a call is as good as it says. -/
def Justified (clients : ι → Client) (location : Location) (files : FileTree) (client : ι)
    (history : List (Event ι)) :
    (errand : Errand) → Except StoreFault errand.call.Result → Prop
  | ⟨stamp, .put key value⟩, .ok _ => Placed clients client history stamp key value
  | ⟨_, .get key⟩, .ok (some value) => Passed clients location files key value
  | _, _ => True

structure Sound (clients : ι → Client) (location : Location) (files : FileTree) (s : State ι) :
    Prop where
  accounted : Accounted clients location files s.files
  todo : ∀ client, ∀ errand ∈ (s.desks client).todo, errand ∈ (clients client).errands
  jobs : ∀ client errand program, (s.desks client).job = some ⟨errand, program⟩ →
    errand ∈ (clients client).errands ∧ ∃ phase,
      program.Follows (Moves (clients client).root errand) (Ends errand) phase ∧
      Stands clients location files client s.files s.history errand phase
  results : ∀ client errand result, .returned client errand result ∈ s.history →
    Justified clients location files client s.history errand result

abbrev Touches (clients : ι → Client) (location : Location) (client : ι) :
    FileTree → FileTree → Prop :=
  Relation.ReflTransGen (Touch clients location client)

theorem Accounted.touches (h : Accounted clients location files tree) (hapart : Apart clients)
    (htouches : Touches clients location client tree after) :
    Accounted clients location files after := by
  induction htouches with
  | refl => exact h
  | tail _ htouch ih => exact ih.touch hapart htouch

theorem Placed.cons {history : List (Event ι)} {stamp : WriterStamp} {key : BlobKey}
    {value : ByteArray} (h : Placed clients client history stamp key value) (event : Event ι) :
    Placed clients client (event :: history) stamp key value := by
  obtain ⟨temporary, renamed, hmem, hread⟩ := h
  exact ⟨temporary, renamed, List.mem_cons_of_mem _ hmem, hread⟩

theorem Stands.cons {history : List (Event ι)} {errand : Errand} {phase : Phase}
    (h : Stands clients location files client tree history errand phase) (event : Event ι) :
    Stands clients location files client tree (event :: history) errand phase := by
  obtain ⟨stamp, call⟩ := errand
  cases call with
  | put key value =>
      cases phase with
      | placed => exact Placed.cons h event
      | _ => exact h
  | get key => cases phase <;> exact h
  | _ => exact h

/-- A phase goes on to hold while another process changes the files. -/
theorem Stands.touches {history : List (Event ι)} {errand : Errand} {phase : Phase}
    (hapart : Apart clients) (hmem : errand ∈ (clients client).errands)
    (h : Stands clients location files client tree history errand phase) {other : ι}
    (hne : other ≠ client) (htouches : Touches clients location other tree after) :
    Stands clients location files client after history errand phase := by
  obtain ⟨stamp, call⟩ := errand
  cases call with
  | put key value =>
      cases phase with
      | written =>
          change Written after _ value
          induction htouches with
          | refl => exact h
          | tail _ htouch ih => exact ih.touch hapart hmem hne htouch
      | _ => exact h
  | get key => cases phase <;> exact h
  | _ => exact h

theorem Justified.cons {history : List (Event ι)} {errand : Errand}
    {result : Except StoreFault errand.call.Result}
    (h : Justified clients location files client history errand result) (event : Event ι) :
    Justified clients location files client (event :: history) errand result := by
  obtain ⟨stamp, call⟩ := errand
  cases call with
  | put key value =>
      rcases result with fault | _
      · trivial
      · exact Placed.cons h event
  | get key => rcases result with fault | _ | value <;> exact h
  | _ => trivial

theorem Stands.justified {history : List (Event ι)} {errand : Errand} {phase : Phase}
    {result : Except StoreFault errand.call.Result}
    (h : Stands clients location files client tree history errand phase)
    (hends : Ends errand result phase) :
    Justified clients location files client history errand result := by
  obtain ⟨stamp, call⟩ := errand
  cases call with
  | put key value =>
      rcases result with fault | _
      · trivial
      · obtain rfl : phase = .placed := hends
        exact h
  | get key =>
      rcases result with fault | _ | value
      · trivial
      · trivial
      · obtain rfl : phase = .found value := hends
        exact h
  | _ => trivial

/-- A file call that the rules allow touches the files in an allowed way, and the phase after it
holds. -/
theorem Moves.touches {errand : Errand} {phase later : Phase} {request : FileCall}
    {answer : request.Answer} {history : List (Event ι)} (hshares : Shares clients location files)
    (hmem : errand ∈ (clients client).errands)
    (hmove : Moves (clients client).root errand phase request answer later)
    (h : Accounted clients location files tree)
    (hstands : Stands clients location files client tree history errand phase)
    (hserved : FileTree.answer (clients client).cwd request tree = (answer, after)) :
    Touches clients location client tree after ∧
      Stands clients location files client after
        (.asked client errand request answer after :: history) errand later := by
  cases hmove with
  | isDir path =>
      cases hserved
      exact ⟨.refl, hstands.cons _⟩
  | entries path =>
      cases hserved
      exact ⟨.refl, hstands.cons _⟩
  | @makeDir stamp key value parent path above way =>
      rcases changed_cases hserved with ⟨fault, -, rfl⟩ | ⟨-, hmake⟩
      · exact ⟨.refl, trivial⟩
      · exact ⟨.single (h.makeDir hmem (hshares.built hmem rfl) above way hmake), trivial⟩
  | @write stamp key value parent above =>
      rcases changed_cases hserved with ⟨fault, hfault, -⟩ | ⟨-, hwrite⟩
      · cases hfault
      · obtain ⟨htouch, hwritten⟩ := h.write hmem (hshares.built hmem rfl) above hwrite
        exact ⟨.single htouch, hwritten⟩
  | @writeFault stamp key value parent above fault =>
      rcases changed_cases hserved with ⟨_, -, rfl⟩ | ⟨hok, -⟩
      · exact ⟨.refl, trivial⟩
      · cases hok
  | @rename stamp key value parent above =>
      rcases changed_cases hserved with ⟨fault, hfault, -⟩ | ⟨-, hrename⟩
      · cases hfault
      · obtain ⟨⟨middle, hfirst, hsecond⟩, hread⟩ :=
          h.rename hmem (hshares.built hmem rfl) above hstands hrename
        exact ⟨.tail (.single hfirst) hsecond, _, after, List.mem_cons_self, hread⟩
  | @renameFault stamp key value parent above fault =>
      rcases changed_cases hserved with ⟨_, -, rfl⟩ | ⟨hok, -⟩
      · exact ⟨.refl, trivial⟩
      · cases hok
  | @discard stamp key value parent above =>
      rcases changed_cases hserved with ⟨fault, -, rfl⟩ | ⟨-, hremove⟩
      · exact ⟨.refl, trivial⟩
      · exact ⟨.single (h.discard (hshares.built hmem rfl) above hremove), trivial⟩
  | @read _ key concerns value =>
      obtain ⟨hread, rfl⟩ := Prod.mk.inj hserved
      have hpassed := h.read (hshares.built hmem concerns) hmem concerns hread
      refine ⟨.refl, ?_⟩
      obtain ⟨stamp, call⟩ := errand
      cases call with
      | get key =>
          cases concerns
          exact hpassed
      | _ => trivial
  | readFault concerns fault =>
      obtain ⟨-, rfl⟩ := Prod.mk.inj hserved
      exact ⟨.refl, hstands.cons _⟩
  | @remove stamp key =>
      rcases changed_cases hserved with ⟨fault, -, rfl⟩ | ⟨-, hremove⟩
      · exact ⟨.refl, trivial⟩
      · exact ⟨.single (h.remove (hshares.built hmem rfl) hremove), trivial⟩

/-! ## All turns -/

theorem sound_opening (hshares : Shares clients location files) :
    Sound clients location files (opening clients files) where
  accounted := hshares.accounted
  todo _ _ hmem := hmem
  jobs _ _ _ hjob := by cases hjob
  results _ _ _ hmem := by cases hmem

variable [DecidableEq ι] {s t : State ι}

/-- What is left to do keeps to the errands when one process goes on with its own. -/
theorem Sound.todo_sit (h : Sound clients location files s) {job : Option Job} {rest : List Errand}
    (hrest : ∀ errand ∈ rest, errand ∈ (s.desks client).todo) (other : ι) :
    ∀ errand ∈ ((s.sit client ⟨job, rest⟩).desks other).todo,
      errand ∈ (clients other).errands := by
  intro errand hmem
  by_cases hother : other = client
  · subst hother
    rw [State.sit_desks_self] at hmem
    exact h.todo other errand (hrest errand hmem)
  · rw [State.sit_desks_of_ne s hother] at hmem
    exact h.todo other errand hmem

theorem Sound.start (h : Sound clients location files s) {errand : Errand} {rest : List Errand}
    (hfree : s.desks client = ⟨none, errand :: rest⟩) :
    Sound clients location files
      (s.sit client ⟨some ⟨errand, (clients client).program errand⟩, rest⟩) where
  accounted := h.accounted
  todo := h.todo_sit fun other hother => by
    rw [hfree]
    exact List.mem_cons_of_mem errand hother
  jobs other found program hjob := by
    by_cases hother : other = client
    · subst hother
      rw [State.sit_desks_self] at hjob
      cases hjob
      refine ⟨h.todo other errand (by rw [hfree]; exact List.mem_cons_self), .begun,
        follows_answer _ errand, ?_⟩
      obtain ⟨stamp, call⟩ := errand
      cases call <;> trivial
    · rw [State.sit_desks_of_ne s hother] at hjob
      exact h.jobs other found program hjob
  results := h.results

theorem Sound.ask (h : Sound clients location files s) (hshares : Shares clients location files)
    (hapart : Apart clients) {errand : Errand} {rest : List Errand} {request : FileCall}
    {next : request.Answer → Program Files (Except StoreFault errand.call.Result)}
    {answer : request.Answer}
    (hasks : s.desks client = ⟨some ⟨errand, .ask (I := Files) request next⟩, rest⟩)
    (hserved : FileTree.answer (clients client).cwd request s.files = (answer, after)) :
    Sound clients location files ((s.sit client ⟨some ⟨errand, next answer⟩, rest⟩).tell after
      (.asked client errand request answer after)) := by
  obtain ⟨hmem, phase, hfollows, hstands⟩ :=
    h.jobs client errand (.ask (I := Files) request next) (by rw [hasks])
  obtain ⟨later, hmove, hnext⟩ := hfollows.step answer
  obtain ⟨htouches, hlater⟩ := Moves.touches hshares hmem hmove h.accounted hstands hserved
  refine ⟨h.accounted.touches hapart htouches, h.todo_sit fun other hother => ?_,
    fun other found program hjob => ?_, fun other found result hreturned => ?_⟩
  · rwa [hasks]
  · by_cases hother : other = client
    · subst hother
      rw [State.tell_desks, State.sit_desks_self] at hjob
      cases hjob
      exact ⟨hmem, later, hnext, hlater⟩
    · rw [State.tell_desks, State.sit_desks_of_ne s hother] at hjob
      obtain ⟨hfound, phase, hfollows, hstands⟩ := h.jobs other found program hjob
      exact ⟨hfound, phase, hfollows,
        (hstands.touches hapart hfound (Ne.symm hother) htouches).cons _⟩
  · rcases List.mem_cons.1 hreturned with heq | hreturned
    · cases heq
    · exact (h.results other found result hreturned).cons _

theorem Sound.finish (h : Sound clients location files s) {errand : Errand} {rest : List Errand}
    {result : Except StoreFault errand.call.Result}
    (hended : s.desks client = ⟨some ⟨errand, .done result⟩, rest⟩) :
    Sound clients location files
      ((s.sit client ⟨none, rest⟩).tell s.files (.returned client errand result)) := by
  refine ⟨h.accounted, h.todo_sit fun other hother => ?_, fun other found program hjob => ?_,
    fun other found last hreturned => ?_⟩
  · rwa [hended]
  · by_cases hother : other = client
    · subst hother
      rw [State.tell_desks, State.sit_desks_self] at hjob
      cases hjob
    · rw [State.tell_desks, State.sit_desks_of_ne s hother] at hjob
      obtain ⟨hfound, phase, hfollows, hstands⟩ := h.jobs other found program hjob
      exact ⟨hfound, phase, hfollows, hstands.cons _⟩
  · rcases List.mem_cons.1 hreturned with heq | hreturned
    · cases heq
      obtain ⟨-, phase, hfollows, hstands⟩ :=
        h.jobs client errand (.done result) (by rw [hended])
      exact (hstands.justified (Program.follows_done.1 hfollows)).cons _
    · exact (h.results other found last hreturned).cons _

theorem Sound.step (h : Sound clients location files s) (hshares : Shares clients location files)
    (hapart : Apart clients) (hstep : Step clients s t) : Sound clients location files t := by
  cases hstep with
  | start hfree => exact h.start hfree
  | ask hasks hserved => exact h.ask hshares hapart hasks hserved
  | finish hended => exact h.finish hended

theorem Reachable.sound (h : Reachable clients files s) (hshares : Shares clients location files)
    (hapart : Apart clients) : Sound clients location files s := by
  induction h with
  | refl => exact sound_opening hshares
  | tail _ hstep ih => exact ih.step hshares hapart hstep

/-- Values do not mix: however the processes take turns, what a `get` finds under a key was put
there by one of them or stood there from the start, and a `put` that has succeeded had renamed
exactly its own value into place. -/
theorem values_not_mixed (hshares : Shares clients location files) (hapart : Apart clients)
    (hreachable : Reachable clients files s) :
    (∀ client stamp key value,
        .returned client ⟨stamp, .get key⟩ (.ok (some value)) ∈ s.history →
          Passed clients location files key value) ∧
      ∀ client stamp key value,
        .returned client ⟨stamp, .put key value⟩ (.ok ()) ∈ s.history →
          Placed clients client s.history stamp key value := by
  have hsound := hreachable.sound hshares hapart
  exact ⟨fun client stamp key value hmem => hsound.results client _ _ hmem,
    fun client stamp key value hmem => hsound.results client _ _ hmem⟩

/-! ## A shared directory without clashes -/

open DirectoryStore (Fileable Holds plainFiles folderKeys fileable_folderKeys)

omit [DecidableEq ι] in
theorem shares_of_holds {keys : BlobKey → Prop} {contents : Contents}
    (hkeys : ∀ client, Fileable (clients client).root keys)
    (hused : ∀ client, ∀ errand ∈ (clients client).errands, ∀ key,
      errand.call.key? = some key → keys key)
    (hroots : ∀ client, files.Reaches (clients client).cwd (clients client).root location)
    (hholds : Holds keys location files contents) : Shares clients location files where
  roots := hroots
  ordinary names entry hsome hfound := by
    cases hholds.accounted hsome hfound with
    | folder => exact .inl rfl
    | file id mode => exact .inr (.intro id _ mode)
  built {client errand key} hmem hkey :=
    .checked ((hkeys client).valid (hused client errand hmem key hkey))

inductive Site where
  | near
  | far
  | reader
  deriving DecidableEq

/-- Two processes with the same number, which write in different folders, and a reader. -/
def apartSites : Site → Client
  | .near => ⟨[], ⟨"store"⟩, [⟨⟨1, 0⟩, .put ⟨"r7/make/stdout"⟩ "a".toUTF8⟩]⟩
  | .far => ⟨[], ⟨"store"⟩, [⟨⟨1, 0⟩, .put ⟨"r7/status"⟩ "b".toUTF8⟩]⟩
  | .reader => ⟨[], ⟨"store"⟩, [⟨⟨2, 0⟩, .get ⟨"r7/make/stdout"⟩⟩]⟩

theorem apartSites_known : ∀ site, ∀ errand ∈ (apartSites site).errands, ∀ key,
    errand.call.key? = some key → key ∈ folderKeys := by
  rintro (_ | _ | _) <;> simp [apartSites, StoreCall.key?, folderKeys]

theorem apart_apartSites : Apart apartSites where
  same {a b stamp key other value content} hne ha hb hfolder := by
    cases a <;> cases b <;> simp [apartSites] at ha hb hne
    all_goals
      obtain ⟨rfl, rfl, rfl⟩ := ha
      obtain ⟨-, rfl, rfl⟩ := hb
      exact absurd hfolder (by decide)
  off {a b stamp key value errand other} _ hmem hother :=
    temporaryPlace_off fileable_folderKeys (apartSites_known b errand hmem other hother)
      stamp key

theorem values_not_mixed_apart :
    Shares apartSites [.named "store"] plainFiles ∧ Apart apartSites ∧
      ∃ s, Reachable apartSites plainFiles s ∧
        .returned .near ⟨⟨1, 0⟩, .put ⟨"r7/make/stdout"⟩ "a".toUTF8⟩ (.ok ()) ∈ s.history ∧
        Placed apartSites .near s.history ⟨1, 0⟩ ⟨"r7/make/stdout"⟩ "a".toUTF8 ∧
        .returned .reader ⟨⟨2, 0⟩, .get ⟨"r7/make/stdout"⟩⟩ (.ok (some "a".toUTF8)) ∈ s.history ∧
        Passed apartSites [.named "store"] plainFiles ⟨"r7/make/stdout"⟩ "a".toUTF8 := by
  have hroots : ∀ site, plainFiles.Reaches (apartSites site).cwd (apartSites site).root
      [.named "store"] := by
    rintro (_ | _ | _) <;> exact DirectoryStore.plainFiles_reaches
  have hkeys : ∀ site, Fileable (apartSites site).root (· ∈ folderKeys) := by
    rintro (_ | _ | _) <;> exact fileable_folderKeys
  have hempty : Holds (· ∈ folderKeys) [.named "store"] plainFiles fun _ => none :=
    DirectoryStore.holds_empty DirectoryStore.plainFiles_lookup
  have hshares : Shares apartSites [.named "store"] plainFiles :=
    shares_of_holds hkeys apartSites_known hroots hempty
  have hout : (⟨"r7/make/stdout"⟩ : BlobKey) ∈ folderKeys := by decide
  have hstamp : DirectoryStore.Bounded ⟨1, 0⟩ := ⟨by decide, by decide⟩
  -- The near process makes its write, and then the reader makes its call.
  obtain ⟨written, hrun, hholds, hkept⟩ :=
    hempty.run_put (hkeys .near) (hroots .near) hout hstamp "a".toUTF8
  have hput : FileTree.run (apartSites .near).cwd ((apartSites .near).program
      ⟨⟨1, 0⟩, .put ⟨"r7/make/stdout"⟩ "a".toUTF8⟩) (opening apartSites plainFiles).files =
      (.ok (), written) := hrun
  have hopening : Reachable apartSites plainFiles (opening apartSites plainFiles) := .refl
  obtain ⟨s, hreach, rfl, -, hothers, hreturned, -, -⟩ := hopening.perform hput rfl
  have hfound := hholds.run_get (hkeys .reader) ((hroots .reader).mono hkept) hout
  rw [Function.update_self] at hfound
  have hget : FileTree.run (apartSites .reader).cwd ((apartSites .reader).program
      ⟨⟨2, 0⟩, .get ⟨"r7/make/stdout"⟩⟩) s.files = (.ok (some "a".toUTF8), s.files) := hfound
  obtain ⟨t, hreach', -, -, -, hgot, hkept', -⟩ :=
    hreach.perform hget (hothers .reader (by decide))
  obtain ⟨hreads, hwrites⟩ := values_not_mixed hshares apart_apartSites hreach'
  have hdone := hkept' _ hreturned
  exact ⟨hshares, apart_apartSites, t, hreach', hdone, hwrites _ _ _ _ hdone, hgot,
    hreads _ _ _ _ hgot⟩

end Sharing

end Handoff
