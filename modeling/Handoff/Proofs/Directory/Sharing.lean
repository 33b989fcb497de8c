import Mathlib.Logic.Relation
import Handoff.Proofs.Directory.Keeping
/-!
# Processes that share a directory

Several processes with a directory store on one root, which take turns on its files, one file
call at a time.  What the calls of a store may ask, and in which order, is told as rules of
conduct.
-/

namespace Handoff

namespace Sharing

open DirectoryStore (temporaryName pathFor)

/-! ## Processes and their turns -/

/-- A call on a directory store, with the stamp that its process gives it. -/
structure Errand where
  stamp : WriterStamp
  call : StoreCall

structure Client where
  cwd : Location
  root : Path
  errands : List Errand

def Client.program (client : Client) (errand : Errand) :
    Program Files (Except StoreFault errand.call.Result) :=
  DirectoryStore.answer client.root errand.stamp errand.call

structure Job where
  errand : Errand
  program : Program Files (Except StoreFault errand.call.Result)

structure Desk where
  job : Option Job
  todo : List Errand

inductive Event (ι : Type) where
  /-- A file call was answered, and these are the files then. -/
  | asked (client : ι) (errand : Errand) (request : FileCall) (answer : request.Answer)
      (files : FileTree)
  | returned (client : ι) (errand : Errand) (result : Except StoreFault errand.call.Result)

def Event.client {ι : Type} : Event ι → ι
  | .asked client _ _ _ _ => client
  | .returned client _ _ => client

/-- The files, what all processes have to do, and all that happened, the latest event first. -/
structure State (ι : Type) where
  files : FileTree
  desks : ι → Desk
  history : List (Event ι)

variable {ι : Type}

def opening (clients : ι → Client) (files : FileTree) : State ι where
  files
  desks client := ⟨none, (clients client).errands⟩
  history := []

def State.tell (s : State ι) (files : FileTree) (event : Event ι) : State ι :=
  { s with files, history := event :: s.history }

@[simp] theorem State.tell_desks (s : State ι) (files : FileTree) (event : Event ι) :
    (s.tell files event).desks = s.desks := rfl

@[simp] theorem State.tell_history (s : State ι) (files : FileTree) (event : Event ι) :
    (s.tell files event).history = event :: s.history := rfl

variable [DecidableEq ι]

def State.sit (s : State ι) (client : ι) (desk : Desk) : State ι :=
  { s with desks := Function.update s.desks client desk }

@[simp] theorem State.sit_desks_self (s : State ι) (client : ι) (desk : Desk) :
    (s.sit client desk).desks client = desk := by
  simp [sit]

theorem State.sit_desks_of_ne (s : State ι) {client other : ι} (h : other ≠ client)
    (desk : Desk) : (s.sit client desk).desks other = s.desks other := by
  simp [sit, h]

/-- A process begins its next call, makes the next file call, or returns. -/
inductive Step (clients : ι → Client) : State ι → State ι → Prop
  | start {s : State ι} {client : ι} {errand : Errand} {rest : List Errand}
      (free : s.desks client = ⟨none, errand :: rest⟩) :
      Step clients s (s.sit client ⟨some ⟨errand, (clients client).program errand⟩, rest⟩)
  | ask {s : State ι} {client : ι} {errand : Errand} {rest : List Errand} {request : FileCall}
      {next : request.Answer → Program Files (Except StoreFault errand.call.Result)}
      {answer : request.Answer} {after : FileTree}
      (asks : s.desks client = ⟨some ⟨errand, .ask (I := Files) request next⟩, rest⟩)
      (served : FileTree.answer (clients client).cwd request s.files = (answer, after)) :
      Step clients s ((s.sit client ⟨some ⟨errand, next answer⟩, rest⟩).tell after
        (.asked client errand request answer after))
  | finish {s : State ι} {client : ι} {errand : Errand} {rest : List Errand}
      {result : Except StoreFault errand.call.Result}
      (ended : s.desks client = ⟨some ⟨errand, .done result⟩, rest⟩) :
      Step clients s ((s.sit client ⟨none, rest⟩).tell s.files (.returned client errand result))

/-- The state comes about when the processes take turns in some way. -/
def Reachable (clients : ι → Client) (files : FileTree) (s : State ι) : Prop :=
  Relation.ReflTransGen (Step clients) (opening clients files) s

/-! ## A process that goes on alone -/

/-- What a process has asked for since, while the others rested. -/
structure Alone (allowed : FileCall → Prop) (client : ι) (errand : Errand) (s t : State ι) :
    Prop where
  desks : ∀ other, other ≠ client → t.desks other = s.desks other
  kept : ∀ event ∈ s.history, event ∈ t.history
  asked : ∀ event ∈ t.history, event ∈ s.history ∨
    ∃ request answer files, event = .asked client errand request answer files ∧ allowed request

variable {clients : ι → Client} {files after : FileTree} {s : State ι} {client : ι}
  {errand : Errand} {rest : List Errand} {α : Type} {allowed : FileCall → Prop}

theorem Reachable.run (h : Reachable clients files s) {program : Program Files α} {value : α}
    {next : α → Program Files (Except StoreFault errand.call.Result)} {fit : α → Prop}
    (hrun : FileTree.run (clients client).cwd program s.files = (value, after))
    (hwithin : program.Within allowed fit)
    (hdesk : s.desks client = ⟨some ⟨errand, program >>= next⟩, rest⟩) :
    ∃ t, Reachable clients files t ∧ t.files = after ∧
      t.desks client = ⟨some ⟨errand, next value⟩, rest⟩ ∧ Alone allowed client errand s t := by
  induction program generalizing s with
  | done found =>
      cases hrun
      exact ⟨s, h, rfl, hdesk, fun _ _ => rfl, fun _ hmem => hmem, fun _ hmem => .inl hmem⟩
  | ask request wait ih =>
      rcases hserved : FileTree.answer (clients client).cwd request s.files with
        ⟨answer, between⟩
      obtain ⟨hrequest, hwithin⟩ := Program.within_ask.1 hwithin answer
      have hstep : _ = FileTree.run (clients client).cwd (wait answer) between :=
        congrArg (fun served => FileTree.run (clients client).cwd (wait served.1) served.2) hserved
      replace hrun : FileTree.run (clients client).cwd (wait answer) between = (value, after) :=
        hstep.symm.trans hrun
      have hnext : Reachable clients files
          ((s.sit client ⟨some ⟨errand, wait answer >>= next⟩, rest⟩).tell between
            (.asked client errand request answer between)) := .tail h (.ask hdesk hserved)
      obtain ⟨t, hreach, hfiles, hdesk, halone⟩ := ih answer hnext hrun hwithin (by simp)
      refine ⟨t, hreach, hfiles, hdesk, fun other hother => ?_, fun event hmem => ?_,
        fun event hmem => ?_⟩
      · rw [halone.desks other hother, State.tell_desks, State.sit_desks_of_ne s hother]
      · exact halone.kept event (List.mem_cons_of_mem _ hmem)
      · rcases halone.asked event hmem with hold | hasked
        · rcases List.mem_cons.1 hold with rfl | hold
          · exact .inr ⟨request, answer, between, rfl, hrequest⟩
          · exact .inl hold
        · exact .inr hasked

theorem Reachable.perform (h : Reachable clients files s)
    {result : Except StoreFault errand.call.Result}
    (hrun : FileTree.run (clients client).cwd ((clients client).program errand) s.files =
      (result, after))
    (hdesk : s.desks client = ⟨none, errand :: rest⟩) :
    ∃ t, Reachable clients files t ∧ t.files = after ∧ t.desks client = ⟨none, rest⟩ ∧
      (∀ other, other ≠ client → t.desks other = s.desks other) ∧
      .returned client errand result ∈ t.history ∧ (∀ event ∈ s.history, event ∈ t.history) ∧
      ∀ event ∈ t.history, event ∈ s.history ∨ event.client = client := by
  have hstart : Reachable clients files
      (s.sit client ⟨some ⟨errand, (clients client).program errand⟩, rest⟩) :=
    .tail h (.start hdesk)
  have hwhole : (clients client).program errand >>= Program.done =
      (clients client).program errand := bind_pure _
  have hwithin : ((clients client).program errand).Within (fun _ => True) fun _ => True :=
    Program.within_of_forall (fun _ => trivial) _
  obtain ⟨between, hreach, hfiles, hended, halone⟩ :=
    hstart.run hrun hwithin (by rw [hwhole]; exact s.sit_desks_self client _)
  refine ⟨_, .tail hreach (.finish hended), hfiles, by simp, fun other hother => ?_, by simp,
    fun event hmem => List.mem_cons_of_mem _ (halone.kept event hmem), fun event hmem => ?_⟩
  · rw [State.tell_desks, State.sit_desks_of_ne _ hother, halone.desks other hother,
      State.sit_desks_of_ne _ hother]
  · rcases List.mem_cons.1 hmem with rfl | hmem
    · exact .inr rfl
    · rcases halone.asked event hmem with hold | ⟨request, answer, files, rfl, -⟩
      · exact .inl hold
      · exact .inr rfl

/-! ## What a call asks for -/

/-- Where a call stands.  A `put` goes from `begun` to `written` and `placed`, or fails. -/
inductive Phase where
  | begun
  /-- The temporary file was written. -/
  | written
  /-- The temporary file was renamed. -/
  | placed
  | failed
  /-- The file of the key was read. -/
  | found (value : ByteArray)

/-- The path above that of a key is this one. -/
def IsAbove (root : Path) (key : BlobKey) (parent : Path) : Prop :=
  (pathFor root key).parent? = some parent

inductive Moves (root : Path) :
    Errand → Phase → (request : FileCall) → request.Answer → Phase → Prop
  | isDir {errand : Errand} {phase : Phase} (path : Path) (answer : Bool) :
      Moves root errand phase (.isDir path) answer phase
  | entries {errand : Errand} {phase : Phase} (path : Path)
      (answer : Except OsFault (List (FileName × FileKind))) :
      Moves root errand phase (.entries path) answer phase
  | makeDir {stamp : WriterStamp} {key : BlobKey} {value : ByteArray} {parent path : Path}
      (above : IsAbove root key parent) (way : path ∈ parent.ancestors)
      (answer : Except OsFault Unit) :
      Moves root ⟨stamp, .put key value⟩ .begun (.makeDir path) answer .begun
  | write {stamp : WriterStamp} {key : BlobKey} {value : ByteArray} {parent : Path}
      (above : IsAbove root key parent) :
      Moves root ⟨stamp, .put key value⟩ .begun
        (.write (parent.join (temporaryName stamp)) value) (.ok ()) .written
  | writeFault {stamp : WriterStamp} {key : BlobKey} {value : ByteArray} {parent : Path}
      (above : IsAbove root key parent) (fault : OsFault) :
      Moves root ⟨stamp, .put key value⟩ .begun
        (.write (parent.join (temporaryName stamp)) value) (.error fault) .failed
  | rename {stamp : WriterStamp} {key : BlobKey} {value : ByteArray} {parent : Path}
      (above : IsAbove root key parent) :
      Moves root ⟨stamp, .put key value⟩ .written
        (.rename (parent.join (temporaryName stamp)) (pathFor root key)) (.ok ()) .placed
  | renameFault {stamp : WriterStamp} {key : BlobKey} {value : ByteArray} {parent : Path}
      (above : IsAbove root key parent) (fault : OsFault) :
      Moves root ⟨stamp, .put key value⟩ .written
        (.rename (parent.join (temporaryName stamp)) (pathFor root key)) (.error fault) .failed
  | discard {stamp : WriterStamp} {key : BlobKey} {value : ByteArray} {parent : Path}
      (above : IsAbove root key parent) (answer : Except OsFault Unit) :
      Moves root ⟨stamp, .put key value⟩ .failed
        (.remove (parent.join (temporaryName stamp))) answer .failed
  | read {errand : Errand} {key : BlobKey} (concerns : errand.call.key? = some key)
      (value : ByteArray) :
      Moves root errand .begun (.read (pathFor root key)) (.ok value) (.found value)
  | readFault {errand : Errand} {key : BlobKey} (concerns : errand.call.key? = some key)
      (fault : OsFault) :
      Moves root errand .begun (.read (pathFor root key)) (.error fault) .begun
  | remove {stamp : WriterStamp} {key : BlobKey} (answer : Except OsFault Unit) :
      Moves root ⟨stamp, .delete key⟩ .begun (.remove (pathFor root key)) answer .begun

/-- A `put` succeeds when its file is in place, and a `get` gives what it has found. -/
def Ends : (errand : Errand) → Except StoreFault errand.call.Result → Phase → Prop
  | ⟨_, .put _ _⟩, .ok _, phase => phase = .placed
  | ⟨_, .get _⟩, .ok (some value), phase => phase = .found value
  | _, _, _ => True

section Follows

variable {root : Path} {errand : Errand} {stamp : WriterStamp} {key : BlobKey}
  {value : ByteArray} {parent : Path}

theorem follows_request {α ρ : Type} {moves : Conduct Files ρ} {ends : α → ρ → Prop} {phase : ρ}
    {request : FileCall} {next : request.Answer → Program Files α}
    (h : ∀ answer, ∃ after, moves phase request answer after ∧
      (next answer).Follows moves ends after) :
    (Program.request (I := Files) request >>= next).Follows moves ends phase :=
  h

theorem follows_makeDirs {ρ : Type} {moves : Conduct Files ρ} {phase : ρ} {paths : List Path}
    (hmake : ∀ path ∈ paths, ∀ answer, moves phase (FileCall.makeDir path) answer phase)
    (hlook : ∀ path ∈ paths, ∀ answer, moves phase (FileCall.isDir path) answer phase) :
    (Files.makeDirs paths).Follows moves (fun _ last => last = phase) phase := by
  induction paths with
  | nil => rfl
  | cons path rest ih =>
      obtain ⟨hpath, hrest⟩ := List.forall_mem_cons.1 hmake
      obtain ⟨hlookPath, hlookRest⟩ := List.forall_mem_cons.1 hlook
      have look (fault : OsFault) : (Files.isDir path >>= fun there =>
          (pure (if there = true then .ok () else .error fault) :
            Program Files (Except OsFault Unit))).Follows moves
            (fun _ last => last = phase) phase :=
        follows_request fun answer => ⟨_, hlookPath answer, rfl⟩
      rw [Files.makeDirs]
      split
      · rfl
      refine follows_request fun first => ⟨phase, hpath first, ?_⟩
      rcases first with fault | _
      · cases fault with
        | notFound =>
            refine Program.follows_bind.2 ((ih hrest hlookRest).mono ?_)
            rintro (fault | _) last hlast
            · exact hlast
            · rw [hlast]
              refine follows_request fun second => ⟨phase, hpath second, ?_⟩
              rcases second with fault | _
              · exact look fault
              · rfl
        | _ => exact look _
      · rfl

theorem follows_discard (above : IsAbove root key parent) (fault : OsFault) :
    (DirectoryStore.discard (parent.join (temporaryName stamp)) fault).Follows
      (Moves root ⟨stamp, .put key value⟩) (fun result phase => result = .ok () ↔ phase = .placed)
      .failed :=
  follows_request fun answer => ⟨.failed, .discard above answer, by simp [Program.Follows]⟩

/-- A `put` succeeds if and only if its file is in place. -/
theorem follows_put :
    (DirectoryStore.put root stamp key value).Follows (Moves root ⟨stamp, .put key value⟩)
      (fun result phase => result = .ok () ↔ phase = .placed) .begun := by
  rw [DirectoryStore.put]
  split
  · exact Program.follows_done.2 (by simp)
  next parent above =>
  have hmakeDirs : (Files.makeDirAll parent).Follows (Moves root ⟨stamp, .put key value⟩)
      (fun _ phase => phase = .begun) .begun :=
    follows_makeDirs (fun path way => .makeDir above way) fun path _ => .isDir path
  refine Program.follows_bind.2 (hmakeDirs.mono ?_)
  rintro (fault | _) _ rfl
  · exact Program.follows_done.2 (by simp)
  refine follows_request fun written => ?_
  rcases written with fault | _
  · exact ⟨.failed, .writeFault above fault, follows_discard above fault⟩
  refine ⟨.written, .write above, follows_request fun renamed => ?_⟩
  rcases renamed with fault | _
  · exact ⟨.failed, .renameFault above fault, follows_discard above fault⟩
  · exact ⟨.placed, .rename above, Program.follows_done.2 (by simp)⟩

theorem follows_get (h : errand.call.key? = some key) :
    (DirectoryStore.get root key).Follows (Moves root errand)
      (fun result phase => ∀ value, result = .ok (some value) → phase = .found value) .begun := by
  refine follows_request fun there => ⟨.begun, .isDir _ there, ?_⟩
  split
  · rintro _ ⟨⟩
  refine follows_request fun found => ?_
  rcases found with fault | content
  · refine ⟨.begun, .readFault h fault, ?_⟩
    cases fault <;> rintro _ ⟨⟩
  · refine ⟨.found content, .read h content, ?_⟩
    rintro _ ⟨⟩
    rfl

theorem follows_delete :
    (DirectoryStore.delete root key).Follows (Moves root ⟨stamp, .delete key⟩)
      (Ends ⟨stamp, .delete key⟩) .begun := by
  refine follows_request fun removed => ⟨.begun, .remove removed, ?_⟩
  rcases removed with fault | _
  · cases fault <;> trivial
  · trivial

/-- What a walk makes of the keys that it has found at one entry and those of the rest. -/
def joined (found : Except StoreFault (List BlobKey))
    (rest : Program Files (Except StoreFault (List BlobKey))) :
    Program Files (Except StoreFault (List BlobKey)) :=
  match found with
  | .error fault => pure (.error fault)
  | .ok keys => do
      match ← rest with
      | .error fault => return .error fault
      | .ok others => return .ok (keys ++ others)

theorem follows_keysOf {below : Path → List String →
      Program Files (Except StoreFault (List BlobKey))} {phase : Phase}
    (hbelow : ∀ path above, (below path above).Follows (Moves root errand)
      (fun _ last => last = phase) phase)
    (path : Path) (above : List String) (entries : List (FileName × FileKind)) :
    (DirectoryStore.keysOf below path above entries).Follows (Moves root errand)
      (fun _ last => last = phase) phase := by
  induction entries with
  | nil => rfl
  | cons entry rest ih =>
      obtain ⟨name | bytes, kind⟩ := entry
      · rw [DirectoryStore.keysOf]
        split
        · exact ih
        have more (found : Except StoreFault (List BlobKey)) :
            (joined found (DirectoryStore.keysOf below path above rest)).Follows
              (Moves root errand) (fun _ last => last = phase) phase := by
          rcases found with fault | keys
          · rfl
          · refine Program.follows_bind.2 (ih.mono ?_)
            rintro (fault | others) _ rfl <;> rfl
        cases kind with
        | directory =>
            refine Program.follows_bind.2 ((hbelow _ _).mono ?_)
            rintro found _ rfl
            exact more found
        | file =>
            dsimp only
            cases BlobKey.ofText ("/".intercalate (above ++ [name])) with
            | ok key => exact more (.ok [key])
            | error fault => exact more (.ok [])
        | other => exact more (.ok [])
      · exact ih

theorem follows_walk {phase : Phase} (depth : Nat) (path : Path) (above : List String) :
    (DirectoryStore.walk depth path above).Follows (Moves root errand)
      (fun _ last => last = phase) phase := by
  induction depth generalizing path above with
  | zero => rfl
  | succ depth ih =>
      refine follows_request fun entries => ⟨phase, .entries path entries, ?_⟩
      rcases entries with fault | entries
      · cases fault <;> rfl
      · exact follows_keysOf ih path above entries

/-- Every call of a store keeps to the rules. -/
theorem follows_answer (root : Path) (errand : Errand) :
    (DirectoryStore.answer root errand.stamp errand.call).Follows (Moves root errand)
      (Ends errand) .begun := by
  obtain ⟨stamp, call⟩ := errand
  cases call with
  | put key value =>
      refine follows_put.mono fun result phase hplaced => ?_
      rcases result with fault | _
      · trivial
      · exact hplaced.1 rfl
  | delete key => exact follows_delete
  | get key =>
      refine (follows_get rfl).mono fun result phase hfound => ?_
      rcases result with fault | _ | value
      · trivial
      · trivial
      · exact hfound value rfl
  | has key =>
      refine Program.follows_bind.2 ((follows_get rfl).mono fun result phase _ => ?_)
      cases result <;> trivial
  | list start =>
      refine Program.follows_bind.2 ((follows_walk _ root []).mono fun result phase _ => ?_)
      cases result <;> trivial

end Follows

end Sharing

end Handoff
