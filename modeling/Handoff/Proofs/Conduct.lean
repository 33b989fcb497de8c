import Handoff.Program
import Handoff.SignalBoard
import Handoff.Work
/-!
# Rules of conduct

What a program may ask, and when, told as a relation between phases: a phase, a
request with its answer, and the phase after it.  A program that follows the relation
never makes a request that its phase does not allow, whatever the answers are.  The
phases say where a running program stands without looking at its code.
-/

namespace Handoff

/-- A relation between a phase, a request with its answer, and the next phase. -/
abbrev Conduct (I : Interface) (ρ : Type) :=
  ρ → (request : I.Request) → I.Answer request → ρ → Prop

namespace Program

variable {I : Interface} {α β ρ : Type}

/-- The program keeps to `moves` from `phase` on, on every answer, and where it ends
its value and its phase are related by `ends`. -/
def Follows (moves : Conduct I ρ) (ends : α → ρ → Prop) : Program I α → ρ → Prop
  | done value, phase => ends value phase
  | ask request next, phase =>
      ∀ answer, ∃ after, moves phase request answer after ∧
        (next answer).Follows moves ends after

@[simp] theorem follows_done {moves : Conduct I ρ} {ends : α → ρ → Prop} {value : α}
    {phase : ρ} : (done value : Program I α).Follows moves ends phase ↔ ends value phase :=
  Iff.rfl

theorem follows_ask {moves : Conduct I ρ} {ends : α → ρ → Prop} {request : I.Request}
    {next : I.Answer request → Program I α} {phase : ρ} :
    (ask request next).Follows moves ends phase ↔
      ∀ answer, ∃ after, moves phase request answer after ∧
        (next answer).Follows moves ends after :=
  Iff.rfl

theorem Follows.mono {moves : Conduct I ρ} {ends ends' : α → ρ → Prop}
    {program : Program I α} {phase : ρ} (h : program.Follows moves ends phase)
    (himp : ∀ value phase, ends value phase → ends' value phase) :
    program.Follows moves ends' phase := by
  induction program generalizing phase with
  | done value => exact himp value phase h
  | ask request next ih =>
      intro answer
      obtain ⟨after, hmove, hnext⟩ := h answer
      exact ⟨after, hmove, ih answer hnext⟩

theorem Follows.of_moves {moves moves' : Conduct I ρ} {ends : α → ρ → Prop}
    {program : Program I α} {phase : ρ} (h : program.Follows moves ends phase)
    (himp : ∀ {phase request answer after}, moves phase request answer after →
      moves' phase request answer after) : program.Follows moves' ends phase := by
  induction program generalizing phase with
  | done value => exact h
  | ask request next ih =>
      intro answer
      obtain ⟨after, hmove, hnext⟩ := h answer
      exact ⟨after, himp hmove, ih answer hnext⟩

theorem follows_bind {moves : Conduct I ρ} {ends : β → ρ → Prop} {program : Program I α}
    {next : α → Program I β} {phase : ρ} :
    (program >>= next).Follows moves ends phase ↔
      program.Follows moves (fun value phase => (next value).Follows moves ends phase)
        phase := by
  induction program generalizing phase with
  | done value => exact Iff.rfl
  | ask request rest ih =>
      rw [ask_bind, follows_ask, follows_ask]
      simp only [ih]

theorem Follows.ends {moves : Conduct I ρ} {ends : α → ρ → Prop} {program : Program I α}
    {value : α} {phase : ρ} (h : program.Follows moves ends phase)
    (hdone : program = done value) : ends value phase := by
  subst hdone
  exact h

theorem Follows.step {moves : Conduct I ρ} {ends : α → ρ → Prop} {request : I.Request}
    {next : I.Answer request → Program I α} {phase : ρ}
    (h : (ask request next).Follows moves ends phase) (answer : I.Answer request) :
    ∃ after, moves phase request answer after ∧ (next answer).Follows moves ends after :=
  h answer

end Program

/-! ## Programs that may end in a fault -/

namespace WorkM

open Program

variable {α β ρ : Type} {moves : Conduct Work ρ}

/-- What has to hold where the first of two programs ends. -/
def Then (moves : Conduct Work ρ) (ends : Except RoundFault β → ρ → Prop)
    (next : α → WorkM β) : Except RoundFault α → ρ → Prop
  | .ok value, phase => (next value).run.Follows moves ends phase
  | .error fault, phase => ends (.error fault) phase

theorem follows_bind {ends : Except RoundFault β → ρ → Prop} {program : WorkM α}
    {next : α → WorkM β} {phase : ρ}
    (h : program.run.Follows moves (Then moves ends next) phase) :
    (program >>= next).run.Follows moves ends phase := by
  rw [ExceptT.run_bind]
  refine Program.follows_bind.2 (h.mono fun result phase hresult => ?_)
  cases result with
  | ok value => exact hresult
  | error fault => exact hresult

theorem follows_lift {ends : Except RoundFault α → ρ → Prop} {program : Program Work α}
    {phase : ρ} (h : program.Follows moves (fun value phase => ends (.ok value) phase) phase) :
    (ExceptT.lift program : WorkM α).run.Follows moves ends phase := by
  refine Program.follows_bind.2 (h.mono fun value phase hvalue => ?_)
  exact hvalue

theorem follows_request {request : WorkRequest} {ends : Except RoundFault α → ρ → Prop}
    {next : request.Answer → WorkM α} {phase : ρ}
    (h : ∀ answer, ∃ after, moves phase request answer after ∧
      (next answer).run.Follows moves ends after) :
    (ExceptT.lift (Program.request (I := Work) request) >>= next).run.Follows moves ends
      phase :=
  follows_bind (follows_lift h)

end WorkM

namespace Work

open Program

variable {α β ρ : Type} {moves : Conduct Work ρ}

@[simp] theorem ofStorage_done (value : α) :
    ofStorage (done value : Program Storage α) = done value := rfl

@[simp] theorem ofStorage_ask (call : StoreCall)
    (next : Except StoreFault call.Result → Program Storage α) :
    ofStorage (ask (I := Storage) call next) =
      ask (I := Work) (.store call) fun answer => ofStorage (next answer) := rfl

theorem ofStorage_bind (program : Program Storage α) (next : α → Program Storage β) :
    ofStorage (program >>= next) = ofStorage program >>= fun value => ofStorage (next value) :=
  Program.run_bind _ program next

def Then (moves : Conduct Work ρ) (ends : Except StoreFault β → ρ → Prop)
    (next : α → StoreM β) : Except StoreFault α → ρ → Prop
  | .ok value, phase => (ofStorage (next value).run).Follows moves ends phase
  | .error fault, phase => ends (.error fault) phase

theorem follows_bind {ends : Except StoreFault β → ρ → Prop} {program : StoreM α}
    {next : α → StoreM β} {phase : ρ}
    (h : (ofStorage program.run).Follows moves (Then moves ends next) phase) :
    (ofStorage (program >>= next).run).Follows moves ends phase := by
  rw [ExceptT.run_bind, ofStorage_bind]
  refine Program.follows_bind.2 (h.mono fun result phase hresult => ?_)
  cases result with
  | ok value => exact hresult
  | error fault => exact hresult

def Lifted (ends : Except RoundFault α → ρ → Prop) : Except StoreFault α → ρ → Prop
  | .ok value, phase => ends (.ok value) phase
  | .error fault, phase => ends (.error (.store fault)) phase

theorem follows_store {ends : Except RoundFault α → ρ → Prop} {program : StoreM α}
    {phase : ρ} (h : (ofStorage program.run).Follows moves (Lifted ends) phase) :
    (store program).run.Follows moves ends phase := by
  refine Program.follows_bind.2 (h.mono fun result phase hresult => ?_)
  cases result with
  | ok value => exact hresult
  | error fault => exact hresult

theorem follows_call {call : StoreCall} {ends : Except RoundFault call.Result → ρ → Prop}
    {phase : ρ}
    (h : ∀ answer : Except StoreFault call.Result, ∃ after,
      moves phase (.store call) answer after ∧ Lifted ends answer after) :
    (store (storeCall call)).run.Follows moves ends phase :=
  follows_store h

theorem follows_observe (signals : List Signal) {phase : ρ}
    (h : ∀ signal (answer : Except StoreFault (Option ByteArray)),
      moves phase (.store (.get (BlobKey.signal signal))) answer phase) :
    (ofStorage (SignalBoard.observe signals)).Follows moves (fun _ later => later = phase)
      phase := by
  induction signals with
  | nil => rfl
  | cons signal rest ih => exact fun answer => ⟨phase, h signal answer, ih⟩

end Work

end Handoff
