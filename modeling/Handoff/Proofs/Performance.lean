import Handoff.Proofs.Conversation
/-!
# Programs performed

A program performed in surroundings that answer every request by a state of their own, and the
talk that it has with them.  Programs that make only certain requests run alike in all
surroundings that agree on these.
-/

namespace Handoff

/-- Surroundings that answer by their state. -/
abbrev Surroundings (I : Interface) (σ : Type) :=
  (request : I.Request) → σ → I.Answer request × σ

namespace Program

variable {I : Interface} {α β ρ σ τ : Type}

def perform (answer : Surroundings I σ) (program : Program I α) (s : σ) : α × σ :=
  program.run (m := StateM σ) answer s

variable {answer : Surroundings I σ}

@[simp] theorem perform_done (value : α) (s : σ) :
    (done value : Program I α).perform answer s = (value, s) := rfl

@[simp] theorem perform_ask (request : I.Request) (next : I.Answer request → Program I α) (s : σ) :
    (ask request next).perform answer s =
      (next (answer request s).1).perform answer (answer request s).2 := rfl

theorem perform_bind (program : Program I α) (next : α → Program I β) (s : σ) :
    (program >>= next).perform answer s =
      (next (program.perform answer s).1).perform answer (program.perform answer s).2 := by
  rw [perform, run_bind]
  rfl

def talk (answer : Surroundings I σ) : Program I α → σ → I.Talk
  | done _, _ => []
  | ask request next, s =>
      ⟨request, (answer request s).1⟩ ::
        talk answer (next (answer request s).1) (answer request s).2

theorem talk_bind (program : Program I α) (next : α → Program I β) (s : σ) :
    (program >>= next).talk answer s = program.talk answer s ++
      (next (program.perform answer s).1).talk answer (program.perform answer s).2 := by
  induction program generalizing s with
  | done value => rfl
  | ask request rest ih => exact congrArg (List.cons _) (ih _ _)

theorem converses_talk (program : Program I α) (s : σ) :
    program.Converses (program.talk answer s) (done (program.perform answer s).1) := by
  induction program generalizing s with
  | done value => exact .pause _
  | ask request next ih => exact .ask (ih _ _)

theorem exists_answer (program : Program I α) (s : σ) :
    ∀ said ∈ program.talk answer s, ∃ t, said.2 = (answer said.1 t).1 := by
  induction program generalizing s with
  | done value => exact nofun
  | ask request next ih => exact List.forall_mem_cons.2 ⟨⟨s, rfl⟩, ih _ _⟩

/-! ## Programs within limits -/

/-- The program makes no requests but allowed ones, and ends with a value that is fit. -/
def Within (allowed : I.Request → Prop) (fit : α → Prop) (program : Program I α) : Prop :=
  program.Follows (fun _ request _ _ => allowed request) (fun value _ => fit value) ()

variable {allowed : I.Request → Prop} {fit : α → Prop}

theorem within_ask {request : I.Request} {next : I.Answer request → Program I α} :
    (ask request next).Within allowed fit ↔
      ∀ answer, allowed request ∧ (next answer).Within allowed fit :=
  forall_congr' fun _ => ⟨fun ⟨_, h⟩ => h, fun h => ⟨(), h⟩⟩

/-- A program that keeps to the rules is within limits when the rules are, in all phases that
can come. -/
theorem Follows.within {moves : Conduct I ρ} {ends : α → ρ → Prop} {program : Program I α}
    {phase : ρ} (h : program.Follows moves ends phase) (safe : ρ → Prop) (hphase : safe phase)
    (hmoves : ∀ {phase request answer after}, safe phase → moves phase request answer after →
      allowed request ∧ safe after)
    (hends : ∀ {value phase}, safe phase → ends value phase → fit value) :
    program.Within allowed fit := by
  induction program generalizing phase with
  | done value => exact hends hphase h
  | ask request next ih =>
      refine within_ask.2 fun answer => ?_
      obtain ⟨after, hmove, hnext⟩ := h answer
      obtain ⟨hrequest, hafter⟩ := hmoves hphase hmove
      exact ⟨hrequest, ih answer hnext hafter⟩

theorem within_bind {program : Program I α} {next : α → Program I β} {fit : β → Prop} :
    (program >>= next).Within allowed fit ↔
      program.Within allowed fun value => (next value).Within allowed fit :=
  follows_bind

theorem Within.mono {fit' : α → Prop} {program : Program I α} (h : program.Within allowed fit)
    (himp : ∀ value, fit value → fit' value) : program.Within allowed fit' :=
  Follows.mono h fun value _ => himp value

theorem within_of_forall (hallowed : ∀ request, allowed request) (program : Program I α) :
    program.Within allowed fun _ => True := by
  induction program with
  | done value => trivial
  | ask request next ih => exact fun answer => ⟨(), hallowed request, ih answer⟩

theorem Within.forall_talk {program rest : Program I α} {talk : I.Talk}
    (h : program.Within allowed fit) (hconverses : program.Converses talk rest) :
    ∀ said ∈ talk, allowed said.1 := by
  induction hconverses with
  | pause program => exact nofun
  | ask later ih =>
      obtain ⟨hrequest, hnext⟩ := within_ask.1 h _
      exact List.forall_mem_cons.2 ⟨hrequest, ih hnext⟩

theorem Within.fit_perform {program : Program I α} (h : program.Within allowed fit) (s : σ) :
    fit (program.perform answer s).1 := by
  induction program generalizing s with
  | done value => exact h
  | ask request next ih => exact ih _ (within_ask.1 h _).2 _

/-- What holds of phase and state, and is kept by every request that the rules allow, holds where
the program ends. -/
theorem Follows.perform {moves : Conduct I ρ} {ends : α → ρ → Prop} {program : Program I α}
    {phase : ρ} {s : σ} (h : program.Follows moves ends phase) {holds : ρ → σ → Prop}
    (hstart : holds phase s)
    (hmoves : ∀ {phase request after s}, holds phase s →
      moves phase request (answer request s).1 after → holds after (answer request s).2) :
    ∃ last, ends (program.perform answer s).1 last ∧ holds last (program.perform answer s).2 := by
  induction program generalizing phase s with
  | done value => exact ⟨phase, h, hstart⟩
  | ask request next ih =>
      obtain ⟨after, hmove, hnext⟩ := h (answer request s).1
      exact ih _ hnext (hmoves hstart hmove)

/-- Surroundings that agree on all allowed requests make no difference. -/
theorem Within.perform_eq {other : Surroundings I τ} {embed : τ → σ} {program : Program I α}
    (h : program.Within allowed fit)
    (hagree : ∀ request, allowed request → ∀ s,
      answer request (embed s) = ((other request s).1, embed (other request s).2)) (s : τ) :
    program.perform answer (embed s) =
      ((program.perform other s).1, embed (program.perform other s).2) := by
  induction program generalizing s with
  | done value => rfl
  | ask request next ih =>
      obtain ⟨hrequest, hnext⟩ := within_ask.1 h (other request s).1
      rw [perform_ask, hagree request hrequest, ih _ hnext]
      rfl

end Program

/-! ## Programs that may end in a fault -/

namespace WorkM

open Program

variable {α β σ : Type} {answer : Surroundings Work σ} {program : WorkM α} {next : α → WorkM β}
  {s t : σ}

theorem perform_bind_ok {value : α} (h : program.run.perform answer s = (.ok value, t)) :
    (program >>= next).run.perform answer s = (next value).run.perform answer t := by
  rw [ExceptT.run_bind, perform_bind, h]

theorem perform_bind_error {fault : RoundFault}
    (h : program.run.perform answer s = (.error fault, t)) :
    (program >>= next).run.perform answer s = (.error fault, t) := by
  rw [ExceptT.run_bind, perform_bind, h]
  rfl

theorem perform_lift_bind {plain : Program Work α} {value : α}
    (h : plain.perform answer s = (value, t)) :
    (ExceptT.lift plain >>= next).run.perform answer s = (next value).run.perform answer t := by
  have hlift : (ExceptT.lift plain : WorkM α).run.perform answer s = (.ok value, t) := by
    change (plain >>= fun value => (done (Except.ok value) :
      Program Work (Except RoundFault α))).perform answer s = _
    rw [perform_bind, h, perform_done]
  exact perform_bind_ok hlift

theorem talk_lift_bind {plain : Program Work α} {value : α}
    (h : plain.perform answer s = (value, t)) :
    (ExceptT.lift plain >>= next).run.talk answer s =
      plain.talk answer s ++ (next value).run.talk answer t := by
  have hlift : (ExceptT.lift plain : WorkM α).run = plain >>= fun value =>
      (done (Except.ok value) : Program Work (Except RoundFault α)) := rfl
  rw [ExceptT.run_bind, hlift, talk_bind, talk_bind, perform_bind, h]
  exact congrArg (· ++ _) (List.append_nil _)

theorem within_bind {allowed : WorkRequest → Prop} {fit : Except RoundFault β → Prop}
    (h : program.run.Within allowed fun result =>
      ∀ value, result = .ok value → (next value).run.Within allowed fit)
    (hfault : ∀ fault, fit (.error fault)) : (program >>= next).run.Within allowed fit := by
  refine follows_bind (Follows.mono h fun result phase hresult => ?_)
  cases result with
  | ok value => exact hresult value rfl
  | error fault => exact hfault fault

end WorkM

namespace Work

open Program

variable {α β τ : Type} {answer : Surroundings Work τ}

theorem perform_bind_ok {program : StoreM α} {next : α → StoreM β} {value : α} {s t : τ}
    (h : (ofStorage program.run).perform answer s = (.ok value, t)) :
    (ofStorage (program >>= next).run).perform answer s =
      (ofStorage (next value).run).perform answer t := by
  rw [ExceptT.run_bind, ofStorage_bind, perform_bind, h]

theorem perform_store_ok {program : StoreM α} {value : α} {s t : τ}
    (h : (ofStorage program.run).perform answer s = (.ok value, t)) :
    (store program).run.perform answer s = (.ok value, t) := by
  rw [store, ExceptT.run_mk, perform_bind, h]
  rfl

theorem perform_call (call : StoreCall) (s : τ) :
    (store (storeCall call)).run.perform answer s =
        ((answer (WorkRequest.store call) s).1.mapError RoundFault.store,
          (answer (WorkRequest.store call) s).2) ∧
      (store (storeCall call)).run.talk answer s =
        [⟨.store call, (answer (WorkRequest.store call) s).1⟩] := by
  have hcall : (ofStorage (storeCall call).run).perform answer s =
      answer (WorkRequest.store call) s := rfl
  have hsaid : (ofStorage (storeCall call).run).talk answer s =
      [⟨.store call, (answer (WorkRequest.store call) s).1⟩] := rfl
  rw [store, ExceptT.run_mk, perform_bind, talk_bind, hcall, hsaid]
  cases (answer (WorkRequest.store call) s).1 with
  | ok value => exact ⟨rfl, rfl⟩
  | error fault => exact ⟨rfl, rfl⟩

theorem perform_observe {s : τ} (h : ∀ signal : Signal,
    (answer (.store (.get (BlobKey.signal signal))) s).2 = s) (signals : List Signal) :
    (ofStorage (SignalBoard.observe signals)).perform answer s = ((), s) := by
  induction signals with
  | nil => rfl
  | cons signal rest ih =>
      change (ofStorage (SignalBoard.observe rest)).perform answer
        (answer (.store (.get (BlobKey.signal signal))) s).2 = _
      rw [h, ih]

theorem within_ofStorage {allowed : WorkRequest → Prop}
    (hallowed : ∀ call, allowed (.store call)) (program : Program Storage α) :
    (ofStorage program).Within allowed fun _ => True := by
  induction program with
  | done value => trivial
  | ask call next ih => exact fun answer => ⟨(), hallowed call, ih answer⟩

theorem within_store {allowed : WorkRequest → Prop} (hallowed : ∀ call, allowed (.store call))
    (program : StoreM α) : (store program).run.Within allowed fun _ => True := by
  refine within_bind.2 ((within_ofStorage hallowed program.run).mono fun result _ => ?_)
  cases result <;> trivial

end Work

end Handoff
