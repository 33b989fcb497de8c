import Handoff.Host.Agent
import Handoff.Proofs.Performance
import Handoff.Proofs.Run.Supervising
import Mathlib.Order.Nat
/-!
# Runs that break off

A panic of the clock takes the whole program with it.  What gets to its end has come to what it
would come to if there were no panics.  What does not was given a time that goes on for longer than
the clock.
-/

namespace Handoff

open Program

/-! ## The clock of a host -/

namespace Kernel

variable (kernel : Kernel)

theorem clock_act (process signal : Nat) :
    (deliver.act kernel process signal).clock = kernel.clock := by
  unfold deliver.act
  split
  · rfl
  split
  · rfl
  · rfl
  split
  · rfl
  split
  · rfl
  · rfl

theorem clock_foldl_act (process : Nat) (signals : List Nat) :
    (signals.foldl (fun kernel signal => deliver.act kernel process signal) kernel).clock =
      kernel.clock := by
  induction signals generalizing kernel with
  | nil => rfl
  | cons signal rest ih => rw [List.foldl_cons, ih, clock_act]

theorem clock_deliver (process signal : Nat) :
    (kernel.deliver process signal).clock = kernel.clock := by
  unfold deliver
  split
  · rfl
  split
  · rfl
  split
  · rfl
  split
  · rfl
  split
  · split
    · exact clock_foldl_act _ process _
    · rfl
  · exact clock_act kernel process signal

theorem clock_deliverAll (signal : Nat) (processes : List Nat) :
    (kernel.deliverAll signal processes).clock = kernel.clock := by
  induction processes generalizing kernel with
  | nil => rfl
  | cons process rest ih => rw [deliverAll, ih, clock_deliver]

theorem clock_le_runUntil (time : Nat) : kernel.clock ≤ (kernel.runUntil time).clock :=
  (clock_le_advance _ _ _ kernel).trans (Nat.le_max_left _ _)

end Kernel

/-! ## Supervision by a clock that goes on -/

def RunnerSettings.longest (settings : RunnerSettings) : Nat :=
  max settings.timeout.toNanos settings.killGrace.toNanos

namespace Supervision

variable {σ : Type} {answer : Surroundings Child σ} {clock : σ → Nat} {settings : RunnerSettings}

/-- The clock goes on, and shows no moment that is still to come. -/
structure GoesOn (answer : Surroundings Child σ) (clock : σ → Nat) : Prop where
  le : ∀ request s, clock s ≤ clock (answer request s).2
  now : ∀ s, (answer .now s).1 = clock (answer .now s).2

/-- The next deadline of a phase lies no further ahead than the longest time that is given. -/
def Reaches (settings : RunnerSettings) : Phase → Nat → Prop
  | .looking started stopped, moment => due settings started stopped ≤ moment + settings.longest
  | .running started stopped, moment => due settings started stopped ≤ moment + settings.longest
  | .early started stopped, moment => due settings started stopped ≤ moment + settings.longest
  | .drowsy started stopped _, moment => due settings started stopped ≤ moment + settings.longest
  | .over (.panicked _), moment => clockEnd ≤ moment + settings.longest
  | _, _ => True

theorem reaches_move (hclock : GoesOn answer clock) {phase after : Phase}
    {request : SupervisionRequest} {s : σ} (h : Reaches settings phase (clock s))
    (hmove : Moves settings phase request (answer request s).1 after) :
    Reaches settings after (clock (answer request s).2) := by
  have hle := hclock.le request s
  have htimeout : settings.timeout.toNanos ≤ settings.longest := Nat.le_max_left _ _
  have hgrace : settings.killGrace.toNanos ≤ settings.longest := Nat.le_max_right _ _
  generalize hanswer : (answer request s).1 = reply at hmove
  cases hmove with
  | start reading =>
      obtain rfl : reading = clock (answer .now s).2 := hanswer.symm.trans (hclock.now s)
      exact Nat.add_le_add_left htimeout _
  | stop reading =>
      obtain rfl : reading = clock (answer .now s).2 := hanswer.symm.trans (hclock.now s)
      exact Nat.add_le_add_left hgrace _
  | seen => exact h.trans (Nat.add_le_add_right hle _)
  | inTime early fits => exact h.trans (Nat.add_le_add_right hle _)
  | overflow early past => exact (past.trans h).trans (Nat.add_le_add_right hle _)
  | clock reading => exact h.trans (Nat.add_le_add_right hle _)
  | sleep => exact h.trans (Nat.add_le_add_right hle _)
  | reap reply => cases reply <;> trivial
  | _ => trivial

/-- A supervision that panics was given a time that goes on for longer than the clock. -/
theorem clockEnd_le_of_panicked (hclock : GoesOn answer clock) {looks : Nat} {s t : σ}
    {panic : Panic}
    (h : (supervise settings looks).perform answer s = (some (.panicked panic), t)) :
    clockEnd ≤ clock t + settings.longest := by
  let holds (phase : Phase) (s : σ) : Prop := Reaches settings phase (clock s)
  have hopening : holds .opening s := trivial
  obtain ⟨last, hends, hreaches⟩ :=
    (follows_supervise settings looks).perform hopening (reaches_move hclock)
  rw [h] at hends hreaches
  obtain rfl : last = .over (.panicked panic) := hends
  exact hreaches

end Supervision

/-! ## Commands on a host -/

namespace Runner

open Supervision

namespace Supervised

def clock (child : Supervised) : Nat :=
  child.host.kernel.clock

theorem clock_ending? (child : Supervised) : child.ending?.2.clock = child.clock := by
  unfold ending?
  split <;> rfl

theorem goesOn : GoesOn answer clock where
  le request child := by
    cases request with
    | tryWait => exact child.clock_ending?.ge
    | wait => exact (Kernel.clock_le_advance _ _ _ _).trans child.finish.clock_ending?.ge
    | signalGroup stop => exact (Kernel.clock_deliverAll _ _ _).ge
    | now => exact Nat.le_refl _
    | sleep nanos => exact Kernel.clock_le_runUntil _ _
  now _ := rfl

end Supervised

variable {settings : RunnerSettings} {command : Command} {program : String} {directory : Path}
  {host after : Host} {panic : Panic}

theorem clockEnd_le_of_runCaptured
    (h : runCaptured settings program command directory host = (.error panic, after)) :
    clockEnd ≤ after.kernel.clock + settings.longest := by
  unfold runCaptured at h
  split at h
  · cases h
  split at h
  · cases h
  next process begun hstarted =>
  rcases hsupervised : supervise settings ⟨begun, process⟩ with ⟨outcome, ended⟩
  rw [hsupervised] at h
  dsimp only at h
  split at h
  · cases h
  · cases h
  · cases h
    exact clockEnd_le_of_panicked Supervised.goesOn hsupervised
  · cases h

/-- A command breaks the program off only when it is given a time that goes on for longer than the
clock. -/
theorem clockEnd_le_of_attempt (h : attempt settings command host = (.error panic, after)) :
    clockEnd ≤ after.kernel.clock + settings.longest := by
  unfold attempt at h
  split at h
  · cases h
  dsimp only at h
  split at h
  · cases h
  next files hmade =>
  rcases hcaptured : runCaptured settings _ command (captureDirectory settings host)
    (host.withFiles files) with ⟨found | _, left⟩
  · rw [hcaptured] at h
    cases h
    have hleft := clockEnd_le_of_runCaptured hcaptured
    unfold Host.discard
    split <;> exact hleft
  · rw [hcaptured] at h
    cases h

end Runner

/-! ## Programs of an agent -/

namespace Agent

variable {α : Type} {agent after : Agent} {request : WorkRequest} {panic : Panic}

theorem answer_of_attempt {reply : request.Answer} (h : attempt request agent = (.ok reply, after)) :
    answer request agent = (reply, after) := by
  cases request with
  | run command limit =>
      simp only [attempt, answer, Runner.run] at h ⊢
      generalize Runner.attempt _ _ _ = attempted at h
      obtain ⟨panic | result, host⟩ := attempted
      · cases h
      · cases h
        rfl
  | _ =>
      cases h
      rfl

theorem clockEnd_le_of_attempt (h : attempt request agent = (.error panic, after)) :
    ∃ command limit, request = .run command limit ∧
      Supervision.clockEnd ≤ after.session.host.kernel.clock + (agent.settingsFor limit).longest := by
  cases request with
  | run command limit =>
      refine ⟨command, limit, rfl, ?_⟩
      simp only [attempt] at h
      rcases hattempt : Runner.attempt (agent.settingsFor limit) command agent.session.host with
        ⟨result, host⟩
      rw [hattempt] at h
      cases h
      exact Runner.clockEnd_le_of_attempt hattempt
  | _ => cases h

theorem settings_answer (request : WorkRequest) (agent : Agent) :
    (answer request agent).2.settings = agent.settings := by
  cases request <;> rfl

theorem work_ask {request : Work.Request} (next : Work.Answer request → Program Work α)
    (agent : Agent) :
    work (ask request next) agent =
      match attempt request agent with
      | (.ok reply, after) => work (next reply) after
      | (.error panic, after) => (.error panic, after) := by
  change ExceptT.bindCont (m := StateM Agent)
    (fun reply => (work (next reply) : ExceptT Panic (StateM Agent) α))
    (attempt request agent).1 (attempt request agent).2 = _
  rcases attempt request agent with ⟨panic | reply, after⟩ <;> rfl

/-- A program that gets to its end has performed as it does without panics. -/
theorem perform_of_work {program : Program Work α} {value : α}
    (h : work program agent = (.ok value, after)) :
    program.perform answer agent = (value, after) := by
  induction program generalizing agent with
  | done found =>
      cases h
      rfl
  | ask request next ih =>
      rw [work_ask] at h
      rcases hattempt : attempt request agent with ⟨panic | reply, between⟩
      · rw [hattempt] at h
        cases h
      · rw [hattempt] at h
        change (next (answer request agent).1).perform answer (answer request agent).2 = _
        rw [answer_of_attempt hattempt]
        exact ih reply h

/-- A program that breaks off has run a command with a time that goes on for longer than the
clock. -/
theorem clockEnd_le_of_work {program : Program Work α} {allowed : WorkRequest → Prop}
    {fit : α → Prop} {limit : Nat} (hprogram : program.Within allowed fit)
    (hlimit : ∀ command own, allowed (.run command own) → (agent.settingsFor own).longest ≤ limit)
    (h : work program agent = (.error panic, after)) :
    Supervision.clockEnd ≤ after.session.host.kernel.clock + limit := by
  induction program generalizing agent with
  | done found => cases h
  | ask request next ih =>
      rw [work_ask] at h
      rcases hattempt : attempt request agent with ⟨found | reply, between⟩
      · rw [hattempt] at h
        cases h
        obtain ⟨command, own, rfl, hend⟩ := clockEnd_le_of_attempt hattempt
        have hallowed := (within_ask.1 hprogram (.ok none)).1
        exact hend.trans (Nat.add_le_add_left (hlimit command own hallowed) _)
      · rw [hattempt] at h
        have hkept : between.settings = agent.settings := by
          have hsettings := settings_answer request agent
          rwa [answer_of_attempt hattempt] at hsettings
        refine ih reply (within_ask.1 hprogram reply).2 (fun command own hallowed => ?_) h
        rw [settingsFor, hkept]
        exact hlimit command own hallowed

end Agent

end Handoff
