import Handoff.Proofs.Conduct
import Handoff.Run.Supervision
/-!
# How a supervision goes

The phases of a supervision, what it may ask of the child and of the clock in each of them, and
the proof that it asks nothing else, whatever it is answered.
-/

namespace Handoff

open Program

namespace Supervision

/-- Where a supervision stands.  The clock showed `started` when it began and, once the group was
asked to terminate, `stopped` right after that. -/
inductive Phase where
  | opening
  | looking (started : Nat) (stopped : Option Nat)
  /-- The child was seen running. -/
  | running (started : Nat) (stopped : Option Nat)
  /-- The child has time left. -/
  | early (started : Nat) (stopped : Option Nat)
  /-- The clock has shown `reading`; a sleep follows. -/
  | drowsy (started : Nat) (stopped : Option Nat) (reading : Nat)
  /-- The time of the child is up. -/
  | late (started : Nat)
  /-- The group was asked to terminate. -/
  | asked (started : Nat)
  /-- The grace period has passed. -/
  | obstinate (started stopped : Nat)
  | killed (started stopped : Nat)
  /-- The child has ended after it was asked to. -/
  | gone (started stopped : Nat) (status : ExitStatus)
  /-- A look at the child has failed. -/
  | lost (started : Nat) (stopped : Option Nat) (fault : OsFault)
  | givenUp (started : Nat) (stopped : Option Nat) (fault : OsFault)
  | over (outcome : Outcome)

def due (settings : RunnerSettings) (started : Nat) : Option Nat → Nat
  | none => started + settings.timeout.toNanos
  | some stopped => stopped + settings.killGrace.toNanos

inductive Moves (settings : RunnerSettings) :
    Phase → (request : SupervisionRequest) → request.Answer → Phase → Prop
  | start (reading : Nat) : Moves settings .opening .now reading (.looking reading none)
  | seen {started : Nat} {stopped : Option Nat} :
      Moves settings (.looking started stopped) .tryWait (.ok none) (.running started stopped)
  | ended {started : Nat} (status : ExitStatus) :
      Moves settings (.looking started none) .tryWait (.ok (some status))
        (.over (.ended status false))
  | leave {started stopped : Nat} (status : ExitStatus) :
      Moves settings (.looking started (some stopped)) .tryWait (.ok (some status))
        (.gone started stopped status)
  | lose {started : Nat} {stopped : Option Nat} (fault : OsFault) :
      Moves settings (.looking started stopped) .tryWait (.error fault)
        (.lost started stopped fault)
  | inTime {started : Nat} {stopped : Option Nat} {reading : Nat}
      (early : reading < due settings started stopped)
      (fits : due settings started stopped < clockEnd) :
      Moves settings (.running started stopped) .now reading (.early started stopped)
  | overflow {started : Nat} {stopped : Option Nat} {reading : Nat}
      (early : reading < due settings started stopped)
      (past : clockEnd ≤ due settings started stopped) :
      Moves settings (.running started stopped) .now reading (.over (.panicked .clockOverflow))
  | outOfTime {started reading : Nat} (late : settings.timeout.toNanos ≤ reading - started) :
      Moves settings (.running started none) .now reading (.late started)
  | outOfGrace {started stopped reading : Nat}
      (late : settings.killGrace.toNanos ≤ reading - stopped) :
      Moves settings (.running started (some stopped)) .now reading (.obstinate started stopped)
  | clock {started : Nat} {stopped : Option Nat} (reading : Nat) :
      Moves settings (.early started stopped) .now reading (.drowsy started stopped reading)
  | sleep {started : Nat} {stopped : Option Nat} {reading : Nat} :
      Moves settings (.drowsy started stopped reading)
        (.sleep (nextPoll settings.pollInterval.toNanos (due settings started stopped) reading)) ()
        (.looking started stopped)
  | terminate {started : Nat} :
      Moves settings (.late started) (.signalGroup .terminate) () (.asked started)
  | stop {started : Nat} (reading : Nat) :
      Moves settings (.asked started) .now reading (.looking started (some reading))
  | kill {started stopped : Nat} :
      Moves settings (.obstinate started stopped) (.signalGroup .kill) () (.killed started stopped)
  | reap {started stopped : Nat} (answer : Except OsFault ExitStatus) :
      Moves settings (.killed started stopped) .wait answer
        (.over (.ofWait answer))
  | sweep {started stopped : Nat} {status : ExitStatus} :
      Moves settings (.gone started stopped status) (.signalGroup .kill) ()
        (.over (.ended status true))
  | giveUp {started : Nat} {stopped : Option Nat} {fault : OsFault} :
      Moves settings (.lost started stopped fault) (.signalGroup .kill) ()
        (.givenUp started stopped fault)
  | bury {started : Nat} {stopped : Option Nat} {fault : OsFault}
      (answer : Except OsFault ExitStatus) :
      Moves settings (.givenUp started stopped fault) .wait answer (.over (.failed fault))

def Ends : Option Outcome → Phase → Prop
  | some outcome, phase => phase = .over outcome
  | none, phase => ∃ started stopped, phase = .looking started stopped

/-! ## One turn of the loop -/

section Turn

variable (settings : RunnerSettings) (started looks : Nat)

/-- What follows when the clock has shown `reading` after the child was seen running. -/
def judge (stopped : Option Nat) (reading : Nat) : Program Child (Option Outcome) :=
  match stopped with
  | none =>
      if settings.timeout.toNanos ≤ reading - started then do
        Child.signalGroup .terminate
        loop settings started looks (some (← Child.now))
      else nap settings started settings.timeout (loop settings started looks none)
  | some stopped =>
      if settings.killGrace.toNanos ≤ reading - stopped then some <$> killAndWait
      else nap settings stopped settings.killGrace (loop settings started looks (some stopped))

/-- What follows a look at the child. -/
def respond (stopped : Option Nat) (answer : Except OsFault (Option ExitStatus)) :
    Program Child (Option Outcome) :=
  match answer with
  | .error fault => do
      Child.signalGroup .kill
      let _ ← Child.wait
      return some (.failed fault)
  | .ok none => do judge settings started looks stopped (← Child.now)
  | .ok (some status) =>
      match stopped with
      | none => return some (.ended status false)
      | some _ => do
          Child.signalGroup .kill
          return some (.ended status true)

theorem loop_succ (stopped : Option Nat) :
    loop settings started (looks + 1) stopped =
      Child.tryWait >>= respond settings started looks stopped := by
  rw [loop]
  refine congrArg _ (funext fun answer => ?_)
  rcases answer with fault | _ | status
  · rfl
  · cases stopped <;> rfl
  · cases stopped <;> rfl

end Turn

/-! ## The course of a supervision -/

variable {settings : RunnerSettings} {started looks : Nat}

theorem follows_killAndWait {stopped : Nat} :
    (some <$> killAndWait).Follows (Moves settings) Ends (.obstinate started stopped) :=
  fun _ => ⟨_, .kill, fun answer => ⟨_, .reap answer, rfl⟩⟩

/-- While there is time left the child is looked at again after a sleep, if the clock can show the
end of that time. -/
theorem follows_nap {stopped : Option Nat} {moment reading : Nat} {span : Duration}
    (hdue : moment + span.toNanos = due settings started stopped)
    (hearly : reading < due settings started stopped)
    (hloop : (loop settings started looks stopped).Follows (Moves settings) Ends
      (.looking started stopped)) :
    ∃ after, Moves settings (.running started stopped) .now reading after ∧
      (nap settings moment span (loop settings started looks stopped)).Follows
        (Moves settings) Ends after := by
  by_cases hfits : moment + span.toNanos < clockEnd
  · rw [nap_of_lt hfits, hdue]
    rw [hdue] at hfits
    exact ⟨_, .inTime hearly hfits,
      fun reading => ⟨_, .clock reading, fun _ => ⟨_, .sleep, hloop⟩⟩⟩
  · have hpast : clockEnd ≤ moment + span.toNanos := Nat.not_lt.1 hfits
    rw [nap_of_le hpast]
    rw [hdue] at hpast
    exact ⟨_, .overflow hearly hpast, rfl⟩

theorem follows_judge (hloop : ∀ stopped, (loop settings started looks stopped).Follows
      (Moves settings) Ends (.looking started stopped)) (stopped : Option Nat) (reading : Nat) :
    ∃ after, Moves settings (.running started stopped) .now reading after ∧
      (judge settings started looks stopped reading).Follows (Moves settings) Ends after := by
  cases stopped with
  | none =>
      by_cases hlate : settings.timeout.toNanos ≤ reading - started
      · rw [judge, if_pos hlate]
        exact ⟨_, .outOfTime hlate, fun _ => ⟨_, .terminate,
          fun stopped => ⟨_, .stop stopped, hloop (some stopped)⟩⟩⟩
      · have hearly : reading < due settings started none := by
          show reading < started + settings.timeout.toNanos
          omega
        rw [judge, if_neg hlate]
        exact follows_nap rfl hearly (hloop none)
  | some stopped =>
      by_cases hlate : settings.killGrace.toNanos ≤ reading - stopped
      · rw [judge, if_pos hlate]
        exact ⟨_, .outOfGrace hlate, follows_killAndWait⟩
      · have hearly : reading < due settings started (some stopped) := by
          show reading < stopped + settings.killGrace.toNanos
          omega
        rw [judge, if_neg hlate]
        exact follows_nap rfl hearly (hloop (some stopped))

theorem follows_loop (stopped : Option Nat) :
    (loop settings started looks stopped).Follows (Moves settings) Ends
      (.looking started stopped) := by
  induction looks generalizing stopped with
  | zero => exact ⟨started, stopped, rfl⟩
  | succ looks ih =>
      rw [loop_succ]
      intro answer
      rcases answer with fault | _ | status
      · exact ⟨_, .lose fault, fun _ => ⟨_, .giveUp, fun answer => ⟨_, .bury answer, rfl⟩⟩⟩
      · exact ⟨_, .seen, fun reading => follows_judge ih stopped reading⟩
      · cases stopped with
        | none => exact ⟨_, .ended status, rfl⟩
        | some stopped => exact ⟨_, .leave status, fun _ => ⟨_, .sweep, rfl⟩⟩

/-- A supervision asks what its phase allows and nothing else, and the way it ends fits the phase
it ends in. -/
theorem follows_supervise (settings : RunnerSettings) (looks : Nat) :
    (supervise settings looks).Follows (Moves settings) Ends .opening :=
  fun reading => ⟨_, .start reading, follows_loop none⟩

end Supervision

end Handoff
