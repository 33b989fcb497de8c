import Handoff.Duration
import Handoff.OsFault
import Handoff.Path
import Handoff.Program
import Handoff.Run.Capture
import Handoff.Run.ExitStatus
import Handoff.Run.Fault
/-!
# Supervision

The loop that waits for a child process under a time limit.  When the limit has
passed, the process group is asked to terminate; when it survives the grace period,
it is killed.
-/

namespace Handoff

structure RunnerSettings where
  timeout : Duration
  pollInterval : Duration
  /-- The time between the polite termination and the kill. -/
  killGrace : Duration
  cwd : Option Path
  /-- Where capture directories are made; the temporary directory of the system when
  not given. -/
  scratchRoot : Option Path
  /-- How many bytes of a stream are kept. -/
  captureLimit : Nat

inductive Stop where
  | terminate
  | kill
  deriving DecidableEq, Repr

inductive SupervisionRequest where
  /-- Whether the child has ended, and how. -/
  | tryWait
  /-- Wait until the child ends. -/
  | wait
  | signalGroup (stop : Stop)
  /-- The reading of the clock, in nanoseconds. -/
  | now
  | sleep (nanos : Nat)
  deriving DecidableEq

abbrev SupervisionRequest.Answer : SupervisionRequest → Type
  | tryWait => Except OsFault (Option ExitStatus)
  | wait => Except OsFault ExitStatus
  | signalGroup _ => Unit
  | now => Nat
  | sleep _ => Unit

def Child : Interface where
  Request := SupervisionRequest
  Answer := SupervisionRequest.Answer

namespace Child

def tryWait : Program Child (Except OsFault (Option ExitStatus)) :=
  Program.request (I := Child) .tryWait

def wait : Program Child (Except OsFault ExitStatus) :=
  Program.request (I := Child) .wait

def signalGroup (stop : Stop) : Program Child Unit :=
  Program.request (I := Child) (.signalGroup stop)

def now : Program Child Nat :=
  Program.request (I := Child) .now

def sleep (nanos : Nat) : Program Child Unit :=
  Program.request (I := Child) (.sleep nanos)

end Child

namespace Supervision

def sleepMin : Nat := 1000000

/-- How long to sleep before the next look at the child: up to the deadline, at most
the poll interval, and at least a millisecond. -/
def nextPoll (interval deadline clock : Nat) : Nat :=
  max (min interval (deadline - clock)) sleepMin

/-- The first moment that the clock cannot show: its seconds have 63 bits. -/
def clockEnd : Nat := UInt64.size / 2 * nanosPerSecond

inductive Outcome where
  /-- The child has ended; it may have been stopped for its time. -/
  | ended (status : ExitStatus) (timedOut : Bool)
  | failed (fault : OsFault)
  | panicked (panic : Panic)
  deriving DecidableEq

def Outcome.ofWait : Except OsFault ExitStatus → Outcome
  | .ok status => ended status true
  | .error fault => failed fault

def killAndWait : Program Child Outcome := do
  Child.signalGroup .kill
  return .ofWait (← Child.wait)

/-- Sleeps until the next look at the child, which has `span` from `moment` on.  A deadline that
the clock cannot show is a panic. -/
def nap (settings : RunnerSettings) (moment : Nat) (span : Duration)
    (next : Program Child (Option Outcome)) : Program Child (Option Outcome) :=
  let deadline := moment + span.toNanos
  if deadline < clockEnd then do
    Child.sleep (nextPoll settings.pollInterval.toNanos deadline (← Child.now))
    next
  else return some (.panicked .clockOverflow)

section Nap

variable {settings : RunnerSettings} {moment : Nat} {span : Duration}
  {next : Program Child (Option Outcome)}

theorem nap_of_lt (h : moment + span.toNanos < clockEnd) :
    nap settings moment span next = (do
      Child.sleep (nextPoll settings.pollInterval.toNanos (moment + span.toNanos) (← Child.now))
      next) := by
  rw [nap, if_pos h]

theorem nap_of_le (h : clockEnd ≤ moment + span.toNanos) :
    nap settings moment span next = .done (some (.panicked .clockOverflow)) := by
  rw [nap, if_neg (Nat.not_lt.2 h), Program.pure_eq]

end Nap

/-- Looks at the child at most `looks` times; `none` when they did not suffice.  The
child was started at `started` and asked to terminate at `terminated`, if it was. -/
def loop (settings : RunnerSettings) (started : Nat) :
    Nat → Option Nat → Program Child (Option Outcome)
  | 0, _ => return none
  | looks + 1, terminated => do
      match ← Child.tryWait with
      | .error fault =>
          Child.signalGroup .kill
          let _ ← Child.wait
          return some (.failed fault)
      | .ok (some status) =>
          match terminated with
          | some _ =>
              -- Takes down what the child has left in its group.
              Child.signalGroup .kill
              return some (.ended status true)
          | none => return some (.ended status false)
      | .ok none =>
          let clock ← Child.now
          match terminated with
          | none =>
              if settings.timeout.toNanos ≤ clock - started then
                Child.signalGroup .terminate
                loop settings started looks (some (← Child.now))
              else
                nap settings started settings.timeout (loop settings started looks none)
          | some stopped =>
              if settings.killGrace.toNanos ≤ clock - stopped then
                some <$> killAndWait
              else
                nap settings stopped settings.killGrace
                  (loop settings started looks (some stopped))

def supervise (settings : RunnerSettings) (looks : Nat) : Program Child (Option Outcome) := do
  loop settings (← Child.now) looks none

end Supervision

end Handoff
