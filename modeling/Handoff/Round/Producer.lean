import Handoff.Archive
import Handoff.SignalBoard
import Handoff.Work
/-!
# The producer

The bot's side of a round: offers one work unit and waits until the tester reports
on it.  The producer raises OFFERED and takes FINISHED down.
-/

namespace Handoff

structure Producer where
  pollInterval : Duration
  /-- How long to wait for FINISHED once OFFERED is up. -/
  timeout : Duration

namespace Producer

def offer (id : WorkUnitId) : WorkM Unit := do
  ExceptT.lift (Work.ofStorage SignalBoard.logState)
  let cleared ← Work.store SignalBoard.clearStale
  unless cleared.isEmpty do
    ExceptT.lift (Work.ofStorage SignalBoard.logState)
  if ← Work.store (SignalBoard.isUp .offered) then throw .offeredNotCleared
  Work.store (SignalBoard.put .offered id)

/-- Waits until FINISHED shows the unit, `polls` polls at most; `false` when they did
not suffice.  The wait began when the clock showed `started`. -/
def await (producer : Producer) (id : WorkUnitId) (started : Nat) : Nat → WorkM Bool
  | 0 => return false
  | polls + 1 => do
      let elapsed := (← ExceptT.lift Work.now) - started
      if producer.timeout.toNanos < elapsed then
        throw (.timeout id (Duration.ofNanos elapsed))
      match ← Work.store (SignalBoard.read .finished) with
      | some finished =>
          if finished ≠ id then throw (.protocolViolation .finished id finished)
          return true
      | none =>
          ExceptT.lift (Work.ofStorage SignalBoard.logState)
          ExceptT.lift (Work.sleep producer.pollInterval)
          await producer id started polls

def collect (id : WorkUnitId) : WorkM Status := do
  let status ← Work.store (Archive.readStatus id)
  Work.store (SignalBoard.delete .finished)
  match status with
  | some status => return status
  | none => throw (.statusMissing id)

/-- Offers the unit and waits for its status; `none` when `polls` polls did not
suffice. -/
def offerAndWait (producer : Producer) (polls : Nat) (id : WorkUnitId) :
    WorkM (Option Status) := do
  offer id
  let started ← ExceptT.lift Work.now
  if ← producer.await id started polls then return some (← collect id)
  return none

end Producer

end Handoff
