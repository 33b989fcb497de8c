import Handoff.Run.Sequence
import Handoff.SignalBoard
/-!
# The consumer

The tester's side of a round: waits for an offer, runs the plan on it and reports
back.  The consumer raises CLAIMED and FINISHED and takes OFFERED and CLAIMED down.
-/

namespace Handoff

inductive StartMode where
  /-- Every signal that is up is left over from a crash. -/
  | fresh
  /-- Started by a reload: OFFERED may still be its own to take. -/
  | reloaded
  deriving DecidableEq, Repr

inductive PollOutcome where
  | idle
  /-- The program changed on disk; an offer was left in place. -/
  | reload
  /-- The unit could not be checked out and was reported as passing. -/
  | skipped (id : WorkUnitId)
  | completed (id : WorkUnitId) (status : Status)
  deriving DecidableEq

inductive ConsumerExit where
  | reload
  | stopped
  deriving DecidableEq, Repr

structure Consumer where
  plan : Plan
  start : StartMode
  pollInterval : Duration

namespace Consumer

/-- The corruption check at the start.  After a reload the signals are kept. -/
def recover (consumer : Consumer) : WorkM (List Signal) :=
  match consumer.start with
  | .fresh => do
      ExceptT.lift (Work.ofStorage SignalBoard.logState)
      Work.store SignalBoard.clearStale
  | .reloaded => return []

/-- The offered unit.  An offer that cannot be read is taken down, with all signals. -/
def readOffer : WorkM (Option WorkUnitId) :=
  ExceptT.mk do
    match ← Work.ofStorage (SignalBoard.read .offered).run with
    | .ok found => return .ok found
    | .error (.notUtf8 _) => clear
    | .error (.invalidPayload _ _) => clear
    | .error fault => return .error (.store fault)
where
  clear : Program Work (Except RoundFault (Option WorkUnitId)) := do
    match ← (Work.store SignalBoard.clearStale).run with
    | .ok _ => return .ok none
    | .error fault => return .error fault

def skip (id : WorkUnitId) : WorkM PollOutcome := do
  Work.store (Archive.writeStatus id .passed)
  Work.store (SignalBoard.put .finished id)
  Work.store (SignalBoard.delete .offered)
  return .skipped id

def execute (consumer : Consumer) (id : WorkUnitId) : Program Work Status := do
  let (outcome, _) ← Sequence.runPlan consumer.plan (FailureSink.archive id) 0
  return Status.ofFailed outcome.failed

def process (consumer : Consumer) (id : WorkUnitId) : WorkM PollOutcome := do
  Work.store (SignalBoard.put .claimed id)
  Work.store (SignalBoard.delete .offered)
  let status ← ExceptT.lift (consumer.execute id)
  Work.store (Archive.writeStatus id status)
  Work.store (SignalBoard.put .finished id)
  Work.store (SignalBoard.delete .claimed)
  return .completed id status

def poll (consumer : Consumer) : WorkM PollOutcome := do
  if ← ExceptT.lift Work.reloadWanted then return .reload
  ExceptT.lift (Work.ofStorage SignalBoard.logState)
  match ← readOffer with
  | none => return .idle
  | some id =>
      match ← Work.checkOut id with
      | none => skip id
      | some checkedOut =>
          -- The checkout may have brought a new version of the program.
          if ← ExceptT.lift Work.reloadWanted then return .reload
          if checkedOut ≠ id then throw (.checkoutMismatch id checkedOut)
          consumer.process id

/-- Polls until a reload is wanted, or once only.  `none` when `polls` polls did not
suffice. -/
def loop (consumer : Consumer) (once : Bool) : Nat → WorkM (Option ConsumerExit)
  | 0 => return none
  | polls + 1 => do
      match ← consumer.poll with
      | .reload => return some .reload
      | .skipped _ =>
          if once then return some .stopped
          loop consumer once polls
      | _ =>
          if once then return some .stopped
          ExceptT.lift (Work.sleep consumer.pollInterval)
          loop consumer once polls

def run (consumer : Consumer) (once : Bool) (polls : Nat) : WorkM (Option ConsumerExit) := do
  let _ ← consumer.recover
  consumer.loop once polls

end Consumer

end Handoff
