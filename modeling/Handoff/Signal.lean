import Handoff.WorkUnitId
/-!
# Signals and statuses

The three markers of a handoff, what they held at one moment, and the overall
outcome of a round.
-/

namespace Handoff

inductive Signal where
  | offered
  | claimed
  | finished
  deriving DecidableEq, Repr

namespace Signal

def all : List Signal := [offered, claimed, finished]

def name : Signal → String
  | offered => "OFFERED"
  | claimed => "CLAIMED"
  | finished => "FINISHED"

theorem mem_all (s : Signal) : s ∈ all := by
  cases s <;> decide

end Signal

structure SignalSnapshot where
  offered : Option WorkUnitId
  claimed : Option WorkUnitId
  finished : Option WorkUnitId
  deriving DecidableEq

namespace SignalSnapshot

def get (snapshot : SignalSnapshot) : Signal → Option WorkUnitId
  | .offered => snapshot.offered
  | .claimed => snapshot.claimed
  | .finished => snapshot.finished

def present (snapshot : SignalSnapshot) : List Signal :=
  Signal.all.filter fun s => (snapshot.get s).isSome

def isIdle (snapshot : SignalSnapshot) : Bool :=
  snapshot.present.isEmpty

end SignalSnapshot

inductive Status where
  | passed
  | failed
  deriving DecidableEq, Repr

namespace Status

def ofFailed (failed : Bool) : Status :=
  if failed then .failed else .passed

def text : Status → String
  | passed => "0"
  | failed => "1"

/-- Only a bare `0` passes; any other text is a failure. -/
def ofText (raw : String) : Status :=
  if Text.trim raw = "0" then .passed else .failed

def isFailed : Status → Bool
  | passed => false
  | failed => true

end Status

end Handoff
