import Handoff.Blob.Call
import Handoff.Duration
/-!
# Faults of a round

Why a checkout failed, and why a round of handoff ended without a result.
-/

namespace Handoff

inductive VcsFault where
  | dirty (repo : String)
  | git (arguments status stderr : String)
  | os (fault : OsFault)
  | invalidHead (fault : IdFault)
  deriving DecidableEq

def VcsFault.message : VcsFault → String
  | dirty repo => "local modifications in " ++ repo ++ "; refusing to check out"
  | git arguments status stderr =>
      "git " ++ arguments ++ " failed (" ++ status ++ "): " ++ stderr
  | os fault => "spawn git: " ++ fault.message
  | invalidHead fault => "git reported an unusable HEAD: " ++ fault.message

inductive RoundFault where
  | store (fault : StoreFault)
  | vcs (fault : VcsFault)
  | protocolViolation (signal : Signal) (expected observed : WorkUnitId)
  | checkoutMismatch (expected checkedOut : WorkUnitId)
  | timeout (id : WorkUnitId) (waited : Duration)
  | statusMissing (id : WorkUnitId)
  | offeredNotCleared
  deriving DecidableEq

def RoundFault.message : RoundFault → String
  | store fault => fault.message
  | vcs fault => fault.message
  | protocolViolation signal expected observed =>
      "non matching work units: waiting for " ++ expected.text ++ ", but " ++ signal.name ++
        " holds " ++ observed.text
  | checkoutMismatch expected checkedOut =>
      "inconsistent checkout: " ++ expected.text ++ " was offered but " ++ checkedOut.text ++
        " is checked out"
  | timeout id waited =>
      "no result for " ++ id.text ++ " after " ++ toString waited.secs.toNat ++
        "s; check that a tester is polling the same store, inspect the signals with " ++
        "`ho_runner state`, then rerun the bot (it clears stale signals on start)"
  | statusMissing id => id.text ++ " finished but no overall status was archived"
  | offeredNotCleared => "OFFERED still present after clearing stale signals"

end Handoff
