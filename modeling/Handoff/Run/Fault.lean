import Handoff.OsFault
/-!
# Faults of the command runner

Why a command could not be supervised at all, and what breaks the whole program off.
-/

namespace Handoff

inductive RunFault where
  | scratch (fault : OsFault)
  | capture (fault : OsFault)
  | wait (command : String) (fault : OsFault)
  | readOutput (command : String) (fault : OsFault)
  deriving DecidableEq

def RunFault.message : RunFault → String
  | scratch fault => "create capture directory: " ++ fault.message
  | capture fault => "open capture file: " ++ fault.message
  | wait command fault => "wait for `" ++ command ++ "`: " ++ fault.message
  | readOutput command fault =>
      "read captured output of `" ++ command ++ "`: " ++ fault.message

/-- What a program does not outlive. -/
inductive Panic where
  /-- A moment is later than the clock can show. -/
  | clockOverflow
  deriving DecidableEq

def Panic.message : Panic → String
  | clockOverflow => "overflow when adding duration to instant"

end Handoff
