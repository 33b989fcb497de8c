import Handoff.Round.Fault
import Handoff.Run.Fault
/-!
# The surroundings of an agent

Everything that the bot and the tester ask of their surroundings: store calls, the
checkout, the reload check, the command runner, the terminal, the clock and sleep.
-/

namespace Handoff

inductive WorkRequest where
  | store (call : StoreCall)
  /-- Bring the checkout to a revision; `none` is the answer when that is impossible,
  else the revision now checked out. -/
  | checkOut (id : WorkUnitId)
  /-- Whether the program changed on disk. -/
  | reloadWanted
  /-- Run a command, with the runner's own limit unless one is given. -/
  | run (command : Command) (limit : Option Duration)
  | print (text : ByteArray)
  /-- The reading of the clock, in nanoseconds. -/
  | now
  | sleep (span : Duration)

abbrev WorkRequest.Answer : WorkRequest → Type
  | store call => Except StoreFault call.Result
  | checkOut _ => Except VcsFault (Option WorkUnitId)
  | reloadWanted => Bool
  | run _ _ => Except RunFault (Option ExecutionRecord)
  | print _ => Unit
  | now => Nat
  | sleep _ => Unit

def Work : Interface where
  Request := WorkRequest
  Answer := WorkRequest.Answer

abbrev WorkM (α : Type) := ExceptT RoundFault (Program Work) α

namespace Work

def ofStorage {α : Type} (program : Program Storage α) : Program Work α :=
  program.through fun call => Program.request (I := Work) (.store call)

def store {α : Type} (program : StoreM α) : WorkM α :=
  ExceptT.mk do
    match ← ofStorage program.run with
    | .ok value => return .ok value
    | .error fault => return .error (.store fault)

def checkOut (id : WorkUnitId) : WorkM (Option WorkUnitId) :=
  ExceptT.mk do
    match ← Program.request (I := Work) (.checkOut id) with
    | .ok found => return .ok found
    | .error fault => return .error (.vcs fault)

def reloadWanted : Program Work Bool :=
  Program.request (I := Work) .reloadWanted

def run (command : Command) (limit : Option Duration) :
    Program Work (Except RunFault (Option ExecutionRecord)) :=
  Program.request (I := Work) (.run command limit)

def print (text : ByteArray) : Program Work Unit :=
  Program.request (I := Work) (.print text)

def now : Program Work Nat :=
  Program.request (I := Work) .now

def sleep (span : Duration) : Program Work Unit :=
  Program.request (I := Work) (.sleep span)

end Work

end Handoff
