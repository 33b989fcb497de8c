import Handoff.Archive
import Handoff.Plan
import Handoff.Work
/-!
# Command sequences

Runs every command of a plan in order, whatever the earlier ones did, and hands the
records of those that failed to a sink: the archive, or the operator's terminal.
-/

namespace Handoff

/-- Where the records of failed commands go.  The sink keeps a state of its own. -/
structure FailureSink (σ : Type) where
  accept : σ → CommandLabel → Command → ExecutionRecord → Program Work σ

namespace FailureSink

/-- Archives the records under a work unit.  The state counts those that could not be
archived. -/
def archive (id : WorkUnitId) : FailureSink Nat where
  accept errors label _ record := do
    match ← Work.ofStorage (Archive.putRecord id label record).run with
    | .ok () => return errors
    | .error _ => return errors + 1

def recordText (command : Command) (record : ExecutionRecord) : ByteArray :=
  ("Execution of " ++ command.display ++ " resulted in:\nexit code: " ++
      Text.showInt32 record.exitCode ++ "\ntimed out: " ++
      Archive.flagText record.timedOut ++ "\nstderr:\n").toUTF8 ++
    record.stderr ++ "\nstdout:\n".toUTF8 ++ record.stdout ++ "\n".toUTF8

def print : FailureSink ByteArray where
  accept printed _ command record := return printed ++ recordText command record

def stdout : FailureSink Unit where
  accept _ _ command record := Work.print (recordText command record)

end FailureSink

structure SequenceOutcome where
  /-- The number of commands that ran; empty ones do not. -/
  ran : Nat
  /-- The labels of those that failed, in order. -/
  failures : List CommandLabel

def SequenceOutcome.failed (outcome : SequenceOutcome) : Bool :=
  !outcome.failures.isEmpty

namespace Sequence

def runnerFailureExit : Int32 := 125

def runnerFailure (fault : RunFault) : ExecutionRecord where
  exitCode := runnerFailureExit
  timedOut := false
  stdout := ByteArray.empty
  stderr := (fault.message ++ "\n").toUTF8

def record (command : Command) : Program Work (Option ExecutionRecord) := do
  match ← Work.run command none with
  | .ok record => return record
  | .error fault => return some (runnerFailure fault)

def runCommands {σ : Type} (sink : FailureSink σ) :
    List Command → SequenceOutcome → σ → Program Work (SequenceOutcome × σ)
  | [], outcome, state => return (outcome, state)
  | command :: rest, outcome, state =>
      match command.label with
      | none => runCommands sink rest outcome state
      | some label => do
          match ← record command with
          | none => runCommands sink rest outcome state
          | some record =>
              let outcome := { outcome with ran := outcome.ran + 1 }
              if record.failed then
                let state ← sink.accept state label command record
                let failures := outcome.failures ++ [label]
                runCommands sink rest { outcome with failures } state
              else runCommands sink rest outcome state

/-- Runs the cleanup under its own limit.  Its outcome does not count. -/
def runCleanup (cleanup : Option Command) (limit : Duration) : Program Work Unit :=
  match cleanup with
  | none => return
  | some command => do
      let _ ← Work.run command (some limit)

def runAll {σ : Type} (commands : List Command) (cleanup : Option Command)
    (cleanupLimit : Duration) (sink : FailureSink σ) (state : σ) :
    Program Work (SequenceOutcome × σ) := do
  let result ← runCommands sink commands { ran := 0, failures := [] } state
  runCleanup cleanup cleanupLimit
  return result

def runPlan {σ : Type} (plan : Plan) (sink : FailureSink σ) (state : σ) :
    Program Work (SequenceOutcome × σ) :=
  runAll plan.commands plan.cleanup plan.cleanupTimeout sink state

end Sequence

end Handoff
