import Handoff.Host.Runner
import Handoff.Proofs.Files.Calls
import Handoff.Proofs.Text.Literal
/-!
# What is kept of captured output

Of a stream that is too long its end is kept, after a line with the number of bytes that were left
out.  The record of a command that has failed keeps of each stream what stood in the file of it when
the command had ended, cut in this way.
-/

namespace Handoff

namespace Capture

open Text (SpellsNat)

/-- What is kept of a stream under a limit: all of it or, when it is longer, its last bytes, as many
as the limit allows, after a line with the number of those before them. -/
inductive Keeps (limit : Nat) (stream : ByteArray) : ByteArray → Prop
  | whole (fits : stream.size ≤ limit) : Keeps limit stream stream
  | tail {front last : ByteArray} {digits : List Char} (long : limit < stream.size)
      (cut : stream = front ++ last) (size : last.size = limit)
      (number : SpellsNat digits front.size) (bare : digits.head? ≠ some '0') :
      Keeps limit stream
        (("[" ++ String.ofList digits ++ " bytes truncated]\n").toUTF8 ++ last)

end Capture

namespace Kernel

variable {kernel : Kernel} {task : Task} {location : Location}

end Kernel

namespace Runner

variable {settings : RunnerSettings} {program : String} {command : Command} {directory : Path}
  {host after : Host} {record : ExecutionRecord}

/-! ## Reading the files of the streams -/

/-- What is kept of the file at a path. -/
def KeptFrom (settings : RunnerSettings) (host : Host) (path : Path) (kept : ByteArray) : Prop :=
  ∃ stream, host.files.read host.cwd path.text = .ok stream ∧
    Capture.Keeps settings.captureLimit stream kept

/-- The record of a command that has ended.  Nothing is kept of the streams when the command has
passed, and of each what may be kept when it has failed. -/
structure Records (settings : RunnerSettings) (directory : Path) (ended : Host)
    (status : ExitStatus) (timedOut : Bool) (record : ExecutionRecord) : Prop where
  exitCode : record.exitCode = status.code
  timedOut : record.timedOut = timedOut
  passed : record.failed = false →
    record.stdout = ByteArray.empty ∧ record.stderr = ByteArray.empty
  failed : record.failed = true → KeptFrom settings ended (directory.join "stdout") record.stdout ∧
    KeptFrom settings ended (directory.join "stderr") record.stderr

/-- A run that comes to a record: the command cannot be started, or it ends under supervision. -/
inductive Runs (settings : RunnerSettings) (program : String) (command : Command)
    (directory : Path) (host : Host) : ExecutionRecord → Host → Prop
  | unstarted {output error : Nat} {ready : Host} {fault : OsFault}
      (made : makeCaptures directory host = .ok (output, error, ready))
      (refused : (capturedOrder settings command output error).start ready = .error fault) :
      Runs settings program command directory host (startFailure program fault) ready
  | ended {output error process last : Nat} {ready begun ended : Host} {status : ExitStatus}
      {timedOut : Bool} {record : ExecutionRecord}
      (made : makeCaptures directory host = .ok (output, error, ready))
      (started : (capturedOrder settings command output error).start ready = .ok (process, begun))
      (supervised : supervise settings ⟨begun, process⟩ =
        (some (.ended status timedOut), ⟨ended, last⟩))
      (recorded : Records settings directory ended status timedOut record) :
      Runs settings program command directory host record ended

def lone : Host where
  kernel :=
    { files := { entries := [([.named "expr"], .tool "expr")], nextId := 1 }
      clock := 0, streams := [], pipes := [], nameless := []
      tasks := [Task.outer 1000 []], nextProcess := 1001, nextStream := 1 }
  cwd := []
  process := 1000
  serial := 0
  tag := "1"
  env := StringMap.empty

def bareCall : Command := ⟨["/expr"], StringMap.empty⟩

def complaint : ByteArray :=
  "/expr: missing operand\nTry '/expr --help' for more information.\n".toUTF8

def keeping (limit : Nat) : RunnerSettings :=
  { RunnerSettings.standard with scratchRoot := some ⟨"/"⟩, captureLimit := limit }

/-! ### Before the start -/

def withFolder : FileTree :=
  lone.files.set [.named "ho-run-1"] .directory

def withStdout : FileTree :=
  withFolder.setNew [.named "ho-run-1", .named "stdout"] ByteArray.empty

def withStderr : FileTree :=
  withStdout.setNew [.named "ho-run-1", .named "stderr"] ByteArray.empty

def ready : Host := lone.withFiles withStderr

def bareOrder : StartOrder := capturedOrder (keeping 13) bareCall 1 2

def bareEnv : StringMap String :=
  StartOrder.spelledEnv (ready.env.overlay bareCall.env)

def begun : Host :=
  let task := { bareOrder.task ready [] with
    program := Tool.launcher Tool.launchDepth ⟨"expr", ["/expr"]⟩ bareEnv }
  let (kernel, task) := StartOrder.connect ready.kernel task
    [.device .null, bareOrder.output, bareOrder.error]
  { ready with kernel := kernel.addTask task }

end Runner

end Handoff
