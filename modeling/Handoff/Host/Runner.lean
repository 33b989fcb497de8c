import Handoff.Host.Process
import Handoff.Plan
import Handoff.Run.Fault
import Handoff.Run.Supervision
/-!
# The command runner

Runs one command on a host under a time limit, with its output captured in a directory
of its own, which is removed afterwards.
-/

namespace Handoff

namespace RunnerSettings

def standard : RunnerSettings where
  timeout := Plan.defaultCommandLimit
  pollInterval := Duration.ofSecs 2
  killGrace := Duration.ofSecs 10
  cwd := none
  scratchRoot := none
  captureLimit := Capture.defaultLimit

end RunnerSettings

namespace Runner

def startFailureExit : Int32 := 127

def startFailure (program : String) (fault : OsFault) : ExecutionRecord where
  exitCode := startFailureExit
  timedOut := false
  stdout := ByteArray.empty
  stderr := ("failed to start `" ++ program ++ "`: " ++ fault.message ++ "\n").toUTF8

def looks : Nat := 1000000000

structure Supervised where
  host : Host
  process : Nat

namespace Supervised

def signalOf : Stop → Nat
  | .terminate => SignalNumber.terminate
  | .kill => SignalNumber.kill

/-- How the child ended, if it has; then it is forgotten. -/
def ending? (child : Supervised) : Option ExitStatus × Supervised :=
  match child.host.kernel.ending? child.process with
  | none => (none, child)
  | some status =>
      let host := { child.host with kernel := child.host.kernel.forget child.process }
      (some status, { child with host })

def finish (child : Supervised) : Supervised :=
  let ended (kernel : Kernel) : Bool := (kernel.ending? child.process).isSome
  let kernel := child.host.kernel.advance none ended Kernel.steps
  { child with host := { child.host with kernel } }

def answer : (request : SupervisionRequest) → Supervised → request.Answer × Supervised
  | .tryWait, child =>
      let (status, child) := child.ending?
      (.ok status, child)
  | .wait, child =>
      let (status, child) := child.finish.ending?
      -- A child that nobody can wait for any more was killed with its parent.
      (.ok (status.getD (.signalled SignalNumber.kill)), child)
  | .signalGroup stop, child =>
      let kernel := child.host.kernel
      let kernel := kernel.deliverAll (signalOf stop) (kernel.membersOf child.process)
      ((), { child with host := { child.host with kernel } })
  | .now, child => (child.host.kernel.clock, child)
  | .sleep nanos, child => ((), { child with host := child.host.sleep nanos })

end Supervised

def supervise (settings : RunnerSettings) (child : Supervised) :
    Option Supervision.Outcome × Supervised :=
  Program.run (I := Child) (m := StateM Supervised) (fun request => Supervised.answer request)
    (Supervision.supervise settings looks) child

def captureDirectory (settings : RunnerSettings) (host : Host) : Path :=
  let root := settings.scratchRoot.getD host.temporaryRoot
  ((Path.mk host.cwd.text).join root.text).join ("ho-run-" ++ host.tag)

def readCapture (settings : RunnerSettings) (command : Command) (path : Path) (host : Host) :
    Except RunFault ByteArray :=
  match host.files.read host.cwd path.text with
  | .ok content => .ok (Capture.keep settings.captureLimit content)
  | .error fault => .error (.readOutput command.display fault)

def recordOf (settings : RunnerSettings) (command : Command) (directory : Path) (host : Host)
    (status : ExitStatus) (timedOut : Bool) : Except RunFault ExecutionRecord := do
  let record : ExecutionRecord :=
    { exitCode := status.code, timedOut, stdout := ByteArray.empty, stderr := ByteArray.empty }
  if record.failed then
    let stdout ← readCapture settings command (directory.join "stdout") host
    let stderr ← readCapture settings command (directory.join "stderr") host
    return { record with stdout, stderr }
  else return record

/-- Makes a file for captured output in a directory that is new; the number of the file
is given. -/
def makeCapture (path : Path) (host : Host) : Except RunFault (Nat × Host) :=
  match host.files.write host.cwd path.text ByteArray.empty with
  | .error fault => .error (.capture fault)
  | .ok files => .ok (host.files.nextId, host.withFiles files)

def makeCaptures (directory : Path) (host : Host) : Except RunFault (Nat × Nat × Host) := do
  let (output, host) ← makeCapture (directory.join "stdout") host
  let (error, host) ← makeCapture (directory.join "stderr") host
  return (output, error, host)

/-- How a command is started whose streams go to the files with the given numbers. -/
def capturedOrder (settings : RunnerSettings) (command : Command) (output error : Nat) :
    StartOrder where
  command
  cwd := settings.cwd
  leads := true
  output := .file output
  error := .file error

/-- Runs a command whose output goes to the files in `directory`. -/
def runCaptured (settings : RunnerSettings) (program : String) (command : Command)
    (directory : Path) (host : Host) : Except Panic (Except RunFault ExecutionRecord) × Host :=
  match makeCaptures directory host with
  | .error fault => (.ok (.error fault), host)
  | .ok (output, error, host) =>
      match (capturedOrder settings command output error).start host with
      | .error fault => (.ok (.ok (startFailure program fault)), host)
      | .ok (process, host) =>
          let (outcome, { host, .. }) := supervise settings { host, process }
          match outcome with
          | some (.ended status timedOut) =>
              (.ok (recordOf settings command directory host status timedOut), host)
          | some (.failed fault) => (.ok (.error (.wait command.display fault)), host)
          | some (.panicked panic) => (.error panic, host)
          | none => (.ok (.error (.wait command.display (.other "no end in sight"))), host)

/-- Runs a command; an empty one has no record.  After a panic the directory for captured output
is removed as well, while the child goes on. -/
def attempt (settings : RunnerSettings) (command : Command) (host : Host) :
    Except Panic (Except RunFault (Option ExecutionRecord)) × Host :=
  match command.argv with
  | [] => (.ok (.ok none), host)
  | program :: _ =>
      let directory := captureDirectory settings host
      match host.files.makeDir host.cwd directory.text with
      | .error fault => (.ok (.error (.scratch (.atPath fault directory.text))), host)
      | .ok files =>
          let (result, host) :=
            runCaptured settings program command directory (host.withFiles files)
          (result.map (Except.map some), host.discard host.cwd directory)

/-- Runs a command for a caller that outlives a panic, to whom it is a fault. -/
def run (settings : RunnerSettings) (command : Command) (host : Host) :
    Except RunFault (Option ExecutionRecord) × Host :=
  match attempt settings command host with
  | (.ok result, host) => (result, host)
  | (.error panic, host) => (.error (.wait command.display (.other panic.message)), host)

def openPipe (host : Host) : Nat × Host :=
  let kernel := host.kernel
  let pipe := kernel.nextStream
  let kernel := { kernel with
    pipes := (pipe, ByteArray.empty) :: kernel.pipes, nextStream := pipe + 1 }
  let (stream, kernel) := kernel.addStream (Kernel.streamOf (.pipeOut pipe) OpenMode.read)
  let tasks := kernel.tasks.map fun task =>
    if task.process = host.process then task.withDescriptor (task.free 0) stream false else task
  (pipe, { host with kernel := { kernel with tasks } })

def waitingIn (kernel : Kernel) (pipe : Nat) : ByteArray :=
  (kernel.pipes.lookup pipe).getD ByteArray.empty

def emptied (kernel : Kernel) (pipes : List Nat) : Kernel :=
  let left := kernel.pipes.map fun e => if pipes.contains e.1 then (e.1, ByteArray.empty) else e
  let kernel := { kernel with pipes := left }
  kernel.rouse

/-- What is written to the pipe `output` until nobody can write to it any more, nor to the
pipe `error`. -/
def gather (output error : Nat) : Nat → Kernel → ByteArray → ByteArray × Kernel
  | 0, kernel, printed => (printed, kernel)
  | fuel + 1, kernel, printed =>
      let hasMore (kernel : Kernel) (pipe : Nat) : Bool := !(waitingIn kernel pipe).isEmpty
      let isHeld (kernel : Kernel) (pipe : Nat) : Bool := kernel.isHeld (.pipeIn pipe)
      let enough (kernel : Kernel) : Bool :=
        hasMore kernel output || hasMore kernel error ||
          !(isHeld kernel output || isHeld kernel error)
      let kernel := kernel.advance none enough Kernel.steps
      if hasMore kernel output || hasMore kernel error then
        gather output error fuel (emptied kernel [output, error])
          (printed ++ waitingIn kernel output)
      else (printed, kernel)

/-- The host whose own process has closed its pipes. -/
def closePipes (host : Host) : Host :=
  let tasks := host.kernel.tasks.map fun task =>
    if task.process = host.process then { task with descriptors := [] } else task
  let kernel := { host.kernel with tasks }
  { host with kernel := kernel.sweep }

/-- Runs the report command in the directory `cwd` to its end.  What it prints is given
with its status. -/
def report (command : Command) (cwd : Path) (host : Host) :
    Except OsFault (ExitStatus × ByteArray) × Host :=
  let (output, host) := openPipe host
  let (error, host) := openPipe host
  let order : StartOrder :=
    { command, cwd := some cwd, leads := false, output := .pipeIn output
      error := .pipeIn error }
  match order.start host with
  | .error fault => (.error fault, closePipes host)
  | .ok (process, host) =>
      let (printed, kernel) := gather output error Kernel.steps host.kernel ByteArray.empty
      let child : Supervised := { host := { host with kernel }, process }
      let (status, child) := child.finish.ending?
      (.ok (status.getD (.signalled SignalNumber.kill), printed), closePipes child.host)

end Runner

end Handoff
