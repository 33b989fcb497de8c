import Handoff.Command
import Handoff.Host.Basic
import Handoff.Host.Tool.Installed
/-!
# Starting commands

The start of a command on a host as a process of its own: where it works, which program
its first word names, what it is given and where its output goes.
-/

namespace Handoff

namespace Kernel

/-- What a program comes to that only looks at files, so that it waits for nothing. -/
def observe {α : Type} (kernel : Kernel) (task : Task) : Program Machine α → Option α
  | .done value => some value
  | .ask call next =>
      match kernel.attempt task call with
      | .answered answer _ kernel => observe kernel task (next answer)
      | .blocked _ _ => none

def startTime : Nat := birthTime + loadTime

def addTask (kernel : Kernel) (task : Task) : Kernel :=
  { kernel with tasks := kernel.tasks ++ [task], nextProcess := kernel.nextProcess + 1 }

end Kernel

namespace Task

/-- A process of the host that is not run by it: it makes its calls from outside. -/
def outer (process : Nat) (cwd : Location) : Task where
  process
  parent := 1
  group := process
  program := .done (.exited 0)
  wake := none
  waiting := false
  deadline := none
  ended := none
  stopped := false
  held := []
  cwd
  descriptors := []
  dispositions := []
  caught := []

end Task

structure StartOrder where
  command : Command
  cwd : Option Path
  /-- Whether the process is the first of a group of its own. -/
  leads : Bool
  output : StreamTarget
  error : StreamTarget

namespace StartOrder

def holdsNul (order : StartOrder) : Bool :=
  let texts := order.command.argv ++
    order.command.env.entries.flatMap (fun (name, value) => [name, value]) ++
    order.cwd.toList.map Path.text
  texts.any fun text => text.toList.contains '\x00'

def directory (order : StartOrder) (host : Host) : Except OsFault Location :=
  match order.cwd with
  | none => .ok host.cwd
  | some path =>
      match host.files.resolve true host.cwd path.text with
      | .ok (.present location .directory) => .ok location
      | .ok (.present _ _) => .error .notDirectory
      | .ok (.absent _ _) => .error .notFound
      | .error fault => .error fault

def spelledEnv (env : StringMap String) : StringMap String :=
  StringMap.ofList (env.entries.map fun (name, value) =>
    let text := (Text.spelled (name ++ "=" ++ value)).toList
    let name := text.takeWhile (· != '=')
    (String.ofList name, String.ofList (text.drop (name.length + 1))))

/-- The program that the command names.  A command that sets the search path itself is
looked up along that path, and then a file that is no program is a script. -/
def image (order : StartOrder) (host : Host) (task : Task) (env : StringMap String) :
    Except OsFault Image :=
  let argv := order.command.argv.map Text.spelled
  let own := (order.command.env.get? "PATH").isSome && !(argv.head?.getD "").toList.contains '/'
  let searchPath := Launch.pathOf (if own then env else spelledEnv host.env)
  (host.kernel.observe task (Launch.find own searchPath argv env)).getD (.error .notFound)

def task (order : StartOrder) (host : Host) (cwd : Location) : Task :=
  let kernel := host.kernel
  { Task.outer kernel.nextProcess cwd with
    parent := host.process
    group := if order.leads then kernel.nextProcess else host.process
    wake := some (kernel.clock + Kernel.startTime) }

/-- The kernel with a stream to each of the targets, and the process with descriptors for
them, from 0 on. -/
def connect (kernel : Kernel) (task : Task) (targets : List StreamTarget) : Kernel × Task :=
  targets.foldl
    (fun (kernel, task) target =>
      let mode := if task.descriptors.isEmpty then OpenMode.read else OpenMode.change
      let (number, kernel) := kernel.addStream (Kernel.streamOf target mode)
      (kernel, task.withDescriptor (task.free 0) number false))
    (kernel, task)

/-- Starts a command; the answer is the number of the process. -/
def start (order : StartOrder) (host : Host) : Except OsFault (Nat × Host) := do
  if order.holdsNul then throw .nulInArgument
  if order.command.argv.isEmpty then throw .emptyCommand
  let cwd ← order.directory host
  let env := spelledEnv (host.env.overlay order.command.env)
  let idle := order.task host cwd
  let image ← order.image host idle env
  let task := { idle with program := Tool.launcher Tool.launchDepth image env }
  let (kernel, task) := connect host.kernel task [.device .null, order.output, order.error]
  return (task.process, { host with kernel := kernel.addTask task })

end StartOrder

end Handoff
