import Handoff.Host.SystemCall
/-!
# The kernel

The processes of a host and what they share: files, open streams and pipes.  A process
is its program with what it has open; every system call answers, ends the process, or
is tried again when something has happened that it waits for.
-/

namespace Handoff

inductive StreamTarget where
  /-- A regular file, by its number. -/
  | file (id : Nat)
  | directory
  | device (name : DeviceName)
  | pipeOut (pipe : Nat)
  | pipeIn (pipe : Nat)
  deriving DecidableEq

structure OpenStream where
  target : StreamTarget
  offset : Nat
  reads : Bool
  writes : Bool
  appends : Bool

structure Descriptor where
  number : Nat
  stream : Nat
  /-- Whether another program does not get it. -/
  transient : Bool

structure Task where
  process : Nat
  parent : Nat
  group : Nat
  program : Program Machine ExitStatus
  /-- When its next call is made; `none` if that hangs on the others. -/
  wake : Option Nat
  /-- Whether the next call was tried in vain. -/
  waiting : Bool
  /-- Until when the next call may take. -/
  deadline : Option Nat
  ended : Option ExitStatus
  stopped : Bool
  /-- The signals that came while the process was stopped. -/
  held : List Nat
  cwd : Location
  descriptors : List Descriptor
  /-- What is done about the signals that are not treated by default. -/
  dispositions : List (Nat × Disposition)
  caught : List Nat

namespace Task

def disposition (task : Task) (signal : Nat) : Disposition :=
  (task.dispositions.lookup signal).getD .byDefault

def stream? (task : Task) (descriptor : Nat) : Option Nat :=
  (task.descriptors.find? fun d => d.number == descriptor).map Descriptor.stream

def isOpen (task : Task) (descriptor : Nat) : Bool :=
  (task.stream? descriptor).isSome

/-- The lowest free descriptor from `least` on. -/
def freeFrom (task : Task) : Nat → Nat → Nat
  | 0, least => least
  | fuel + 1, least => if task.isOpen least then task.freeFrom fuel (least + 1) else least

def free (task : Task) (least : Nat) : Nat :=
  task.freeFrom task.descriptors.length least

def withoutDescriptor (task : Task) (number : Nat) : Task :=
  { task with descriptors := task.descriptors.filter fun d => d.number != number }

def withDescriptor (task : Task) (number stream : Nat) (transient : Bool) : Task :=
  let task := task.withoutDescriptor number
  { task with descriptors := { number, stream, transient } :: task.descriptors }

def isRunning (task : Task) : Bool :=
  task.ended.isNone && !task.stopped

def isInterruptible (task : Task) : Bool :=
  match task.program with
  | .ask (.sleep _) _ => true
  | .ask (.wait _ .untilSignal) _ => true
  | _ => false

end Task

/-- What the processes share. -/
structure Kernel where
  files : FileTree
  clock : Nat
  streams : List (Nat × OpenStream)
  /-- What was written to the pipes and not yet read. -/
  pipes : List (Nat × ByteArray)
  /-- The files that are open but have no name any more. -/
  nameless : List (Nat × FileEntry)
  tasks : List Task
  nextProcess : Nat
  nextStream : Nat

namespace Kernel

/-- The time that an ordinary system call takes, in nanoseconds. -/
def callTime : Nat := 2000

def forkTime : Nat := 80000
def birthTime : Nat := 200000

def loadTime : Nat := 300000

def pipeMax : Nat := 65536

def pieceMax : Nat := 4096

def task? (kernel : Kernel) (process : Nat) : Option Task :=
  kernel.tasks.find? fun task => task.process == process

def setTask (kernel : Kernel) (task : Task) : Kernel :=
  { kernel with
    tasks := kernel.tasks.map fun other => if other.process = task.process then task else other }

def stream? (kernel : Kernel) (task : Task) (descriptor : Nat) : Option (Nat × OpenStream) :=
  (task.stream? descriptor).bind fun stream =>
    (kernel.streams.lookup stream).map fun opened => (stream, opened)

def setStream (kernel : Kernel) (stream : Nat) (opened : OpenStream) : Kernel :=
  { kernel with
    streams := kernel.streams.map fun e => if e.1 = stream then (stream, opened) else e }

def addStream (kernel : Kernel) (opened : OpenStream) : Nat × Kernel :=
  (kernel.nextStream,
    { kernel with
      streams := (kernel.nextStream, opened) :: kernel.streams
      nextStream := kernel.nextStream + 1 })

def isHeld (kernel : Kernel) (target : StreamTarget) : Bool :=
  kernel.streams.any fun e => e.2.target == target

/-- Forgets the streams that no process has open, and what only they led to. -/
def sweep (kernel : Kernel) : Kernel :=
  let streams := kernel.streams.filter fun e =>
    kernel.tasks.any fun task => task.descriptors.any fun d => d.stream == e.1
  let kernel := { kernel with streams }
  { kernel with
    pipes := kernel.pipes.filter fun e =>
      kernel.isHeld (.pipeOut e.1) || kernel.isHeld (.pipeIn e.1)
    nameless := kernel.nameless.filter fun e => kernel.isHeld (.file e.1) }

/-- Lets all that wait for something try their calls again. -/
def rouse (kernel : Kernel) : Kernel :=
  { kernel with
    tasks := kernel.tasks.map fun task =>
      if task.waiting then { task with wake := some kernel.clock } else task }

/-- The files after a change; what is open and has lost its name is kept. -/
def withFiles (kernel : Kernel) (files : FileTree) : Kernel :=
  let lost := kernel.streams.filterMap fun e =>
    match e.2.target with
    | .file id =>
        match files.withId? id, kernel.files.withId? id with
        | none, some entry => some (id, entry)
        | _, _ => none
    | _ => none
  { kernel with files, nameless := lost ++ kernel.nameless }

/-- The file with a number, also when it has no name any more. -/
def entry? (kernel : Kernel) (id : Nat) : Option FileEntry :=
  (kernel.files.withId? id).or (kernel.nameless.lookup id)

def contentOf (kernel : Kernel) (id : Nat) : ByteArray :=
  match kernel.entry? id with
  | some entry => FileTree.contentOf entry
  | none => ByteArray.empty

def setContent (kernel : Kernel) (id : Nat) (content : ByteArray) : Kernel :=
  let mode := match kernel.entry? id with
    | some (.file _ _ mode) => mode
    | _ => FileTree.plainMode
  let entry : FileEntry := .file id content mode
  { kernel with
    files := kernel.files.setId id entry
    nameless := kernel.nameless.map fun e => if e.1 = id then (id, entry) else e }

/-- `content` with `bytes` written over it from `offset` on. -/
def overwrite (content : ByteArray) (offset : Nat) (bytes : ByteArray) : ByteArray :=
  if offset = content.size then content ++ bytes
  else
    let gap := offset - content.size
    content.extract 0 offset ++ ⟨Array.replicate gap 0⟩ ++ bytes ++
      content.extract (offset + bytes.size) content.size

/-- What trying a call comes to. -/
inductive Attempt (α : Type) where
  /-- The answer, which is given after `cost` nanoseconds. -/
  | answered (answer : α) (cost : Nat) (kernel : Kernel)
  /-- The call is tried again when something has happened, or at a given time. -/
  | blocked (wake : Option Nat) (kernel : Kernel)

end Kernel

end Handoff
