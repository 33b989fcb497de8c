import Handoff.Host.Kernel
/-!
# Answers to system calls

What each call does to the kernel, and what the process that made it is told.
-/

namespace Handoff

namespace Kernel

/-- A call that is answered at once. -/
def told {α : Type} (kernel : Kernel) (answer : α) : Attempt α :=
  .answered answer callTime kernel

def opened (kernel : Kernel) (task : Task) (stream : OpenStream) :
    Attempt (Except OsFault Nat) :=
  let (number, kernel) := kernel.addStream stream
  let descriptor := task.free 0
  (kernel.setTask (task.withDescriptor descriptor number false)).told (.ok descriptor)

def streamOf (target : StreamTarget) (mode : OpenMode) : OpenStream where
  target
  offset := 0
  reads := mode.reads
  writes := mode.writes
  appends := mode.appends

def openThere (kernel : Kernel) (task : Task) (id : Nat) (mode : OpenMode) :
    Attempt (Except OsFault Nat) :=
  let kernel := if mode.empties then kernel.setContent id ByteArray.empty else kernel
  kernel.opened task (streamOf (.file id) mode)

/-- Opens what a descriptor of the process leads to once more. -/
def openAgain (kernel : Kernel) (task : Task) (descriptor : Nat) (mode : OpenMode) :
    Attempt (Except OsFault Nat) :=
  match kernel.stream? task descriptor with
  | none => kernel.told (.error .notFound)
  | some (_, stream) =>
      match stream.target with
      | .file id => kernel.openThere task id mode
      | .directory =>
          if mode.writes then kernel.told (.error .isDirectory)
          else kernel.opened task (streamOf .directory mode)
      | .pipeOut pipe => kernel.opened task (streamOf (pipeEnd pipe) mode)
      | .pipeIn pipe => kernel.opened task (streamOf (pipeEnd pipe) mode)
      | .device name => kernel.opened task (streamOf (.device name) mode)
where
  pipeEnd (pipe : Nat) : StreamTarget :=
    if mode.writes then .pipeIn pipe else .pipeOut pipe

def openNew (kernel : Kernel) (task : Task) (location : Location) (mode : OpenMode) :
    Attempt (Except OsFault Nat) :=
  let id := kernel.files.nextId
  let files := kernel.files.setNew location ByteArray.empty
  { kernel with files }.opened task (streamOf (.file id) mode)

def openFile (kernel : Kernel) (task : Task) (path : String) (mode : OpenMode) :
    Attempt (Except OsFault Nat) :=
  let refused (fault : OsFault) : Attempt (Except OsFault Nat) := kernel.told (.error fault)
  if mode.creates && FileTree.hasFinalSlash path then
    match kernel.files.resolveName task.cwd path with
    | .error fault => refused fault
    | .ok _ => refused .isDirectory
  else
    match kernel.files.resolve (!mode.fresh) task.cwd path with
    | .error fault => refused fault
    | .ok (.absent parent name) =>
        if mode.creates then kernel.openNew task (parent ++ [name]) mode
        else refused .notFound
    | .ok (.present _ entry) =>
        if mode.fresh then refused .alreadyExists
        else
          match entry with
          | .file id _ _ => kernel.openThere task id mode
          | .database id _ => kernel.openThere task id mode
          | .directory =>
              if mode.writes then refused .isDirectory
              else kernel.opened task (streamOf .directory mode)
          | .device (.descriptor number) => kernel.openAgain task number mode
          | .device .terminal => refused .noDevice
          | .device name => kernel.opened task (streamOf (.device name) mode)
          | .tool _ =>
              if mode.writes then refused (.other "Text file busy (os error 26)")
              else kernel.opened task (streamOf (.device .null) mode)
          | .link _ => refused .tooManyLinks

/-- Reads at most `count` bytes from a descriptor. -/
def read (kernel : Kernel) (task : Task) (descriptor count : Nat) :
    Attempt (Except OsFault ByteArray) :=
  match kernel.stream? task descriptor with
  | none => kernel.told (.error .badDescriptor)
  | some (number, stream) =>
      if !stream.reads then kernel.told (.error .badDescriptor)
      else
        match stream.target with
        | .directory => kernel.told (.error .isDirectory)
        | .device .null => kernel.told (.ok ByteArray.empty)
        | .device _ => kernel.told (.ok ⟨Array.replicate count 0⟩)
        | .file id =>
            let bytes := (kernel.contentOf id).extract stream.offset (stream.offset + count)
            (kernel.setStream number { stream with offset := stream.offset + bytes.size }).told
              (.ok bytes)
        | .pipeIn _ => kernel.told (.error .badDescriptor)
        | .pipeOut pipe =>
            let content := (kernel.pipes.lookup pipe).getD ByteArray.empty
            if content.isEmpty && 0 < count then
              if kernel.isHeld (.pipeIn pipe) then .blocked none kernel
              else kernel.told (.ok ByteArray.empty)
            else
              let left := content.extract count content.size
              let pipes := kernel.pipes.map fun e => if e.1 = pipe then (pipe, left) else e
              ({ kernel with pipes }.rouse).told (.ok (content.extract 0 count))

inductive Writing where
  | answered (answer : Except OsFault Unit) (kernel : Kernel)
  /-- Only so many bytes were taken. -/
  | partly (count : Nat) (kernel : Kernel)
  /-- Nobody will read what is written to the pipe. -/
  | broken

def write (kernel : Kernel) (task : Task) (descriptor : Nat) (bytes : ByteArray) : Writing :=
  match kernel.stream? task descriptor with
  | none => .answered (.error .badDescriptor) kernel
  | some (number, stream) =>
      if !stream.writes then .answered (.error .badDescriptor) kernel
      else
        match stream.target with
        | .directory => .answered (.error .badDescriptor) kernel
        | .device .full => .answered (.error .noSpace) kernel
        | .device _ => .answered (.ok ()) kernel
        | .file id =>
            let content := kernel.contentOf id
            let offset := if stream.appends then content.size else stream.offset
            let kernel := kernel.setContent id (overwrite content offset bytes)
            .answered (.ok ())
              (kernel.setStream number { stream with offset := offset + bytes.size })
        | .pipeOut _ => .answered (.error .badDescriptor) kernel
        | .pipeIn pipe =>
            if !kernel.isHeld (.pipeOut pipe) then .broken
            else
              let content := (kernel.pipes.lookup pipe).getD ByteArray.empty
              let room := pipeMax - content.size
              let count :=
                if bytes.size ≤ room then bytes.size
                else if bytes.size ≤ pieceMax then 0
                else room
              let taken := content ++ bytes.extract 0 count
              let pipes := kernel.pipes.map fun e => if e.1 = pipe then (pipe, taken) else e
              let kernel := if count = 0 then kernel else { kernel with pipes }.rouse
              if count = bytes.size then .answered (.ok ()) kernel
              else .partly count kernel

def close (kernel : Kernel) (task : Task) (descriptor : Nat) : Kernel :=
  if task.isOpen descriptor then
    ((kernel.setTask (task.withoutDescriptor descriptor)).sweep).rouse
  else kernel

def duplicate (kernel : Kernel) (task : Task) (descriptor least : Nat) (transient : Bool) :
    Attempt (Except OsFault Nat) :=
  match task.stream? descriptor with
  | none => kernel.told (.error .badDescriptor)
  | some stream =>
      let free := task.free least
      (kernel.setTask (task.withDescriptor free stream transient)).told (.ok free)

def duplicateTo (kernel : Kernel) (task : Task) (descriptor target : Nat) :
    Attempt (Except OsFault Unit) :=
  match task.stream? descriptor with
  | none => kernel.told (.error .badDescriptor)
  | some stream =>
      if descriptor = target then kernel.told (.ok ())
      else
        (((kernel.setTask (task.withDescriptor target stream false)).sweep).rouse).told (.ok ())

def makePipe (kernel : Kernel) (task : Task) : Attempt (Nat × Nat) :=
  let pipe := kernel.nextStream
  let kernel := { kernel with pipes := (pipe, ByteArray.empty) :: kernel.pipes }
  let (out, kernel) := kernel.addStream (streamOf (.pipeOut pipe) OpenMode.read)
  let (into, kernel) := kernel.addStream (streamOf (.pipeIn pipe) OpenMode.change)
  let first := task.free 0
  let task := task.withDescriptor first out false
  let second := task.free 0
  (kernel.setTask (task.withDescriptor second into false)).told (first, second)

def setSize (kernel : Kernel) (task : Task) (descriptor size : Nat) :
    Attempt (Except OsFault Unit) :=
  match kernel.stream? task descriptor with
  | some (_, { target := .file id, .. }) =>
      let content := kernel.contentOf id
      let content := if size ≤ content.size then content.extract 0 size
        else content ++ ⟨Array.replicate (size - content.size) 0⟩
      (kernel.setContent id content).told (.ok ())
  | _ => kernel.told (.error .invalidArgument)

def changed (kernel : Kernel) : Except OsFault FileTree → Attempt (Except OsFault Unit)
  | .ok files => (kernel.withFiles files).told (.ok ())
  | .error fault => kernel.told (.error fault)

def setMode (kernel : Kernel) (task : Task) (path : String) (mode : Nat) :
    Attempt (Except OsFault Unit) :=
  match kernel.files.resolve true task.cwd path with
  | .ok (.present location (.file id content _)) =>
      kernel.changed (.ok (kernel.files.set location (.file id content mode)))
  | .ok (.present _ _) => kernel.told (.ok ())
  | .ok (.absent _ _) => kernel.told (.error .notFound)
  | .error fault => kernel.told (.error fault)

def makeLink (kernel : Kernel) (task : Task) (path target : String) :
    Attempt (Except OsFault Unit) :=
  if target = "" then kernel.told (.error .notFound)
  else
    match kernel.files.resolveName task.cwd path with
    | .ok (.present _ _) => kernel.told (.error .alreadyExists)
    | .ok (.absent parent name) =>
        if FileTree.hasFinalSlash path then kernel.told (.error .notFound)
        else kernel.changed (.ok (kernel.files.set (parent ++ [name]) (.link target)))
    | .error fault => kernel.told (.error fault)

def addName (kernel : Kernel) (task : Task) (path name : String) :
    Attempt (Except OsFault Unit) :=
  match kernel.files.resolve false task.cwd path with
  | .error fault => kernel.told (.error fault)
  | .ok (.absent _ _) => kernel.told (.error .notFound)
  | .ok (.present _ .directory) => kernel.told (.error (.other "Operation not permitted (os error 1)"))
  | .ok (.present _ entry) =>
      match kernel.files.resolveName task.cwd name with
      | .error fault => kernel.told (.error fault)
      | .ok (.present _ _) => kernel.told (.error .alreadyExists)
      | .ok (.absent parent name) =>
          kernel.changed (.ok (kernel.files.set (parent ++ [name]) entry))

def changeDir (kernel : Kernel) (task : Task) (path : String) :
    Attempt (Except OsFault Unit) :=
  match kernel.files.resolve true task.cwd path with
  | .error fault => kernel.told (.error fault)
  | .ok (.present location .directory) =>
      (kernel.setTask { task with cwd := location }).told (.ok ())
  | .ok (.present _ _) => kernel.told (.error .notDirectory)
  | .ok (.absent _ _) => kernel.told (.error .notFound)

def withCaught (kernel : Kernel) (task : Task) (signal : Nat) : Task :=
  let caught := if task.caught.contains signal then task.caught else task.caught ++ [signal]
  let wake := if task.isInterruptible && task.waiting then some kernel.clock else task.wake
  { task with caught, wake }

/-- Ends a process: what it had open is closed, its parent is told, and nobody waits for
those it has started. -/
def finish (kernel : Kernel) (process : Nat) (status : ExitStatus) : Kernel :=
  let above := (kernel.task? process).map Task.parent
  let parentLives := kernel.tasks.any fun other => above == some other.process && other.ended.isNone
  let tasks := kernel.tasks.filterMap fun task =>
    if task.process = process then
      if parentLives then
        some { task with ended := some status, descriptors := [], wake := none, waiting := false,
                         program := .done status }
      else none
    else if task.parent = process then
      if task.ended.isSome then none else some { task with parent := 1 }
    else if above == some task.process && task.ended.isNone &&
        task.disposition SignalNumber.childEnded = .caught then
      some (kernel.withCaught task SignalNumber.childEnded)
    else some task
  ({ kernel with tasks }.sweep).rouse

def deliver (kernel : Kernel) (process signal : Nat) : Kernel :=
  match kernel.task? process with
  | none => kernel
  | some task =>
      if task.ended.isSome || signal = 0 then kernel
      else if signal = SignalNumber.kill then kernel.finish process (.signalled signal)
      else if signal = SignalNumber.stop then kernel.setTask { task with stopped := true }
      else if task.stopped then
        if signal = SignalNumber.goOn then
          let held := task.held.filter (· != SignalNumber.goOn)
          let kernel := kernel.setTask
            { task with stopped := false, held := [], wake := task.wake.map (max kernel.clock) }
          held.foldl (fun kernel signal => act kernel process signal) kernel
        else kernel.setTask { task with held := task.held ++ [signal] }
      else act kernel process signal
where
  /-- Does what the process has laid down for a signal. -/
  act (kernel : Kernel) (process signal : Nat) : Kernel :=
    match kernel.task? process with
    | none => kernel
    | some task =>
        match task.disposition signal with
        | .ignored => kernel
        | .caught => kernel.setTask (kernel.withCaught task signal)
        | .byDefault =>
            if SignalNumber.idle.contains signal then kernel
            else if SignalNumber.stopping.contains signal then
              kernel.setTask { task with stopped := true }
            else kernel.finish process (.signalled signal)

def deliverAll (kernel : Kernel) (signal : Nat) : List Nat → Kernel
  | [] => kernel
  | process :: rest => (kernel.deliver process signal).deliverAll signal rest

def membersOf (kernel : Kernel) (group : Nat) : List Nat :=
  (kernel.tasks.filter fun task => task.group == group && task.ended.isNone).map Task.process

def signal (kernel : Kernel) (task : Task) (target : SignalTarget) (signal : Nat) :
    Attempt (Except OsFault Unit) :=
  let toAll (processes : List Nat) : Attempt (Except OsFault Unit) :=
    if processes.isEmpty then kernel.told (.error .noProcess)
    else
      -- The sender comes last, because it may not survive.
      let others := processes.filter (· != task.process)
      let kernel := kernel.deliverAll signal others
      let kernel := if processes.contains task.process
        then kernel.deliver task.process signal else kernel
      kernel.told (.ok ())
  match target with
  | .process number =>
      if kernel.tasks.any fun other => other.process == number then toAll [number]
      else kernel.told (.error .noProcess)
  | .group number => toAll (kernel.membersOf number)
  | .ownGroup => toAll (kernel.membersOf task.group)
  | .everyone => toAll ((kernel.tasks.filter fun other => other.ended.isNone).map Task.process)

def wait (kernel : Kernel) (task : Task) (process : Option Nat) (patience : Patience) :
    Attempt WaitAnswer :=
  let started := kernel.tasks.filter fun other =>
    other.parent == task.process && process.all (· == other.process)
  match started.find? fun other => other.ended.isSome, started with
  | some other, _ =>
      let tasks := kernel.tasks.filter fun task => task.process != other.process
      { kernel with tasks }.told
        (.ended other.process (other.ended.getD (.exited 0)))
  | none, [] => kernel.told .alone
  | none, _ =>
      match patience with
      | .none => kernel.told .nobody
      | .endless => .blocked none kernel
      | .untilSignal =>
          if task.caught.isEmpty then .blocked none kernel else kernel.told .nobody
      | .upTo nanos =>
          let deadline := task.deadline.getD (kernel.clock + nanos)
          if deadline ≤ kernel.clock then kernel.told .nobody
          else .blocked (some deadline) (kernel.setTask { task with deadline := some deadline })

def sleep (kernel : Kernel) (task : Task) (nanos : Nat) : Attempt (Option Nat) :=
  let deadline := task.deadline.getD (kernel.clock + nanos)
  if deadline ≤ kernel.clock then .answered none 0 kernel
  else if !task.caught.isEmpty then kernel.told (some (deadline - kernel.clock))
  else .blocked (some deadline) (kernel.setTask { task with deadline := some deadline })

/-- Another program takes over: signals are not caught any more, and transient descriptors
are closed. -/
def replaceProgram (kernel : Kernel) (task : Task) : Attempt Unit :=
  let dispositions := task.dispositions.filter fun e => e.2 == .ignored
  let descriptors := task.descriptors.filter fun d => !d.transient
  let kernel := kernel.setTask { task with dispositions, descriptors, caught := [] }
  .answered () loadTime kernel.sweep.rouse

def attempt (kernel : Kernel) (task : Task) : (call : SystemCall) → Attempt call.Answer
  | .file call =>
      let (result, files) := FileTree.answer task.cwd call kernel.files
      (kernel.withFiles files).told result
  | .inspect path follow =>
      kernel.told (match kernel.files.resolve follow task.cwd path with
        | .ok (.present location entry) => .ok (location, entry)
        | .ok (.absent _ _) => .error .notFound
        | .error fault => .error fault)
  | .identity descriptor =>
      kernel.told (match kernel.stream? task descriptor with
        | some (_, { target := .file id, .. }) => some id
        | _ => none)
  | .children location => kernel.told (kernel.files.children location)
  | .removeDir path => kernel.changed (kernel.files.removeDir task.cwd path)
  | .setMode path mode => kernel.setMode task path mode
  | .makeLink path target => kernel.makeLink task path target
  | .addName path name => kernel.addName task path name
  | .changeDir path => kernel.changeDir task path
  | .workDir => kernel.told task.cwd
  | .openFile path mode => kernel.openFile task path mode
  | .close descriptor => (kernel.close task descriptor).told ()
  | .duplicate descriptor least transient => kernel.duplicate task descriptor least transient
  | .duplicateTo descriptor target => kernel.duplicateTo task descriptor target
  | .makePipe => kernel.makePipe task
  | .read descriptor count => kernel.read task descriptor count
  | .write _ _ => kernel.told (.ok ())
  | .moveBy descriptor count =>
      match kernel.stream? task descriptor with
      | some (number, stream) =>
          match stream.target with
          | .file _ =>
              (kernel.setStream number { stream with offset := ((stream.offset : Int) + count).toNat }).told ()
          | _ => kernel.told ()
      | none => kernel.told ()
  | .setSize descriptor size => kernel.setSize task descriptor size
  | .fork => kernel.told 0
  | .replaceProgram => kernel.replaceProgram task
  | .exit _ => .blocked none kernel
  | .wait process patience => kernel.wait task process patience
  | .signal target number => kernel.signal task target number
  | .setDisposition signal disposition =>
      if SignalNumber.absolute.contains signal then kernel.told ()
      else
        let others := task.dispositions.filter fun e => e.1 != signal
        let dispositions := if disposition = .byDefault then others
          else (signal, disposition) :: others
        (kernel.setTask { task with dispositions }).told ()
  | .disposition signal => kernel.told (task.disposition signal)
  | .identify => kernel.told (task.process, task.parent)
  | .leadGroup => (kernel.setTask { task with group := task.process }).told ()
  | .sleep nanos => kernel.sleep task nanos
  | .clock => kernel.told kernel.clock
  | .work nanos =>
      .answered task.caught nanos
        (if task.caught.isEmpty then kernel else kernel.setTask { task with caught := [] })

end Kernel

end Handoff
