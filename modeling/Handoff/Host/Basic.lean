import Handoff.Blob.Directory
import Handoff.Host.Kernel.Schedule
/-!
# A host

The machine that the program runs on: its files, its clock and the processes that were
started there, as the process sees it that makes the calls.
-/

namespace Handoff

/-- A machine, as one process on it sees it. -/
structure Host where
  /-- The files and the other processes. -/
  kernel : Kernel
  /-- The working directory of the process. -/
  cwd : Location
  process : Nat
  /-- How many stamps the process has taken. -/
  serial : Nat
  /-- What the host ends the names of temporary directories with. -/
  tag : String
  env : StringMap String
  /-- The file that the process runs, when the system tells it. -/
  executable : Option Path := none

namespace Host

def temporaryRoot (host : Host) : Path :=
  ⟨(host.env.get? "TMPDIR").getD "/tmp"⟩

def files (host : Host) : FileTree :=
  host.kernel.files

def withFiles (host : Host) (files : FileTree) : Host :=
  { host with kernel := host.kernel.withFiles files }

def runFiles {α : Type} (program : Program Files α) (host : Host) : α × Host :=
  let (value, files) := FileTree.run host.cwd program host.files
  (value, host.withFiles files)

/-- The host after a program over files, as seen from the directory `base`. -/
def afterFiles {α : Type} (host : Host) (base : Location) (program : Program Files α) : Host :=
  host.withFiles (FileTree.run base program host.files).2

def putDirectory (host : Host) (base : Location) (path : Path) : Host :=
  host.afterFiles base (Files.makeDirAll path)

def putAbove (host : Host) (base : Location) (path : Path) : Host :=
  match path.parent? with
  | some parent => host.putDirectory base parent
  | none => host

def putFile (host : Host) (base : Location) (path : Path) (content : ByteArray) : Host :=
  (host.putAbove base path).afterFiles base (Files.write path content)

def putLink (host : Host) (base : Location) (path : Path) (target : String) : Host :=
  let host := host.putAbove base path
  match host.files.resolve false base path.text with
  | .ok (.absent parent name) =>
      host.withFiles (host.files.set (parent ++ [name]) (.link target))
  | _ => host

/-- The host without a path and all that is below it. -/
def discard (host : Host) (base : Location) (path : Path) : Host :=
  match host.files.resolve false base path.text with
  | .ok (.present location _) => host.withFiles (host.files.prune location)
  | _ => host

/-- The next stamp of the process, whose counter has 64 bits and begins again after the last. -/
def stamp (host : Host) : WriterStamp × Host :=
  ({ process := host.process, serial := host.serial % UInt64.size },
    { host with serial := host.serial + 1 })

/-- The time that a look at the clock takes, in nanoseconds. -/
def lookTime : Nat := 1000

/-- How much later than asked for a sleep ends, in nanoseconds. -/
def sleepDelay : Nat := 60000

/-- The host when its clock shows `time`; the other processes have gone on so far. -/
def goOn (host : Host) (time : Nat) : Host :=
  { host with kernel := host.kernel.runUntil time }

def look (host : Host) : Nat × Host :=
  let host := host.goOn (host.kernel.clock + lookTime)
  (host.kernel.clock, host)

def sleep (host : Host) (nanos : Nat) : Host :=
  host.goOn (host.kernel.clock + nanos + sleepDelay)

end Host

end Handoff
