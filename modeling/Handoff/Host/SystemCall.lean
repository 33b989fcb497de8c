import Handoff.Host.FileTree
import Handoff.Run.ExitStatus
/-!
# System calls

What a process asks of its machine, as requests: files, descriptors, other processes,
signals and the passing of time.
-/

namespace Handoff

structure OpenMode where
  reads : Bool
  writes : Bool
  /-- Whether a missing file is made. -/
  creates : Bool
  /-- Whether the content is dropped. -/
  empties : Bool
  /-- Whether all that is written goes to the end. -/
  appends : Bool
  /-- Whether the file must not be there yet. -/
  fresh : Bool
  deriving DecidableEq

namespace OpenMode

def read : OpenMode := ⟨true, false, false, false, false, false⟩
def replace : OpenMode := ⟨false, true, true, true, false, false⟩
def append : OpenMode := ⟨false, true, true, false, true, false⟩
def both : OpenMode := ⟨true, true, true, false, false, false⟩
def create : OpenMode := ⟨false, true, true, false, false, true⟩
def change : OpenMode := ⟨false, true, true, false, false, false⟩

end OpenMode

inductive Disposition where
  | byDefault
  | ignored
  /-- The signal is kept until the process asks for it. -/
  | caught
  deriving DecidableEq

inductive Patience where
  | none
  | endless
  /-- Until a caught signal comes. -/
  | untilSignal
  | upTo (nanos : Nat)
  deriving DecidableEq

inductive WaitAnswer where
  | ended (process : Nat) (status : ExitStatus)
  /-- There is nobody to wait for. -/
  | alone
  /-- Nobody has ended so far. -/
  | nobody

inductive SignalTarget where
  | process (number : Nat)
  | group (number : Nat)
  | ownGroup
  | everyone
  deriving DecidableEq

/-- A system call.  Files that are open go by their descriptors, and paths are seen from
the working directory of the process. -/
inductive SystemCall where
  | file (call : FileCall)
  /-- What a path leads to, or what stands there when it is not followed. -/
  | inspect (path : String) (follow : Bool)
  /-- The number of the regular file behind a descriptor. -/
  | identity (descriptor : Nat)
  /-- The entries of a directory. -/
  | children (location : Location)
  | removeDir (path : String)
  | setMode (path : String) (mode : Nat)
  /-- Makes a symbolic link. -/
  | makeLink (path target : String)
  /-- Gives a file one more name. -/
  | addName (path name : String)
  | changeDir (path : String)
  | workDir
  | openFile (path : String) (mode : OpenMode)
  | close (descriptor : Nat)
  /-- The lowest free descriptor from `least` on becomes a second one for the same stream;
  it may be closed when another program is run. -/
  | duplicate (descriptor least : Nat) (transient : Bool)
  | duplicateTo (descriptor target : Nat)
  /-- A pipe: the descriptors to read from and to write to. -/
  | makePipe
  /-- Reads at most `count` bytes; nothing at the end. -/
  | read (descriptor count : Nat)
  | write (descriptor : Nat) (content : ByteArray)
  /-- Goes on in a file by some bytes, or back. -/
  | moveBy (descriptor : Nat) (count : Int)
  | setSize (descriptor size : Nat)
  /-- Splits the process: the answer is 0 in the new one and its number in the old one. -/
  | fork
  /-- Another program takes the place of the one that runs. -/
  | replaceProgram
  | exit (status : ExitStatus)
  /-- Waits for one of the processes that this one has started, or for a certain one. -/
  | wait (process : Option Nat) (patience : Patience)
  | signal (target : SignalTarget) (signal : Nat)
  | setDisposition (signal : Nat) (disposition : Disposition)
  | disposition (signal : Nat)
  /-- The numbers of the process and of the one that started it. -/
  | identify
  /-- Makes the process the first of a group of its own. -/
  | leadGroup
  /-- Lets time pass.  The answer is `none` unless a caught signal came, and then the time
  that was left. -/
  | sleep (nanos : Nat)
  /-- Works for some time; the answer is the caught signals that were kept so far. -/
  | work (nanos : Nat)
  /-- The nanoseconds since the machine was started. -/
  | clock

abbrev SystemCall.Answer : SystemCall → Type
  | file call => call.Answer
  | inspect _ _ => Except OsFault (Location × FileEntry)
  | identity _ => Option Nat
  | children _ => List (FileName × FileEntry)
  | removeDir _ => Except OsFault Unit
  | setMode _ _ => Except OsFault Unit
  | makeLink _ _ => Except OsFault Unit
  | addName _ _ => Except OsFault Unit
  | changeDir _ => Except OsFault Unit
  | workDir => Location
  | openFile _ _ => Except OsFault Nat
  | close _ => Unit
  | duplicate _ _ _ => Except OsFault Nat
  | duplicateTo _ _ => Except OsFault Unit
  | makePipe => Nat × Nat
  | read _ _ => Except OsFault ByteArray
  | write _ _ => Except OsFault Unit
  | moveBy _ _ => Unit
  | setSize _ _ => Except OsFault Unit
  | fork => Nat
  | replaceProgram => Unit
  | exit _ => Empty
  | wait _ _ => WaitAnswer
  | signal _ _ => Except OsFault Unit
  | setDisposition _ _ => Unit
  | disposition _ => Disposition
  | identify => Nat × Nat
  | leadGroup => Unit
  | sleep _ => Option Nat
  | work _ => List Nat
  | clock => Nat

def Machine : Interface where
  Request := SystemCall
  Answer := SystemCall.Answer

namespace Machine

def call (request : SystemCall) : Program Machine request.Answer :=
  Program.request (I := Machine) request

def exit {α : Type} (status : ExitStatus) : Program Machine α :=
  .ask (I := Machine) (.exit status) fun never => nomatch never

end Machine

namespace SignalNumber

def interrupt : Nat := 2
def quit : Nat := 3
def kill : Nat := 9
def brokenPipe : Nat := 13
def terminate : Nat := 15
def childEnded : Nat := 17
def goOn : Nat := 18
def stop : Nat := 19

def idle : List Nat := [17, 18, 23, 28]

def stopping : List Nat := [19, 20, 21, 22]

def absolute : List Nat := [9, 19]

def last : Nat := 64

end SignalNumber

end Handoff
