import Handoff.OsFault
import Handoff.Path
import Handoff.Program
/-!
# File calls

The file operations that the program makes, as requests, and what is built from
several of them.
-/

namespace Handoff

/-- The name of a directory entry.  Names that are not UTF-8 are kept apart. -/
inductive FileName where
  | named (text : String)
  | undecodable (bytes : List UInt8)
  deriving DecidableEq

inductive FileKind where
  | file
  | directory
  | other
  deriving DecidableEq

/-- One file operation.  Each is atomic. -/
inductive FileCall where
  | makeDir (path : Path)
  /-- Whether the path leads to a directory. -/
  | isDir (path : Path)
  /-- Whether the path leads to anything. -/
  | isThere (path : Path)
  | read (path : Path)
  /-- Creates the file, or replaces its content. -/
  | write (path : Path) (content : ByteArray)
  /-- Moves a file, in place of what the target held. -/
  | rename (source target : Path)
  | remove (path : Path)
  | entries (path : Path)

abbrev FileCall.Answer : FileCall → Type
  | makeDir _ => Except OsFault Unit
  | isDir _ => Bool
  | isThere _ => Bool
  | read _ => Except OsFault ByteArray
  | write _ _ => Except OsFault Unit
  | rename _ _ => Except OsFault Unit
  | remove _ => Except OsFault Unit
  | entries _ => Except OsFault (List (FileName × FileKind))

def Files : Interface where
  Request := FileCall
  Answer := FileCall.Answer

namespace Files

def isDir (path : Path) : Program Files Bool :=
  Program.request (I := Files) (.isDir path)

def isThere (path : Path) : Program Files Bool :=
  Program.request (I := Files) (.isThere path)

def makeDir (path : Path) : Program Files (Except OsFault Unit) :=
  Program.request (I := Files) (.makeDir path)

def read (path : Path) : Program Files (Except OsFault ByteArray) :=
  Program.request (I := Files) (.read path)

def write (path : Path) (content : ByteArray) : Program Files (Except OsFault Unit) :=
  Program.request (I := Files) (.write path content)

def rename (source target : Path) : Program Files (Except OsFault Unit) :=
  Program.request (I := Files) (.rename source target)

def remove (path : Path) : Program Files (Except OsFault Unit) :=
  Program.request (I := Files) (.remove path)

def entries (path : Path) : Program Files (Except OsFault (List (FileName × FileKind))) :=
  Program.request (I := Files) (.entries path)

/-- Makes the first of the paths a directory, after those above it where they are
missing.  A directory that is already there will do. -/
def makeDirs : List Path → Program Files (Except OsFault Unit)
  | [] => return .error (.other "failed to create whole tree")
  | path :: above => do
      if path.text = "" then return .ok ()
      match ← makeDir path with
      | .ok () => return .ok ()
      | .error .notFound =>
          match ← makeDirs above with
          | .error fault => return .error fault
          | .ok () =>
              match ← makeDir path with
              | .ok () => return .ok ()
              | .error fault => return if ← isDir path then .ok () else .error fault
      | .error fault => return if ← isDir path then .ok () else .error fault

def makeDirAll (path : Path) : Program Files (Except OsFault Unit) :=
  makeDirs path.ancestors

def readText (path : Path) (decode? : ByteArray → Option String) :
    Program Files (Except OsFault String) := do
  match ← read path with
  | .error fault => return .error fault
  | .ok content =>
      match decode? content with
      | some text => return .ok text
      | none => return .error .notText

end Files

end Handoff
