import Handoff.Text.Shown
/-!
# Faults of the operating system

Why a file or process call was refused, and the text that reports it.
-/

namespace Handoff

inductive OsFault where
  | notFound
  | permissionDenied
  | alreadyExists
  | notDirectory
  | isDirectory
  | nameTooLong
  | tooManyLinks
  | argumentsTooLong
  /-- A file that is made to be run, but is no program. -/
  | notProgram
  | notEmpty
  | invalidArgument
  | badDescriptor
  | brokenPipe
  | noChild
  | noProcess
  | noSpace
  | noDevice
  /-- A file name that contains a NUL. -/
  | nulInPath
  /-- A command argument or environment entry that contains a NUL. -/
  | nulInArgument
  /-- Text was expected, but the bytes are not UTF-8. -/
  | notText
  | emptyCommand
  /-- A fault reported with a text of its own. -/
  | other (text : String)
  /-- A fault together with the path that it concerns. -/
  | atPath (fault : OsFault) (path : String)
  deriving DecidableEq, Repr

namespace OsFault

/-- How a path is quoted in a report: escaped like a string literal, and characters that
are not shown as their code points. -/
def quotePath (path : String) : String :=
  let escape (c : Char) : List Char :=
    if c == '"' then ['\\', '"']
    else if c == '\\' then ['\\', '\\']
    else if c == '\n' then ['\\', 'n']
    else if c == '\r' then ['\\', 'r']
    else if c == '\t' then ['\\', 't']
    else if c == '\x00' then ['\\', '0']
    else if Text.isShown c then [c]
    else "\\u\x7b".toList ++ Nat.toDigits 16 c.toNat ++ ['\x7d']
  String.ofList ('"' :: path.toList.flatMap escape ++ ['"'])

def message : OsFault → String
  | notFound => "No such file or directory (os error 2)"
  | permissionDenied => "Permission denied (os error 13)"
  | alreadyExists => "File exists (os error 17)"
  | notDirectory => "Not a directory (os error 20)"
  | isDirectory => "Is a directory (os error 21)"
  | nameTooLong => "File name too long (os error 36)"
  | tooManyLinks => "Too many levels of symbolic links (os error 40)"
  | argumentsTooLong => "Argument list too long (os error 7)"
  | notProgram => "Exec format error (os error 8)"
  | notEmpty => "Directory not empty (os error 39)"
  | invalidArgument => "Invalid argument (os error 22)"
  | badDescriptor => "Bad file descriptor (os error 9)"
  | brokenPipe => "Broken pipe (os error 32)"
  | noChild => "No child processes (os error 10)"
  | noProcess => "No such process (os error 3)"
  | noSpace => "No space left on device (os error 28)"
  | noDevice => "No such device or address (os error 6)"
  | nulInPath => "file name contained an unexpected NUL byte"
  | nulInArgument => "nul byte found in provided data"
  | notText => "stream did not contain valid UTF-8"
  | emptyCommand => "empty report command"
  | other text => text
  | atPath fault path => fault.message ++ " at path " ++ quotePath path

def reason (fault : OsFault) : String :=
  match fault.message.splitOn " (os error" with
  | reason :: _ => reason
  | [] => ""

end OsFault

end Handoff
