import Handoff.Command
import Handoff.Signal
/-!
# Blob keys

Keys of the shared namespace: segments joined by slashes.

    magic/OFFERED | magic/CLAIMED | magic/FINISHED      a work unit id
    ID/status                                           `0` or `1`
    ID/LABEL/exitcode | timed_out | stdout | stderr     the logs of one command
-/

namespace Handoff

inductive KeyFault where
  | empty
  | tooLong
  | emptySegment
  | relativeSegment
  | control
  deriving DecidableEq, Repr

def KeyFault.message : KeyFault → String
  | empty => "blob key must not be empty"
  | tooLong => "blob key is too long"
  | emptySegment => "blob key must not contain empty segments"
  | relativeSegment => "blob key must not contain '.' or '..' segments"
  | control => "blob key contains control characters"

/-- A key of the shared namespace.  The keys that the layout builds from sound parts
are not checked again, so validity is a property and not part of the type. -/
structure BlobKey where
  text : String
  deriving DecidableEq

namespace BlobKey

/-- The largest valid key, in UTF-8 bytes. -/
def maxBytes : Nat := 1024

def segmentsOf (text : String) : List String :=
  (text.toList.splitOn '/').map String.ofList

def segments (key : BlobKey) : List String :=
  segmentsOf key.text

def segmentFault? (segment : String) : Option KeyFault :=
  if segment = "" then some .emptySegment
  else if segment = "." ∨ segment = ".." then some .relativeSegment
  else none

def fault? (text : String) : Option KeyFault :=
  if text = "" then some .empty
  else if maxBytes < text.utf8ByteSize then some .tooLong
  else if text.toList.any Text.isControl then some .control
  else (segmentsOf text).findSome? segmentFault?

def ofText (text : String) : Except KeyFault BlobKey :=
  match fault? text with
  | none => .ok ⟨text⟩
  | some fault => .error fault

def Valid (key : BlobKey) : Prop :=
  fault? key.text = none

instance (key : BlobKey) : Decidable key.Valid :=
  inferInstanceAs (Decidable (_ = _))

end BlobKey

inductive LogField where
  | exitCode
  | timedOut
  | stdout
  | stderr
  deriving DecidableEq, Repr

namespace LogField

/-- All fields, in the order in which they are printed. -/
def all : List LogField := [exitCode, timedOut, stderr, stdout]

def name : LogField → String
  | exitCode => "exitcode"
  | timedOut => "timed_out"
  | stdout => "stdout"
  | stderr => "stderr"

def ofName? (raw : String) : Option LogField :=
  all.find? fun field => field.name = raw

theorem ofName?_name (field : LogField) : ofName? field.name = some field := by
  cases field <;> decide

end LogField

namespace BlobKey

def signal (s : Signal) : BlobKey :=
  ⟨signalSegment ++ "/" ++ s.name⟩

def unitStart (id : WorkUnitId) : String :=
  id.text ++ "/"

def status (id : WorkUnitId) : BlobKey :=
  ⟨unitStart id ++ statusSegment⟩

def log (id : WorkUnitId) (label : CommandLabel) (field : LogField) : BlobKey :=
  ⟨unitStart id ++ label.text ++ "/" ++ field.name⟩

def splitLast? : List Char → Option (List Char × List Char)
  | [] => none
  | c :: rest =>
      match splitLast? rest with
      | some (before, after) => some (c :: before, after)
      | none => if c = '/' then some ([], rest) else none

/-- The label and field of a log key of `id`; `none` for every other key. -/
def parseLog (id : WorkUnitId) (key : BlobKey) : Option (CommandLabel × LogField) := do
  let rest ← (unitStart id).toList.isPrefixOf? key.text.toList
  let (label, field) ← splitLast? rest
  let field ← LogField.ofName? (String.ofList field)
  let label ← CommandLabel.ofText? (String.ofList label)
  return (label, field)

end BlobKey

end Handoff
