import Handoff.Blob.Call
import Handoff.Text.Decimal
import Handoff.Text.Utf8
/-!
# The archive

The results of a work unit: the logs of its failed commands, four fields each, and
its overall status.  Nothing here deletes.
-/

namespace Handoff

/-- The logs of one command as they are read back.  A field is `none` when its entry
is missing or cannot be read. -/
structure ArchivedLog where
  label : CommandLabel
  exitCode : Option Int32
  timedOut : Option Bool
  stdout : Option ByteArray
  stderr : Option ByteArray
  deriving DecidableEq

namespace ArchivedLog

def blank (label : CommandLabel) : ArchivedLog where
  label
  exitCode := none
  timedOut := none
  stdout := none
  stderr := none

def toRecord? (log : ArchivedLog) : Option ExecutionRecord := do
  let exitCode ← log.exitCode
  let timedOut ← log.timedOut
  let stdout ← log.stdout
  let stderr ← log.stderr
  return { exitCode, timedOut, stdout, stderr }

end ArchivedLog

namespace Archive

def flagText (flag : Bool) : String :=
  if flag then "true" else "false"

def flagOfText? (raw : String) : Option Bool :=
  let text := String.ofList ((Text.trim raw).toList.map Char.toLower)
  if text = "true" ∨ text = "1" then some true
  else if text = "false" ∨ text = "0" then some false
  else none

/-- An exit code as it is written, with blanks around it ignored. -/
def exitCodeOfText? (raw : String) : Option Int32 :=
  Text.int32? (Text.trim raw)

def fieldContent (record : ExecutionRecord) : LogField → ByteArray
  | .exitCode => (Text.showInt32 record.exitCode).toUTF8
  | .timedOut => (flagText record.timedOut).toUTF8
  | .stdout => record.stdout
  | .stderr => record.stderr

def writeOrder : List LogField := [.exitCode, .timedOut, .stdout, .stderr]

def putFields (id : WorkUnitId) (label : CommandLabel) (record : ExecutionRecord) :
    List LogField → StoreM Unit
  | [] => return
  | field :: rest => do
      storeCall (.put (BlobKey.log id label field) (fieldContent record field))
      putFields id label record rest

def putRecord (id : WorkUnitId) (label : CommandLabel) (record : ExecutionRecord) :
    StoreM Unit :=
  putFields id label record writeOrder

def writeStatus (id : WorkUnitId) (status : Status) : StoreM Unit :=
  storeCall (.put (BlobKey.status id) status.text.toUTF8)

def readStatus (id : WorkUnitId) : StoreM (Option Status) := do
  match ← storeCall (.get (BlobKey.status id)) with
  | none => return none
  | some bytes => return some (Status.ofText (Text.decodeLossy bytes))

def withField (log : ArchivedLog) (content : ByteArray) : LogField → ArchivedLog
  | .exitCode => { log with exitCode := exitCodeOfText? (Text.decodeLossy content) }
  | .timedOut => { log with timedOut := flagOfText? (Text.decodeLossy content) }
  | .stdout => { log with stdout := some content }
  | .stderr => { log with stderr := some content }

/-- Reads the listed keys of a unit and groups their contents by label.  A key that
has gone since it was listed is passed over. -/
def collect (id : WorkUnitId) :
    List BlobKey → StringMap ArchivedLog → StoreM (StringMap ArchivedLog)
  | [], logs => return logs
  | key :: rest, logs =>
      match BlobKey.parseLog id key with
      | none => collect id rest logs
      | some (label, field) => do
          match ← storeCall (.get key) with
          | none => collect id rest logs
          | some content =>
              let log := (logs.get? label.text).getD (ArchivedLog.blank label)
              collect id rest (logs.insert label.text (withField log content field))

def fetchLogs (id : WorkUnitId) : StoreM (List ArchivedLog) := do
  let keys ← storeCall (.list (BlobKey.unitStart id))
  return (← collect id keys StringMap.empty).values

end Archive

end Handoff
