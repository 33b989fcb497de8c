import Handoff.Archive
import Handoff.SignalBoard
/-!
# Reports

What the operator is shown: the archived logs of a unit, and the state of the signals.
-/

namespace Handoff.Report

def missingText : String := "<missing>\n"

def fieldText (log : ArchivedLog) : LogField → ByteArray
  | .exitCode =>
      match log.exitCode with
      | some code => (Text.showInt32 code ++ "\n").toUTF8
      | none => missingText.toUTF8
  | .timedOut =>
      match log.timedOut with
      | some flag => (Archive.flagText flag ++ "\n").toUTF8
      | none => missingText.toUTF8
  | .stdout => streamText log.stdout
  | .stderr => streamText log.stderr
where
  streamText : Option ByteArray → ByteArray
    | some bytes => bytes ++ "\n".toUTF8
    | none => missingText.toUTF8

def logText (id : WorkUnitId) (log : ArchivedLog) : ByteArray :=
  LogField.all.foldl
    (fun text field =>
      text ++ ("\n" ++ field.name ++ " had value:\n").toUTF8 ++ fieldText log field)
    ("\n\n== " ++ id.text ++ "/" ++ log.label.text ++ " ==\n").toUTF8

def statusLine (id : WorkUnitId) : Option Status → String
  | some status => "Overall status of " ++ id.text ++ ": " ++ status.text ++ "\n"
  | none => "No overall status archived for " ++ id.text ++ "\n"

def logs (id : WorkUnitId) : StoreM (Nat × ByteArray) := do
  let logs ← Archive.fetchLogs id
  let status ← Archive.readStatus id
  let text := logs.foldl (fun text log => text ++ logText id log) (statusLine id status).toUTF8
  return (logs.length, text)

def signalLine (signal : Signal) (content : String) : String :=
  signal.name ++ ": " ++ content ++ "\n"

/-- The lines on `signals`, up to the first whose reading fails, and that fault. -/
def signalLines : List Signal → Program Storage (String × Option StoreFault)
  | [] => return ("", none)
  | signal :: rest => do
      match ← (SignalBoard.read signal).run with
      | .ok (some id) => shown (signalLine signal id.text) rest
      | .ok none => shown (signalLine signal "absent") rest
      | .error fault =>
          match fault with
          | .notUtf8 _ => shown (garbled signal fault) rest
          | .invalidPayload _ _ => shown (garbled signal fault) rest
          | _ => return ("", some fault)
where
  garbled (signal : Signal) (fault : StoreFault) : String :=
    signalLine signal ("garbled (" ++ fault.message ++ ")")
  shown (line : String) (rest : List Signal) : Program Storage (String × Option StoreFault) := do
    let (text, fault) ← signalLines rest
    return (line ++ text, fault)

def state : Program Storage (String × Option StoreFault) :=
  signalLines Signal.all

end Handoff.Report
