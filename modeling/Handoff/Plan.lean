import Handoff.Command
import Handoff.Duration
import Handoff.Json
import Handoff.OsFault
import Handoff.Path
import Handoff.WorkUnitId
/-!
# Command plans

Which commands a run executes, with what environment and for how long.  An empty
command is kept: it runs nothing, but the producer waits for it all the same.
-/

namespace Handoff

structure Plan where
  commands : List Command
  cleanup : Option Command
  report : Option Command
  commandLimit : Option Duration
  cleanupLimit : Option Duration

inductive PlanFault where
  | os (path : Path) (fault : OsFault)
  | parse (path : Path) (fault : JsonFault)
  | zeroLimit (path : Path)
  deriving DecidableEq

def PlanFault.message : PlanFault → String
  | os path fault => "read plan " ++ path.text ++ ": " ++ fault.message
  | parse path _ => "parse plan " ++ path.text
  | zeroLimit path => "plan " ++ path.text ++ ": command_timeout_s must be positive"

namespace Plan

def empty : Plan where
  commands := []
  cleanup := none
  report := none
  commandLimit := none
  cleanupLimit := none

def defaultCommandLimit : Duration := Duration.ofSecs 21600

def defaultCleanupLimit : Duration := Duration.ofSecs 300

def commandTimeout (plan : Plan) : Duration :=
  plan.commandLimit.getD defaultCommandLimit

def cleanupTimeout (plan : Plan) : Duration :=
  plan.cleanupLimit.getD defaultCleanupLimit

def slotMax : Nat := UInt32.size - 1

/-- The number of commands, which is one at least. -/
def slots (plan : Plan) : UInt32 :=
  UInt32.ofNat (min (max plan.commands.length 1) slotMax)

/-- How long the producer waits for a result: one command timeout for each command,
and for one command at least. -/
def producerTimeout (plan : Plan) (timeout : Duration) : Duration :=
  timeout.times plan.slots

/-- The text with every occurrence of the placeholder replaced, read from the left. -/
def substitute (placeholder replacement : List Char) : Nat → List Char → List Char
  | _, [] => []
  | skip + 1, _ :: rest => substitute placeholder replacement skip rest
  | 0, c :: rest =>
      if placeholder.isPrefixOf (c :: rest) then
        replacement ++ substitute placeholder replacement (placeholder.length - 1) rest
      else c :: substitute placeholder replacement 0 rest

def idPlaceholder : String := "\x7bid\x7d"

def reportFor (plan : Plan) (id : WorkUnitId) : Option Command :=
  plan.report.map fun report =>
    { report with
      argv := report.argv.map fun argument =>
        String.ofList (substitute idPlaceholder.toList id.text.toList 0 argument.toList) }

end Plan

end Handoff
