import Handoff.Files
import Handoff.Json.Reader
import Handoff.Plan
import Handoff.Text.Utf8
/-!
# Reading plans

What a JSON tree means as a plan.  The tree is looked at in reading order, so the
first problem wins, whether it is a fault of the text or of the shape.  A command is
looked at as a whole before its shape is.
-/

namespace Handoff

/-- The fields of a plan, in the order in which an array gives them. -/
inductive PlanField where
  | env
  | commandLimit
  | cleanupLimit
  | commands
  | cleanup
  | report
  deriving DecidableEq, Repr

namespace PlanField

def all : List PlanField := [env, commandLimit, cleanupLimit, commands, cleanup, report]

def name : PlanField → String
  | env => "env"
  | commandLimit => "command_timeout_s"
  | cleanupLimit => "cleanup_timeout_s"
  | commands => "commands"
  | cleanup => "cleanup"
  | report => "report"

def ofName? (raw : String) : Option PlanField :=
  all.find? fun field => field.name = raw

end PlanField

/-- The fields of a plan as they are written: commands do not have the common
environment yet. -/
structure PlanDraft where
  env : StringMap String
  commandLimit : Option UInt64
  cleanupLimit : Option UInt64
  commands : List Command
  cleanup : Option Command
  report : Option Command

namespace PlanDraft

def blank : PlanDraft where
  env := StringMap.empty
  commandLimit := none
  cleanupLimit := none
  commands := []
  cleanup := none
  report := none

def readText : Json → Except JsonFault String
  | .string text => .ok text
  | .broken fault => .error fault
  | _ => .error .shape

/-- Members with string values; a later one replaces an earlier one of its key. -/
def readTextMembers : JsonMembers → StringMap String → Except JsonFault (StringMap String)
  | .closed, found => .ok found
  | .cut fault, _ => .error fault
  | .dangling _ fault, _ => .error fault
  | .more key value tail, found =>
      match readText value with
      | .ok text => readTextMembers tail (found.insert key text)
      | .error fault => .error fault

def readTexts : Json → Except JsonFault (StringMap String)
  | .object members => readTextMembers members StringMap.empty
  | .broken fault => .error fault
  | _ => .error .shape

/-- `null`, or a plain unsigned integer. -/
def readLimit : Json → Except JsonFault (Option UInt64)
  | .null => .ok none
  | .number (.natural value) => .ok (some value)
  | .broken fault => .error fault
  | _ => .error .shape

def readTextItems : JsonItems → Except JsonFault (List String)
  | .closed => .ok []
  | .cut fault => .error fault
  | .more head tail =>
      match readText head with
      | .error fault => .error fault
      | .ok text => (readTextItems tail).map (text :: ·)

def readArgv : Json → Except JsonFault (List String)
  | .array items => readTextItems items
  | .broken fault => .error fault
  | _ => .error .shape

/-- The members of a command: one `argv`, at most one `env`, and anything else. -/
def readCommandMembers : JsonMembers → Option (List String) → Option (StringMap String) →
    Except JsonFault Command
  | .closed, some argv, env => .ok { argv, env := env.getD StringMap.empty }
  | .closed, none, _ => .error .shape
  | .cut fault, _, _ => .error fault
  | .dangling _ fault, _, _ => .error fault
  | .more key value tail, argv, env =>
      if key = "argv" then
        if argv.isSome then .error .shape
        else
          match readArgv value with
          | .ok found => readCommandMembers tail (some found) env
          | .error fault => .error fault
      else if key = "env" then
        if env.isSome then .error .shape
        else
          match readTexts value with
          | .ok found => readCommandMembers tail argv (some found)
          | .error fault => .error fault
      else readCommandMembers tail argv env

def readCommandShape : Json → Except JsonFault Command
  | .array items => (readTextItems items).map fun argv => { argv, env := StringMap.empty }
  | .object members => readCommandMembers members none none
  | _ => .error .shape

/-- A command.  A fault of the text anywhere in it precedes one of its shape. -/
def readCommand (value : Json) : Except JsonFault Command :=
  match value.fault? with
  | some fault => .error fault
  | none => readCommandShape value

def readOptionalCommand : Json → Except JsonFault (Option Command)
  | .null => .ok none
  | value => (readCommand value).map some

def readCommandItems : JsonItems → Except JsonFault (List Command)
  | .closed => .ok []
  | .cut fault => .error fault
  | .more head tail =>
      match readCommand head with
      | .error fault => .error fault
      | .ok command => (readCommandItems tail).map (command :: ·)

def readCommands : Json → Except JsonFault (List Command)
  | .array items => readCommandItems items
  | .broken fault => .error fault
  | _ => .error .shape

def readField (draft : PlanDraft) (value : Json) : PlanField → Except JsonFault PlanDraft
  | .env => (readTexts value).map fun env => { draft with env }
  | .commandLimit => (readLimit value).map fun commandLimit => { draft with commandLimit }
  | .cleanupLimit => (readLimit value).map fun cleanupLimit => { draft with cleanupLimit }
  | .commands => (readCommands value).map fun commands => { draft with commands }
  | .cleanup => (readOptionalCommand value).map fun cleanup => { draft with cleanup }
  | .report => (readOptionalCommand value).map fun report => { draft with report }

def freshField (seen : List PlanField) (key : String) : Except JsonFault PlanField :=
  match PlanField.ofName? key with
  | none => .error .shape
  | some field => if field ∈ seen then .error .shape else .ok field

def readMembers : JsonMembers → List PlanField → PlanDraft → Except JsonFault PlanDraft
  | .closed, _, draft => .ok draft
  | .cut fault, _, _ => .error fault
  | .dangling key fault, seen, _ =>
      match freshField seen key with
      | .ok _ => .error fault
      | .error earlier => .error earlier
  | .more key value tail, seen, draft =>
      match freshField seen key with
      | .error fault => .error fault
      | .ok field =>
          match draft.readField value field with
          | .ok draft => readMembers tail (field :: seen) draft
          | .error fault => .error fault

def readItems : JsonItems → List PlanField → PlanDraft → Except JsonFault PlanDraft
  | .closed, _, draft => .ok draft
  | .cut fault, _, _ => .error fault
  | .more _ _, [], _ => .error .syntactic
  | .more head tail, field :: left, draft =>
      match draft.readField head field with
      | .ok draft => readItems tail left draft
      | .error fault => .error fault

def ofJson : Json → Except JsonFault PlanDraft
  | .object members => readMembers members [] blank
  | .array items => readItems items PlanField.all blank
  | .broken fault => .error fault
  | _ => .error .shape

/-- A plan as a whole text: nothing but blanks may follow it. -/
def ofDocument (document : JsonDocument) : Except JsonFault PlanDraft :=
  match ofJson document.root with
  | .error fault => .error fault
  | .ok draft => if document.trailing then .error .syntactic else .ok draft

/-- A command in the common environment; its own variables win. -/
def inEnvironment (env : StringMap String) (command : Command) : Command :=
  { command with env := env.overlay command.env }

def toPlan (draft : PlanDraft) : Plan where
  commands := draft.commands.map (inEnvironment draft.env)
  cleanup := (draft.cleanup.map (inEnvironment draft.env)).filter fun c => !c.isEmpty
  report := (draft.report.map (inEnvironment draft.env)).filter fun c => !c.isEmpty
  commandLimit := draft.commandLimit.map Duration.ofSecs
  cleanupLimit := draft.cleanupLimit.map Duration.ofSecs

end PlanDraft

namespace Plan

def ofDocument (path : Path) (document : JsonDocument) : Except PlanFault Plan :=
  match PlanDraft.ofDocument document with
  | .error fault => .error (.parse path fault)
  | .ok draft =>
      if draft.commandLimit = some 0 then .error (.zeroLimit path) else .ok draft.toPlan

def ofText (path : Path) (text : String) : Except PlanFault Plan :=
  ofDocument path (Json.ofText text)

def load (path : Path) : Program Files (Except PlanFault Plan) := do
  match ← Files.readText path Text.decode? with
  | .error fault => return .error (.os path fault)
  | .ok text => return ofText path text

end Plan

end Handoff
