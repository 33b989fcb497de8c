import Handoff.Plan.Reader
import Mathlib.Data.List.Forall2
/-!
# The format of plans

Which JSON values are plans, and what they mean, told by what stands in them and not by how they
are read.
-/

namespace Handoff

def JsonItems.toList : JsonItems → List Json
  | .closed => []
  | .cut _ => []
  | .more head tail => head :: tail.toList

def JsonMembers.toList : JsonMembers → List (String × Json)
  | .closed => []
  | .cut _ => []
  | .dangling _ _ => []
  | .more key value tail => (key, value) :: tail.toList

def lastValue {α : Type} (key : String) (pairs : List (String × α)) : Option α :=
  pairs.reverse.lookup key

namespace Json

/-! ## What stands in a value -/

def elements : Json → List Json
  | .array items => items.toList
  | _ => []

def members : Json → List (String × Json)
  | .object members => members.toList
  | _ => []

def valuesOf (key : String) (value : Json) : List Json :=
  (value.members.filter fun e => e.1 = key).map Prod.snd

def text : Json → String
  | .string text => text
  | _ => ""

def texts (value : Json) : List String :=
  value.elements.map text

def assignments (value : Json) : List (String × String) :=
  value.members.map fun e => (e.1, e.2.text)

def limit? : Json → Option UInt64
  | .number (.natural value) => some value
  | _ => none

def argv (value : Json) : List String :=
  value.texts ++ (value.valuesOf "argv").flatMap texts

def ownVariables (value : Json) : List (String × String) :=
  (value.valuesOf "env").flatMap assignments

/-! ## The format of a value -/

def IsText (value : Json) : Prop :=
  ∃ text, value = .string text

def IsTextArray (value : Json) : Prop :=
  ∃ items, value = .array items ∧ ∀ item ∈ items.toList, item.IsText

def IsTextObject (value : Json) : Prop :=
  ∃ members, value = .object members ∧ ∀ e ∈ members.toList, e.2.IsText

def IsLimit (value : Json) : Prop :=
  value = .null ∨ ∃ limit, value = .number (.natural limit)

/-- A command that is written as an object.  There may be other members. -/
structure IsFullCommand (value : Json) : Prop where
  object : ∃ members, value = .object members
  argv : ∃ argv, value.valuesOf "argv" = [argv] ∧ argv.IsTextArray
  env_once : (value.valuesOf "env").length ≤ 1
  env : ∀ env ∈ value.valuesOf "env", env.IsTextObject

def IsCommand (value : Json) : Prop :=
  value.IsTextArray ∨ value.IsFullCommand

def IsCommandArray (value : Json) : Prop :=
  ∃ items, value = .array items ∧ ∀ item ∈ items.toList, item.IsCommand

def IsOptionalCommand (value : Json) : Prop :=
  value = .null ∨ value.IsCommand

end Json

/-- The text is JSON, with nothing after its value. -/
def JsonDocument.IsWhole (document : JsonDocument) : Prop :=
  document.root.fault? = none ∧ document.trailing = false

def PlanField.Format : PlanField → Json → Prop
  | .env => Json.IsTextObject
  | .commandLimit => Json.IsLimit
  | .cleanupLimit => Json.IsLimit
  | .commands => Json.IsCommandArray
  | .cleanup => Json.IsOptionalCommand
  | .report => Json.IsOptionalCommand

abbrev PlanFields : Type := List (PlanField × Json)

namespace PlanFields

/-- The fields are given by an object under their names, each once, or by an array in the order of
their declaration. -/
inductive GivenBy (fields : PlanFields) : Json → Prop
  | object {members : JsonMembers}
      (known : members.toList = fields.map fun e => (e.1.name, e.2))
      (once : (fields.map Prod.fst).Nodup) : GivenBy fields (.object members)
  | array {items : JsonItems} (few : items.toList.length ≤ PlanField.all.length)
      (inOrder : fields = PlanField.all.zip items.toList) : GivenBy fields (.array items)

/-- The values of all fields have their format, and the time limit of the commands is not zero. -/
structure Valid (fields : PlanFields) : Prop where
  format : ∀ e ∈ fields, e.1.Format e.2
  positive : fields.lookup .commandLimit ≠ some (.number (.natural 0))

/-! ## The meaning -/

def shared (fields : PlanFields) : List (String × String) :=
  ((fields.lookup .env).map Json.assignments).getD []

def commands (fields : PlanFields) : List Json :=
  ((fields.lookup .commands).map Json.elements).getD []

def command? (fields : PlanFields) (field : PlanField) : Option Json :=
  (fields.lookup field).filter fun value => value.argv ≠ []

def limit? (fields : PlanFields) (field : PlanField) : Option Duration :=
  ((fields.lookup field).bind Json.limit?).map Duration.ofSecs

/-- A command of the plan has the arguments that are written, and every variable has the last value
that the command gives it itself, or else the last one of the plan. -/
structure MeansCommand (fields : PlanFields) (written : Json) (command : Command) : Prop where
  argv : command.argv = written.argv
  env : ∀ x, command.env.get? x =
    (lastValue x written.ownVariables).or (lastValue x fields.shared)

structure Means (fields : PlanFields) (plan : Plan) : Prop where
  commands : List.Forall₂ fields.MeansCommand fields.commands plan.commands
  cleanup : Option.Rel fields.MeansCommand (fields.command? .cleanup) plan.cleanup
  report : Option.Rel fields.MeansCommand (fields.command? .report) plan.report
  commandLimit : plan.commandLimit = fields.limit? .commandLimit
  cleanupLimit : plan.cleanupLimit = fields.limit? .cleanupLimit

end PlanFields

end Handoff
