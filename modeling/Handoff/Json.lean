/-!
# JSON documents, complete or broken off

The tree of a JSON text as far as it can be read.  Where the text ends early or stops
being JSON the tree holds a fault, and nothing follows it.  Members keep their order
and may repeat their keys.
-/

namespace Handoff

inductive JsonFault where
  /-- The text ended early. -/
  | eof
  /-- The text is not JSON. -/
  | syntactic
  /-- The value is not of the wanted shape. -/
  | shape
  deriving DecidableEq, Repr

/-- A number: one that is written as a plain unsigned integer in 64 bits, or any other. -/
inductive JsonNumber where
  | natural (value : UInt64)
  | other
  deriving DecidableEq, Repr

mutual

inductive Json where
  | null
  | bool (value : Bool)
  | number (value : JsonNumber)
  | string (value : String)
  | array (items : JsonItems)
  | object (members : JsonMembers)
  | broken (fault : JsonFault)

inductive JsonItems where
  | closed
  | cut (fault : JsonFault)
  | more (head : Json) (tail : JsonItems)

inductive JsonMembers where
  | closed
  | cut (fault : JsonFault)
  /-- The text breaks off between a key and its value. -/
  | dangling (key : String) (fault : JsonFault)
  | more (key : String) (value : Json) (tail : JsonMembers)

end

mutual

/-- The first fault in a value, in reading order. -/
def Json.fault? : Json → Option JsonFault
  | .array items => items.fault?
  | .object members => members.fault?
  | .broken fault => some fault
  | _ => none

def JsonItems.fault? : JsonItems → Option JsonFault
  | .closed => none
  | .cut fault => some fault
  | .more head tail => head.fault?.or tail.fault?

def JsonMembers.fault? : JsonMembers → Option JsonFault
  | .closed => none
  | .cut fault => some fault
  | .dangling _ fault => some fault
  | .more _ value tail => value.fault?.or tail.fault?

end

/-- A whole text: its value, and whether anything but blanks follows. -/
structure JsonDocument where
  root : Json
  trailing : Bool

end Handoff
