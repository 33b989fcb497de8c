import Handoff.Host.Launch
/-!
# Tools

What the small programs of a POSIX system have in common: how they are called, how they
read and print, and how they complain.  All texts are byte texts.
-/

namespace Handoff

structure ToolCall where
  /-- What the tool was called as. -/
  name : String
  arguments : List String
  env : StringMap String
  launch : Launcher

/-- A tool: it ends with an exit code, or a signal kills it. -/
abbrev Tool := ToolCall → Program Machine ExitStatus

namespace Tool

def exited (code : Nat) : ExitStatus :=
  .exited (UInt8.ofNat code)

def success : ExitStatus :=
  exited 0

def codeOf (ok : Bool) : ExitStatus :=
  exited (if ok then 0 else 1)

def remark (text : String) : Program Machine Unit := do
  let _ ← Machine.call (.write 2 (Text.bytesOf text))

def complain (call : ToolCall) (text : String) : Program Machine Unit :=
  remark (call.name ++ ": " ++ text ++ "\n")

def refuse {α : Type} (call : ToolCall) (code : Nat) (text : String) : Program Machine α := do
  complain call text
  Machine.exit (exited code)

def helpHint (call : ToolCall) : String :=
  "Try '" ++ call.name ++ " --help' for more information."

def misuse {α : Type} (call : ToolCall) (code : Nat) (text : String) : Program Machine α :=
  refuse call code (text ++ "\n" ++ helpHint call)

/-- Prints bytes; the tool ends if that cannot be done. -/
def emit (call : ToolCall) (content : ByteArray) : Program Machine Unit := do
  unless content.isEmpty do
    match ← Machine.call (.write 1 content) with
    | .ok () => return
    | .error fault => refuse call 1 ("write error: " ++ fault.reason)

def print (call : ToolCall) (text : String) : Program Machine Unit :=
  emit call (Text.bytesOf text)

abbrev GivenOption := Char × String

structure OptionTable where
  /-- The letters of the options without a value. -/
  plain : String
  /-- The letters of the options with a value. -/
  valued : String := ""
  /-- Long names and the letters they stand for. -/
  long : List (String × Char) := []
  /-- The exit code when the options are wrong. -/
  code : Nat := 1
  /-- Whether options may also stand after operands. -/
  anywhere : Bool := true

inductive FirstArgument where
  | option (given : GivenOption) (rest : List String)
  | operand (text : String) (rest : List String)
  /-- All that is left are operands. -/
  | operands (rest : List String)
  | wrong (complaint : String)

namespace OptionTable

def takesValue (table : OptionTable) (letter : Char) : Bool :=
  table.valued.toList.contains letter

def byLetter (table : OptionTable) (letter : Char) (more : String) (rest : List String) :
    FirstArgument :=
  let name := "'" ++ String.singleton letter ++ "'"
  if table.takesValue letter then
    if !more.isEmpty then .option (letter, more) rest
    else
      match rest with
      | value :: rest => .option (letter, value) rest
      | [] => .wrong ("option requires an argument -- " ++ name)
  else if table.plain.toList.contains letter then
    .option (letter, "") (if more.isEmpty then rest else ("-" ++ more) :: rest)
  else .wrong ("invalid option -- " ++ name)

def byName (table : OptionTable) (text : String) (rest : List String) : FirstArgument :=
  let name := String.ofList (text.toList.takeWhile (· != '='))
  let hasValue := name.length < text.length
  let value := (text.drop (name.length + 1)).toString
  let exact := table.long.filter fun e => e.1 == name
  let close := if exact.isEmpty then table.long.filter fun e => e.1.startsWith name else exact
  match close with
  | [(_, letter)] =>
      if table.takesValue letter then
        if hasValue then .option (letter, value) rest
        else
          match rest with
          | value :: rest => .option (letter, value) rest
          | [] => .wrong ("option '--" ++ name ++ "' requires an argument")
      else if hasValue then .wrong ("option '--" ++ name ++ "' doesn't allow an argument")
      else .option (letter, "") rest
  | _ => .wrong ("unrecognized option '--" ++ text ++ "'")

def first (table : OptionTable) (argument : String) (rest : List String) : FirstArgument :=
  if argument = "--" then .operands rest
  else
    match argument.toList with
    | '-' :: '-' :: name => table.byName (String.ofList name) rest
    | '-' :: letter :: more => table.byLetter letter (String.ofList more) rest
    | _ => if table.anywhere then .operand argument rest else .operands (argument :: rest)

def read (table : OptionTable) :
    Nat → List String → Except String (List GivenOption × List String)
  | 0, rest => .ok ([], rest)
  | _ + 1, [] => .ok ([], [])
  | fuel + 1, argument :: rest =>
      match table.first argument rest with
      | .wrong complaint => .error complaint
      | .operands rest => .ok ([], rest)
      | .option given rest =>
          (table.read fuel rest).map fun (options, operands) => (given :: options, operands)
      | .operand text rest =>
          (table.read fuel rest).map fun (options, operands) => (options, text :: operands)

end OptionTable

def options (call : ToolCall) (table : OptionTable) :
    Program Machine (List GivenOption × List String) := do
  let fuel := call.arguments.foldl (fun count argument => count + argument.length + 1) 1
  match table.read fuel call.arguments with
  | .ok found => return found
  | .error complaint => misuse call table.code complaint

def has (options : List GivenOption) (letter : Char) : Bool :=
  options.any fun e => e.1 == letter

def valueOf? (options : List GivenOption) (letter : Char) : Option String :=
  (options.reverse.find? fun e => e.1 == letter).map Prod.snd

def missingOperand {α : Type} (call : ToolCall) : Program Machine α :=
  misuse call 1 "missing operand"

def quoted (text : String) : String :=
  if text.contains '\'' && !text.contains '"' then "\"" ++ text ++ "\"" else "'" ++ text ++ "'"

/-- A text as it is named in complaints that quote only where that is necessary. -/
def named (text : String) : String :=
  let plain (c : Char) : Bool := c.isAlphanum || "-_./,+@%^".toList.contains c
  if !text.isEmpty && text.toList.all plain then text else quoted text

def chunk : Nat := 131072

def readings : Nat := 1000000000

def drain (descriptor : Nat) : Nat → ByteArray → Program Machine (Except OsFault ByteArray)
  | 0, content => return .ok content
  | fuel + 1, content => do
      match ← Machine.call (.read descriptor chunk) with
      | .error fault => return .error fault
      | .ok more =>
          if more.isEmpty then return .ok content else drain descriptor fuel (content ++ more)

def openFile (path : String) (mode : OpenMode) : Program Machine (Except OsFault Nat) :=
  Machine.call (.openFile (Text.unspelled path) mode)

def inspect (path : String) (follow : Bool) :
    Program Machine (Except OsFault (Location × FileEntry)) :=
  Machine.call (.inspect (Text.unspelled path) follow)

/-- The bytes of a file; a dash stands for the input. -/
def readFile (path : String) : Program Machine (Except OsFault ByteArray) := do
  if path = "-" then drain 0 readings ByteArray.empty
  else
    match ← openFile path .read with
    | .error fault => return .error fault
    | .ok descriptor => do
        let content ← drain descriptor readings ByteArray.empty
        Machine.call (.close descriptor)
        return content

def orInput (operands : List String) : List String :=
  if operands.isEmpty then ["-"] else operands

/-- The bytes of each operand.  What cannot be read is complained about; the flag says
whether all could be. -/
def readOperands (call : ToolCall) (complaint : String → OsFault → String) :
    List String → Program Machine (List (String × ByteArray) × Bool)
  | [] => return ([], true)
  | path :: rest => do
      match ← readFile path with
      | .ok content =>
          let (others, ok) ← readOperands call complaint rest
          return ((path, content) :: others, ok)
      | .error fault =>
          complain call (complaint path fault)
          let (others, _) ← readOperands call complaint rest
          return (others, false)

def plainly (path : String) (fault : OsFault) : String :=
  named path ++ ": " ++ fault.reason

def forEach (call : ToolCall) (complaint : String → OsFault → String)
    (operation : String → Program Machine (Except OsFault Unit)) :
    List String → Program Machine Bool
  | [] => return true
  | path :: rest => do
      let ok ← match ← operation path with
        | .ok () => pure true
        | .error fault => do
            complain call (complaint path fault)
            pure false
      let others ← forEach call complaint operation rest
      return ok && others

def ofBytes (content : List UInt8) : ByteArray :=
  ⟨content.toArray⟩

/-- The lines of a text, each with its end; the last one may have none. -/
def linesOf (content : ByteArray) : List (List UInt8) :=
  let step (byte : UInt8) (lines : List (List UInt8)) : List (List UInt8) :=
    if byte = 10 then [10] :: lines
    else
      match lines with
      | line :: rest => (byte :: line) :: rest
      | [] => [[byte]]
  -- Read from the end, so that a line end opens a line of its own.
  (content.data.toList.foldr step [[]]).filter fun line => !line.isEmpty

def textLines (content : ByteArray) : List String :=
  (linesOf content).map fun line =>
    Text.byteText (ofBytes (if line.getLast? = some 10 then line.dropLast else line))

def lastPart (path : String) : String :=
  match ((path.splitOn "/").filter (· != "")).getLast? with
  | some name => name
  | none => if path.isEmpty then "" else "/"

def under (directory name : String) : String :=
  if directory.endsWith "/" then directory ++ name else directory ++ "/" ++ name

def sorted (names : List String) : List String :=
  names.mergeSort fun a b => !(b < a)

def namesIn (location : Location) : Program Machine (List String) := do
  let entries ← Machine.call (.children location)
  return sorted (entries.map fun entry => match entry.1 with
    | .named name => Text.spelled name
    | .undecodable bytes => Text.byteText ⟨bytes.toArray⟩)

def natural? (text : String) : Option Nat :=
  if !text.isEmpty && text.toList.all Char.isDigit then text.toNat? else none

end Tool

end Handoff
