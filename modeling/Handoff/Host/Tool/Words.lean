import Handoff.Host.Regex
import Handoff.Host.Shell.Format
import Handoff.Host.Shell.Test
import Handoff.Host.Tool.Files
/-!
# Words

The tools that make something of their arguments alone: print them, take paths apart,
calculate, or tell whether something holds; and those that tell who and where one is.
-/

namespace Handoff.Tool

def succeed : Tool := fun _ => return success
def failAlways : Tool := fun _ => return exited 1

def baseNames : Tool := fun call => do
  let (given, operands) ← options call
    { plain := "az", valued := "s", anywhere := false
      long := [("multiple", 'a'), ("suffix", 's'), ("zero", 'z')] }
  let ending := if has given 'z' then "\x00" else "\n"
  let shorten (suffix path : String) : String :=
    let name := lastPart path
    if suffix != "" && name != suffix && name.endsWith suffix then
      (name.dropEnd suffix.length).toString
    else name
  match operands with
  | [] => missingOperand call
  | first :: rest =>
      if has given 'a' || has given 's' then
        let suffix := (valueOf? given 's').getD ""
        print call (String.join (operands.map fun path => shorten suffix path ++ ending))
        return success
      else
        match rest with
        | _ :: extra :: _ => misuse call 1 ("extra operand " ++ quoted extra)
        | _ => do
            print call (shorten (rest.head?.getD "") first ++ ending)
            return success

/-- The path without its last part; a dot if nothing is left. -/
def directoryOf (path : String) : String :=
  let chars := path.toList.reverse.dropWhile (· == '/')
  let chars := chars.dropWhile (· != '/')
  let kept := (chars.dropWhile (· == '/')).reverse
  if kept.isEmpty then (if path.startsWith "/" then "/" else ".") else String.ofList kept

def directoryNames : Tool := fun call => do
  let (given, operands) ← options call { plain := "z", anywhere := false, long := [("zero", 'z')] }
  if operands.isEmpty then missingOperand call
  let ending := if has given 'z' then "\x00" else "\n"
  print call (String.join (operands.map fun path => directoryOf path ++ ending))
  return success

def workDirectory : Tool := fun call => do
  let (given, operands) ← options call { plain := "LP", long := [("logical", 'L'),
    ("physical", 'P')] }
  unless operands.isEmpty do complain call "ignoring non-option arguments"
  let location ← Machine.call .workDir
  let logical := (call.env.get? "PWD").getD ""
  let there ← inspect logical true
  let text := match there with
    | .ok (found, _) =>
        if has given 'L' && logical.startsWith "/" && found == location then logical
        else Text.spelled location.text
    | .error _ => Text.spelled location.text
  print call (text ++ "\n")
  return success

def hexValue (digits : List Char) : Nat :=
  (Shell.Arithmetic.digits 16 digits 0 0).1

def isHex (c : Char) : Bool :=
  Shell.SetItem.classHas "xdigit" c

/-- The character that an escape stands for, among them those that only tools know. -/
def escapedMore (text : List Char) : Char × List Char :=
  match text with
  | 'e' :: rest => ('\x1b', rest)
  | '"' :: rest => ('"', rest)
  | 'x' :: rest =>
      let digits := (rest.take 2).takeWhile isHex
      if digits.isEmpty then ('\\', text)
      else (Shell.Format.byteChar (hexValue digits), rest.drop digits.length)
  | _ => Shell.Format.escaped text

def unescapeMore : Nat → List Char → List Char × Bool
  | 0, _ => ([], true)
  | _ + 1, [] => ([], true)
  | fuel + 1, '\\' :: rest =>
      if rest.head? = some 'c' then ([], false)
      else
        let octal := match rest with
          | '0' :: more => (more.take 3).takeWhile Shell.Format.isOctal
          | _ => []
        let (c, rest) := match rest with
          | '0' :: more => (Shell.Format.byteChar (Shell.Arithmetic.digits 8 octal 0 0).1,
              more.drop octal.length)
          | rest => escapedMore rest
        let (text, goesOn) := unescapeMore fuel rest
        (c :: text, goesOn)
  | fuel + 1, c :: rest =>
      let (text, goesOn) := unescapeMore fuel rest
      (c :: text, goesOn)

/-- The letters of the options at the start of the words of `echo`, and the other words. -/
def echoOptions : List String → List Char × List String
  | [] => ([], [])
  | word :: rest =>
      match word.toList with
      | '-' :: c :: more =>
          if (c :: more).all fun c => "neE".toList.contains c then
            let (letters, words) := echoOptions rest
            (c :: more ++ letters, words)
          else ([], word :: rest)
      | _ => ([], word :: rest)

def echoWords : Tool := fun call => do
  let (letters, words) := echoOptions call.arguments
  let text := (" ".intercalate words).toList
  let resolves := (letters.filter (· != 'n')).getLast? == some 'e'
  let (text, goesOn) := if resolves then unescapeMore (text.length + 1) text else (text, true)
  let line := goesOn && !letters.contains 'n'
  print call (String.ofList (if line then text ++ ['\n'] else text))
  return success

def printFormatted : Tool := fun call => do
  let arguments := if call.arguments.head? = some "--" then call.arguments.tail else call.arguments
  match arguments with
  | [] => missingOperand call
  | format :: arguments => do
      let result := Shell.Format.formatted escapedMore format arguments
      for warning in result.warnings do
        complain call (match warning with
          | .notNumeric text => quoted text ++ ": expected a numeric value"
          | .incomplete text => quoted text ++ ": value not completely converted"
          | .outOfRange text => quoted text ++ ": Numerical result out of range")
      print call result.output
      match result.stop with
      | some .missingLetter => refuse call 1 "%: invalid conversion specification"
      | some (.badConversion text) => refuse call 1 (text ++ ": invalid conversion specification")
      | _ => do
          if !format.contains '%' then
            match arguments with
            | extra :: _ =>
                complain call ("warning: ignoring excess arguments, starting with " ++ quoted extra)
            | [] => pure ()
          return codeOf result.warnings.isEmpty

def testWords (call : ToolCall) (words : List String) : Program Machine ExitStatus := do
  match ← Shell.Test.evaluate words with
  | .ok value => return codeOf value
  | .error fault =>
      refuse call 2 (match fault, words with
        | .notNumber text, _ => "invalid integer " ++ quoted text
        | .unexpectedOperator _, [_, last] => "missing argument after " ++ quoted last
        | .unexpectedOperator _, [_, operator, _] => quoted operator ++ ": binary operator expected"
        | .unexpectedOperator text, _ => quoted text ++ ": binary operator expected"
        | .missingArgument operator, _ => "missing argument after " ++ quoted operator
        | .missingBracket, _ => "')' expected")

def test : Tool := fun call => testWords call call.arguments

def testInBrackets : Tool := fun call => do
  if call.arguments.getLast? = some "]" then testWords call call.arguments.dropLast
  else refuse call 2 "missing ']'"

namespace Calculation

inductive Fault where
  | missingAfter (word : String)
  | unexpected (word : String)
  | notNumber
  | divisionByZero
  | badPattern (reason : String)
  | missingBracket (word : String)

def Fault.message : Fault → String
  | missingAfter word => "syntax error: missing argument after " ++ quoted word
  | unexpected word => "syntax error: unexpected argument " ++ quoted word
  | notNumber => "non-integer argument"
  | divisionByZero => "division by zero"
  | badPattern reason => reason
  | missingBracket word => "syntax error: expecting ')' after " ++ quoted word

structure Words where
  before : String
  rest : List String

abbrev CalcM := StateT Words (Except Fault)

def next : CalcM String := do
  let words ← get
  match words.rest with
  | word :: rest => do
      set ({ before := word, rest } : Words)
      return word
  | [] => throw (.missingAfter words.before)

/-- Takes one of the words if it comes next. -/
def take (choices : List String) : CalcM (Option String) := do
  let words ← get
  match words.rest with
  | word :: rest =>
      if choices.contains word then
        set ({ before := word, rest } : Words)
        return some word
      else return none
  | [] => return none

def number? (text : String) : Option Int :=
  match text.toList with
  | '-' :: digits => (natural? (String.ofList digits)).map fun n => -(n : Int)
  | _ => (natural? text).map Int.ofNat

def isNull (text : String) : Bool :=
  text = "" || number? text == some 0

def numbers (a b : String) : CalcM (Int × Int) :=
  match number? a, number? b with
  | some x, some y => return (x, y)
  | _, _ => throw .notNumber

def matched (text pattern : String) : CalcM String :=
  match Regex.ofText false pattern.toList with
  | .error reason => throw (.badPattern reason)
  | .ok (regex, groups) =>
      let subject : Regex.Subject := { chars := text.toList.toArray, folded := false }
      match regex.matchAt subject 0 with
      | none => return if groups = 0 then "0" else ""
      | some found =>
          if groups = 0 then return toString found.stop
          else
            return match found.captures.lookup 1 with
              | some (start, stop) => String.ofList ((text.toList.drop start).take (stop - start))
              | none => ""

def comparison (operator a b : String) : Bool :=
  let order := match number? a, number? b with
    | some x, some y => compare x y
    | _, _ => compare a b
  match operator with
  | "<" => order == .lt
  | "<=" => order != .gt
  | "=" => order == .eq
  | "==" => order == .eq
  | "!=" => order != .eq
  | ">=" => order != .lt
  | _ => order == .gt

def truth (value : Bool) : String :=
  if value then "1" else "0"

/-- How tightly operators bind, from the loosest on. -/
inductive Level where
  | or
  | and
  | comparison
  | sum
  | product
  | matching
  | primary
  deriving DecidableEq

def Level.operators : Level → List String
  | or => ["|"]
  | and => ["&"]
  | comparison => ["<", "<=", "=", "==", "!=", ">=", ">"]
  | sum => ["+", "-"]
  | product => ["*", "/", "%"]
  | matching => [":"]
  | primary => []

def Level.tighter : Level → Level
  | or => and
  | and => comparison
  | comparison => sum
  | sum => product
  | product => matching
  | matching => primary
  | primary => primary

def apply (operator a b : String) : CalcM String := do
  match operator with
  | "|" => return if isNull a then (if isNull b then "0" else b) else a
  | "&" => return if isNull a || isNull b then "0" else a
  | ":" => matched a b
  | "+" => do
      let (x, y) ← numbers a b
      return toString (x + y)
  | "-" => do
      let (x, y) ← numbers a b
      return toString (x - y)
  | "*" => do
      let (x, y) ← numbers a b
      return toString (x * y)
  | "/" => do
      let (x, y) ← numbers a b
      if y = 0 then throw .divisionByZero else return toString (Int.tdiv x y)
  | "%" => do
      let (x, y) ← numbers a b
      if y = 0 then throw .divisionByZero else return toString (Int.tmod x y)
  | _ => return truth (comparison operator a b)

mutual

/-- The value of the words; `fuel` bounds how deep they are nested. -/
def value : Nat → Level → CalcM String
  | 0, _ => throw (.missingAfter "")
  | fuel + 1, .primary => do
      match ← next with
      | "(" => do
          let inner ← value fuel .or
          match ← take [")"] with
          | some _ => return inner
          | none => throw (.missingBracket (← get).before)
      | ")" => throw (.unexpected ")")
      | "+" => next
      | "length" => do
          let text ← value fuel .primary
          return toString text.length
      | "match" => do
          let text ← value fuel .primary
          let pattern ← value fuel .primary
          matched text pattern
      | "index" => do
          let text ← value fuel .primary
          let set ← value fuel .primary
          let before := text.toList.takeWhile fun c => !set.contains c
          return if before.length = text.length then "0" else toString (before.length + 1)
      | "substr" => do
          let text ← value fuel .primary
          let start ← value fuel .primary
          let count ← value fuel .primary
          match number? start, number? count with
          | some (.ofNat (start + 1)), some (.ofNat count) =>
              return String.ofList ((text.toList.drop start).take count)
          | _, _ => return ""
      | word => return word
  | fuel + 1, level => do
      let first ← value fuel level.tighter
      chain fuel level first

/-- The value of a chain of operators of one level, from the left. -/
def chain : Nat → Level → String → CalcM String
  | 0, _, found => return found
  | fuel + 1, level, found => do
      match ← take level.operators with
      | none => return found
      | some operator => do
          let second ← value fuel level.tighter
          chain fuel level (← apply operator found second)

end

end Calculation

def calculate : Tool := fun call => do
  let arguments := if call.arguments.head? = some "--" then call.arguments.tail else call.arguments
  match arguments with
  | [] => misuse call 2 "missing operand"
  | words =>
      let start : Calculation.Words := { before := "", rest := words }
      match (Calculation.value (words.length * 8 + 16) .or).run start with
      | .error fault => refuse call 2 fault.message
      | .ok (_, { rest := extra :: _, .. }) =>
          refuse call 2 (Calculation.Fault.unexpected extra).message
      | .ok (value, _) => do
          print call (value ++ "\n")
          return codeOf (!Calculation.isNull value)

def showUser : Tool := fun call => do
  let (given, _) ← options call { plain := "ugGnra", long := [("user", 'u'), ("group", 'g'),
    ("name", 'n')] }
  let text := if has given 'u' || has given 'g' || has given 'G' then
      (if has given 'n' then "root" else "0")
    else "uid=0(root) gid=0(root) groups=0(root)"
  print call (text ++ "\n")
  return success

def showUserName : Tool := fun call => do
  print call "root\n"
  return success

def showSystem : Tool := fun call => do
  let (given, _) ← options call { plain := "asnrvmpio" }
  let machine := if has given 'm' then ["x86_64"] else []
  let parts := if has given 's' || machine.isEmpty then "Linux" :: machine else machine
  print call (" ".intercalate parts ++ "\n")
  return success

def showTerminal : Tool := fun call => do
  let (given, _) ← options call { plain := "s", code := 2 }
  unless has given 's' do print call "not a tty\n"
  return exited 1

def whichFiles : Tool := fun call => do
  let (given, operands) ← options call { plain := "as", anywhere := false }
  let directories := (Launch.pathOf call.env).splitOn ":"
  let one (name : String) : Program Machine Bool := do
    let paths := if name.contains '/' then [name]
      else directories.map fun directory => Launch.pathIn (if directory = "" then "." else directory) name
    let found ← paths.filterM fun path => do
      match ← inspect path true with
      | .ok (_, .tool _) => return true
      | .ok (_, .file _ _ mode) => return mode &&& 0o111 != 0
      | _ => return false
    let shown := if has given 'a' then found else found.take 1
    unless has given 's' do print call (String.join (shown.map (· ++ "\n")))
    return !found.isEmpty
  return codeOf (!operands.isEmpty && (← operands.mapM one).all id)

def unlinkOne : Tool := fun call => do
  let (_, operands) ← options call { plain := "" }
  match operands with
  | [] => missingOperand call
  | [path] =>
      match ← unlink path with
      | .ok () => return success
      | .error fault => refuse call 1 (cannot "cannot unlink" path fault)
  | _ :: extra :: _ => misuse call 1 ("extra operand " ++ quoted extra)

end Handoff.Tool
