import Handoff.Host.Shell.Arithmetic
import Handoff.Host.SystemCall
import Handoff.Text.ByteText
/-!
# Tests

The expressions of `test`: properties of files and texts, comparisons, and how they are
joined.
-/

namespace Handoff.Shell.Test

inductive Fault where
  | notNumber (text : String)
  | unexpectedOperator (text : String)
  | missingArgument (operator : String)
  | missingBracket
  deriving DecidableEq

def unary : List String :=
  ["-r", "-w", "-x", "-e", "-f", "-d", "-c", "-b", "-p", "-u", "-g", "-k", "-s", "-t", "-z",
    "-n", "-h", "-O", "-G", "-L", "-S"]

def numeric : List String := ["-eq", "-ne", "-gt", "-ge", "-lt", "-le"]

def binary : List String :=
  ["=", "!=", "<", ">", "-nt", "-ot", "-ef"] ++ numeric

inductive Lexeme where
  | ending
  | unary (operator : String)
  | binary (operator : String)
  | not
  | and
  | or
  | opening
  | closing
  | operand
  deriving DecidableEq

def operator? (word : String) : Option Lexeme :=
  if unary.contains word then some (.unary word)
  else if binary.contains word then some (.binary word)
  else
    match word with
    | "!" => some .not
    | "-a" => some .and
    | "-o" => some .or
    | "(" => some .opening
    | ")" => some .closing
    | _ => none

def isBinary (word : String) : Bool :=
  match operator? word with
  | some (.binary _) => true
  | _ => false

/-- The token at the start of the words.  An operator that could have no operand is one
itself. -/
def lexeme : List String → Lexeme
  | [] => .ending
  | word :: rest =>
      match operator? word with
      | none => .operand
      | some (.unary operator) =>
          match rest with
          | [] => .operand
          | [_] => .unary operator
          | next :: _ => if isBinary next then .operand else .unary operator
      | some .opening => if rest.isEmpty then .operand else .opening
      | some other => other

def inspect (path : String) (follow : Bool) :
    Program Machine (Option (Location × FileEntry)) := do
  match ← Machine.call (.inspect (Text.unspelled path) follow) with
  | .ok found => return some found
  | .error _ => return none

def holdsFor (operator : String) (entry : FileEntry) : Bool :=
  match operator with
  | "-f" => match entry with
    | .file _ _ _ => true
    | .database _ _ => true
    | .tool _ => true
    | _ => false
  | "-d" => entry == .directory
  | "-h" => match entry with
    | .link _ => true
    | _ => false
  | "-L" => match entry with
    | .link _ => true
    | _ => false
  | "-c" => match entry with
    | .device _ => true
    | _ => false
  | "-s" => match entry with
    | .directory => true
    | .tool _ => true
    | entry => !(FileTree.contentOf entry).isEmpty
  | "-x" => match entry with
    | .file _ _ mode => mode &&& 0o111 != 0
    | .directory => true
    | .tool _ => true
    | _ => false
  | _ => ["-e", "-r", "-w", "-O", "-G"].contains operator

def unaryValue (operator operand : String) : Program Machine Bool := do
  match operator with
  | "-z" => return operand == ""
  | "-n" => return operand != ""
  | "-t" => return false
  | _ =>
      match ← inspect operand (operator != "-h" && operator != "-L") with
      | some (_, entry) => return holdsFor operator entry
      | none => return false

def number? (text : String) : Option Int :=
  let (negative, digits) := match text.toList.dropWhile Arithmetic.isSpace with
    | '-' :: rest => (true, rest)
    | '+' :: rest => (false, rest)
    | rest => (false, rest)
  match Arithmetic.digits 10 digits 0 0 with
  | (_, 0, _) => none
  | (n, _, rest) =>
      if rest.all Arithmetic.isSpace then some (if negative then -(n : Int) else n) else none

/-- How old the file at a path is, as far as that is known. -/
def ageOf (path : String) : Program Machine (Option Nat) := do
  match ← inspect path true with
  | some (_, .file id _ _) => return some id
  | some (_, .database id _) => return some id
  | some _ => return some 0
  | none => return none

def binaryValue (operator a b : String) : Program Machine (Except Fault Bool) := do
  match operator with
  | "=" => return .ok (a == b)
  | "!=" => return .ok (a != b)
  | "<" => return .ok (a < b)
  | ">" => return .ok (b < a)
  | "-ef" =>
      match ← inspect a true, ← inspect b true with
      | some (first, .file id _ _), some (second, .file other _ _) =>
          return .ok (first == second || id == other)
      | some (first, _), some (second, _) => return .ok (first == second)
      | _, _ => return .ok false
  | "-nt" =>
      match ← ageOf a, ← ageOf b with
      | some first, some second => return .ok (second < first)
      | some _, none => return .ok true
      | none, _ => return .ok false
  | "-ot" =>
      match ← ageOf a, ← ageOf b with
      | some first, some second => return .ok (first < second)
      | none, some _ => return .ok true
      | _, none => return .ok false
  | _ =>
      match number? a, number? b with
      | none, _ => return .error (.notNumber a)
      | _, none => return .error (.notNumber b)
      | some a, some b =>
          return .ok (match operator with
            | "-eq" => a == b
            | "-ne" => a != b
            | "-gt" => decide (b < a)
            | "-ge" => decide (b ≤ a)
            | "-lt" => decide (a < b)
            | _ => decide (a ≤ b))

/-- The evaluation of an expression; the state is what has not been taken of it. -/
abbrev TestM := ExceptT Fault (StateT (List String) (Program Machine))

def machine {α : Type} (program : Program Machine α) : TestM α :=
  ExceptT.lift (StateT.lift program)

def skip (count : Nat) : TestM Unit :=
  modify fun words => words.drop count

mutual

/-- The value of parts that are joined by `-o`.  Where it ends, the last word of the
expression is still there. -/
def disjunction : Nat → TestM Bool
  | 0 => return false
  | fuel + 1 => do
      let first ← conjunction fuel
      match lexeme (← get).tail with
      | .or => do
          skip 2
          let second ← disjunction fuel
          return first || second
      | _ => return first

/-- The value of parts that are joined by `-a`. -/
def conjunction : Nat → TestM Bool
  | 0 => return false
  | fuel + 1 => do
      let first ← negation fuel
      match lexeme (← get).tail with
      | .and => do
          skip 2
          let second ← conjunction fuel
          return first && second
      | _ => return first

def negation : Nat → TestM Bool
  | 0 => return false
  | fuel + 1 => do
      match lexeme (← get) with
      | .not =>
          if (← get).tail.isEmpty then return true
          else do
            skip 1
            return !(← negation fuel)
      | other => primary fuel other

def primary : Nat → Lexeme → TestM Bool
  | 0, _ => return false
  | fuel + 1, first => do
      match first with
      | .ending => return false
      | .opening => do
          skip 1
          if lexeme (← get) = .closing then return false
          let value ← disjunction fuel
          skip 1
          if lexeme (← get) = .closing then return value else throw .missingBracket
      | .unary operator => do
          skip 1
          match ← get with
          | [] => throw (.missingArgument operator)
          | operand :: _ => machine (unaryValue operator operand)
      | _ =>
          match ← get with
          | [] => return false
          | a :: rest =>
              match lexeme rest with
              | .binary operator =>
                  match rest.tail with
                  | [] => throw (.missingArgument operator)
                  | b :: _ => do
                      skip 2
                      match ← machine (binaryValue operator a b) with
                      | .ok value => return value
                      | .error fault => throw fault
              | _ => return a != ""

end

def whole (words : List String) : TestM Bool := do
  set words
  let value ← disjunction (4 * words.length + 4)
  match ← get with
  | last :: _ :: _ => throw (.unexpectedOperator last)
  | _ => return value

/-- The value of the words of a test.  Of three words the middle one is the operator if it
can be, whatever the others are. -/
def evaluate (words : List String) : Program Machine (Except Fault Bool) := do
  match words with
  | [] => return .ok false
  | [a, operator, b] =>
      if isBinary operator then binaryValue operator a b else short words
  | [_, _, _, _] => short words
  | words => run words
where
  run (words : List String) : Program Machine (Except Fault Bool) := do
    return (← (whole words).run.run words).1
  /-- A short expression in brackets, or one that is denied. -/
  short (words : List String) : Program Machine (Except Fault Bool) := do
    match words with
    | "(" :: rest => if rest.getLast? = some ")" then run rest.dropLast else run words
    | "!" :: rest => do return (← run rest).map (!·)
    | words => run words

def Fault.message : Fault → String
  | notNumber text => "Illegal number: " ++ text
  | unexpectedOperator text =>
      if text = "" then "unexpected operator" else text ++ ": unexpected operator"
  | missingArgument operator => operator ++ ": argument expected"
  | missingBracket => "closing paren expected"

end Handoff.Shell.Test
