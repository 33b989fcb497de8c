import Handoff.Host.Shell.Reader
/-!
# Shell arithmetic

The value of what stands between `$((` and `))`: whole numbers of 64 bits with the
operators of C, and assignments to variables.
-/

namespace Handoff.Shell.Arithmetic

inductive Lexeme where
  | number (value : Int)
  | name (text : String)
  | symbol (text : String)
  | ending
  | strange
  deriving DecidableEq

inductive Fault where
  /-- The expression is malformed. -/
  | malformed (reason : String)
  /-- The value of a variable is no number. -/
  | illegal (text : String)

def isSpace (c : Char) : Bool :=
  c == ' ' || ('\t' ≤ c && c ≤ '\r')

def digitValue? (base : Nat) (c : Char) : Option Nat :=
  let value :=
    if c.isDigit then c.toNat - '0'.toNat
    else if 'a' ≤ c && c ≤ 'z' then c.toNat - 'a'.toNat + 10
    else if 'A' ≤ c && c ≤ 'Z' then c.toNat - 'A'.toNat + 10
    else base
  if value < base then some value else none

def digits (base : Nat) : List Char → Nat → Nat → Nat × Nat × List Char
  | [], value, count => (value, count, [])
  | c :: rest, value, count =>
      match digitValue? base c with
      | some digit => digits base rest (value * base + digit) (count + 1)
      | none => (value, count, c :: rest)

/-- The whole number at the start of a text, in one of the bases of C, and what follows;
`none` when there is none. -/
def numeral? (text : List Char) : Option (Nat × List Char) :=
  match text with
  | '0' :: x :: d :: rest =>
      if (x == 'x' || x == 'X') && (digitValue? 16 d).isSome then
        let (value, _, rest) := digits 16 (d :: rest) 0 0
        some (value, rest)
      else
        let (value, _, rest) := digits 8 text 0 0
        some (value, rest)
  | '0' :: _ =>
      let (value, _, rest) := digits 8 text 0 0
      some (value, rest)
  | _ =>
      match digits 10 text 0 0 with
      | (_, 0, _) => none
      | (value, _, rest) => some (value, rest)

def intMax : Int := 9223372036854775807
def intMin : Int := -9223372036854775808

def saturate (n : Int) : Int :=
  max intMin (min intMax n)

def signed? (text : List Char) : Option (Int × List Char) :=
  match text.dropWhile isSpace with
  | '-' :: rest => (numeral? rest).map fun (n, rest) => (-(n : Int), rest)
  | '+' :: rest => (numeral? rest).map fun (n, rest) => ((n : Int), rest)
  | rest => (numeral? rest).map fun (n, rest) => ((n : Int), rest)

def valueOf? (text : String) : Option Int :=
  match signed? text.toList with
  | some (n, rest) =>
      if rest.all isSpace && intMin ≤ n && n ≤ intMax then some n else none
  | none => if text.toList.all isSpace then some 0 else none

def symbols : List String :=
  ["<<=", ">>=", "||", "&&", "==", "!=", "<=", ">=", "<<", ">>", "*=", "/=", "%=", "+=", "-=",
    "&=", "^=", "|=", "|", "^", "&", "=", "!", "<", ">", "+", "-", "*", "/", "%", "~", "(", ")",
    "?", ":"]

def lexemes : Nat → List Char → List Lexeme
  | 0, _ => [.ending]
  | fuel + 1, text =>
      match text.dropWhile isSpace with
      | [] => [.ending]
      | c :: rest =>
          if c.isDigit then
            match numeral? (c :: rest) with
            | some (n, rest) => .number (saturate n) :: lexemes fuel rest
            | none => [.strange]
          else if Reader.isNameStart c then
            let name := (c :: rest).takeWhile Reader.isNamePart
            .name (String.ofList name) :: lexemes fuel ((c :: rest).drop name.length)
          else
            match symbols.findSome? fun symbol =>
                (symbol.toList.isPrefixOf? (c :: rest)).map fun rest => (symbol, rest) with
            | some (symbol, rest) => .symbol symbol :: lexemes fuel rest
            | none => [.strange]

def looseness? : String → Option Nat
  | "*" => some 0
  | "/" => some 0
  | "%" => some 0
  | "+" => some 1
  | "-" => some 1
  | "<<" => some 2
  | ">>" => some 2
  | "<" => some 3
  | ">" => some 3
  | "<=" => some 3
  | ">=" => some 3
  | "==" => some 4
  | "!=" => some 4
  | "&" => some 5
  | "^" => some 6
  | "|" => some 7
  | _ => none

def assignments : List (String × String) :=
  [("=", ""), ("*=", "*"), ("/=", "/"), ("%=", "%"), ("+=", "+"), ("-=", "-"), ("<<=", "<<"),
    (">>=", ">>"), ("&=", "&"), ("^=", "^"), ("|=", "|")]

def ofBool (b : Bool) : Int :=
  if b then 1 else 0

def wrap (n : Int) : Int :=
  (Int64.ofInt n).toInt

def apply (operator : String) (a b : Int) : Except Fault Int :=
  let bits (f : Int64 → Int64 → Int64) : Except Fault Int :=
    .ok (f (Int64.ofInt a) (Int64.ofInt b)).toInt
  match operator with
  | "*" => .ok (wrap (a * b))
  | "/" => if b = 0 then .error (.malformed "division by zero") else .ok (wrap (Int.tdiv a b))
  | "%" => if b = 0 then .error (.malformed "division by zero") else .ok (wrap (Int.tmod a b))
  | "+" => .ok (wrap (a + b))
  | "-" => .ok (wrap (a - b))
  | "<<" => bits (· <<< ·)
  | ">>" => bits (· >>> ·)
  | "<" => .ok (ofBool (a < b))
  | ">" => .ok (ofBool (b < a))
  | "<=" => .ok (ofBool (a ≤ b))
  | ">=" => .ok (ofBool (b ≤ a))
  | "==" => .ok (ofBool (a == b))
  | "!=" => .ok (ofBool (a != b))
  | "&" => bits (· &&& ·)
  | "^" => bits (· ^^^ ·)
  | "|" => bits (· ||| ·)
  | _ => .ok b

structure Progress where
  tokens : List Lexeme
  changes : List (String × Int)

abbrev EvalM := StateT Progress (Except Fault)

def look : EvalM Lexeme := do
  return (← get).tokens.head?.getD .ending

def take : EvalM Lexeme := do
  let token ← look
  modify fun progress => { progress with tokens := progress.tokens.tail }
  return token

/-- The number of a variable; one that is not set counts as zero. -/
def valueOf (value : String → Option String) (name : String) : EvalM Int := do
  match (← get).changes.lookup name with
  | some n => return n
  | none =>
      match value name with
      | none => return 0
      | some text =>
          match valueOf? text with
          | some n => return n
          | none => throw (.illegal text)

mutual

/-- The value of an assignment, or of what takes its place.  Where `idle` is set, nothing
is looked up or changed. -/
def assignment (value : String → Option String) : Nat → Bool → EvalM Int
  | 0, _ => throw (.malformed "expecting primary")
  | fuel + 1, idle => do
      match (← get).tokens with
      | .name name :: .symbol symbol :: rest =>
          match assignments.lookup symbol with
          | some operator => do
              modify fun progress => { progress with tokens := rest }
              let result ← assignment value fuel idle
              if idle then return result
              let result ← if operator = "" then pure result
                else do
                  let old ← valueOf value name
                  match apply operator old result with
                  | .ok result => pure result
                  | .error fault => throw fault
              modify fun progress => { progress with changes := (name, result) :: progress.changes }
              return result
          | none => conditional value fuel idle
      | _ => conditional value fuel idle

def conditional (value : String → Option String) : Nat → Bool → EvalM Int
  | 0, _ => throw (.malformed "expecting primary")
  | fuel + 1, idle => do
      let test ← disjunction value fuel idle
      match ← look with
      | .symbol "?" => do
          let _ ← take
          let yes ← assignment value fuel (idle || test == 0)
          match ← look with
          | .symbol ":" => do
              let _ ← take
              let no ← conditional value fuel (idle || test != 0)
              return if test = 0 then no else yes
          | _ => throw (.malformed "expecting ':'")
      | _ => return test

def disjunction (value : String → Option String) : Nat → Bool → EvalM Int
  | 0, _ => throw (.malformed "expecting primary")
  | fuel + 1, idle => do
      let first ← conjunction value fuel idle
      match ← look with
      | .symbol "||" => do
          let _ ← take
          let second ← disjunction value fuel (idle || first != 0)
          return ofBool (first != 0 || second != 0)
      | _ => return first

def conjunction (value : String → Option String) : Nat → Bool → EvalM Int
  | 0, _ => throw (.malformed "expecting primary")
  | fuel + 1, idle => do
      let first ← primary value fuel idle
      let first ← operators value fuel idle 8 first
      match ← look with
      | .symbol "&&" => do
          let _ ← take
          let second ← conjunction value fuel (idle || first == 0)
          return ofBool (first != 0 && second != 0)
      | _ => return first

/-- The value of `first` with the operators that follow it and bind tighter than `bound`. -/
def operators (value : String → Option String) : Nat → Bool → Nat → Int → EvalM Int
  | 0, _, _, _ => throw (.malformed "expecting primary")
  | fuel + 1, idle, bound, first => do
      match ← look with
      | .symbol symbol =>
          match looseness? symbol with
          | some level =>
              if bound ≤ level then return first
              else do
                let _ ← take
                let second ← primary value fuel idle
                let second ← operators value fuel idle level second
                let result ← if idle then pure second
                  else match apply symbol first second with
                    | .ok result => pure result
                    | .error fault => throw fault
                operators value fuel idle bound result
          | none => return first
      | _ => return first

/-- A number, a variable, a bracket, or one of them after a sign. -/
def primary (value : String → Option String) : Nat → Bool → EvalM Int
  | 0, _ => throw (.malformed "expecting primary")
  | fuel + 1, idle => do
      match ← take with
      | .number n => return n
      | .name name => if idle then return 0 else valueOf value name
      | .symbol "(" => do
          let result ← assignment value fuel idle
          match ← take with
          | .symbol ")" => return result
          | _ => throw (.malformed "expecting ')'")
      | .symbol "+" => primary value fuel idle
      | .symbol "-" => do return wrap (-(← primary value fuel idle))
      | .symbol "!" => do return ofBool ((← primary value fuel idle) == 0)
      | .symbol "~" => do return wrap (-(← primary value fuel idle) - 1)
      | _ => throw (.malformed "expecting primary")

end

def eval (value : String → Option String) (source : String) :
    Except Fault (Int × List (String × Int)) := do
  let tokens := lexemes (source.length + 1) source.toList
  let (result, progress) ←
    (assignment value (20 * (tokens.length + 2)) false).run { tokens, changes := [] }
  match progress.tokens.head?.getD .ending with
  | .ending => return (result, progress.changes)
  | _ => throw (.malformed "expecting EOF")

end Handoff.Shell.Arithmetic
