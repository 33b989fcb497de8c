import Handoff.Json.Number
/-!
# Reading JSON text

Builds the tree of a text, up to the first place where it breaks off or stops being
JSON.  Containers nest 127 deep at most.
-/

namespace Handoff.Json

def isSpace (c : Char) : Bool :=
  c == ' ' || c == '\n' || c == '\t' || c == '\r'

def skipSpace (text : List Char) : List Char :=
  text.dropWhile isSpace

def hexValue? (c : Char) : Option Nat :=
  if '0' ≤ c ∧ c ≤ '9' then some (c.toNat - '0'.toNat)
  else if 'a' ≤ c ∧ c ≤ 'f' then some (c.toNat - 'a'.toNat + 10)
  else if 'A' ≤ c ∧ c ≤ 'F' then some (c.toNat - 'A'.toNat + 10)
  else none

/-- Reads four hexadecimal digits.  Fewer than four bytes left count as the end. -/
def readHex (text : List Char) : Except JsonFault (Nat × List Char) :=
  if (String.ofList (text.take 4)).utf8ByteSize < 4 then .error .eof
  else
    match text with
    | a :: b :: c :: d :: rest =>
        match hexValue? a, hexValue? b, hexValue? c, hexValue? d with
        | some a, some b, some c, some d => .ok (((a * 16 + b) * 16 + c) * 16 + d, rest)
        | _, _, _, _ => .error .syntactic
    | _ => .error .syntactic

def isLeading (n : Nat) : Bool := 0xd800 ≤ n && n ≤ 0xdbff
def isTrailing (n : Nat) : Bool := 0xdc00 ≤ n && n ≤ 0xdfff

def readTrailing (lead : Nat) : List Char → Except JsonFault (Char × List Char)
  | [] => .error .eof
  | '\\' :: [] => .error .eof
  | '\\' :: 'u' :: rest => do
      let (trail, rest) ← readHex rest
      if isTrailing trail then
        return (Char.ofNat (0x10000 + (lead - 0xd800) * 0x400 + (trail - 0xdc00)), rest)
      else .error .syntactic
  | _ => .error .syntactic

def readEscape : List Char → Except JsonFault (Char × List Char)
  | [] => .error .eof
  | '"' :: rest => .ok ('"', rest)
  | '\\' :: rest => .ok ('\\', rest)
  | '/' :: rest => .ok ('/', rest)
  | 'b' :: rest => .ok ('\x08', rest)
  | 'f' :: rest => .ok ('\x0c', rest)
  | 'n' :: rest => .ok ('\n', rest)
  | 'r' :: rest => .ok ('\r', rest)
  | 't' :: rest => .ok ('\t', rest)
  | 'u' :: rest => do
      let (unit, rest) ← readHex rest
      if isTrailing unit then .error .syntactic
      else if isLeading unit then readTrailing unit rest
      else return (Char.ofNat unit, rest)
  | _ => .error .syntactic

/-- Reads a string after its opening quote.  `fuel` bounds its characters. -/
def readString : Nat → List Char → List Char → Except JsonFault (String × List Char)
  | 0, _, _ => .error .eof
  | _ + 1, _, [] => .error .eof
  | fuel + 1, done, c :: rest =>
      if c = '"' then .ok (String.ofList done.reverse, rest)
      else if c = '\\' then
        match readEscape rest with
        | .error fault => .error fault
        | .ok (escaped, rest) => readString fuel (escaped :: done) rest
      else if c.toNat < 0x20 then .error .syntactic
      else readString fuel (c :: done) rest

def readText (text : List Char) : Except JsonFault (String × List Char) :=
  readString (text.length + 1) [] text

def readWord (value : Json) : List Char → List Char → Json × List Char
  | [], rest => (value, rest)
  | _ :: _, [] => (.broken .eof, [])
  | w :: word, c :: rest =>
      if w = c then readWord value word rest else (.broken .syntactic, [])

def settle {α : Type} (wrap : α → Json) : Except JsonFault (α × List Char) → Json × List Char
  | .ok (part, rest) => (wrap part, rest)
  | .error fault => (.broken fault, [])

mutual

/-- Reads one value, with `depth` more containers allowed. -/
def readValue : Nat → Nat → List Char → Json × List Char
  | 0, _, _ => (.broken .syntactic, [])
  | fuel + 1, depth, text =>
      match skipSpace text with
      | [] => (.broken .eof, [])
      | 'n' :: rest => readWord .null "ull".toList rest
      | 't' :: rest => readWord (.bool true) "rue".toList rest
      | 'f' :: rest => readWord (.bool false) "alse".toList rest
      | '"' :: rest => settle .string (readText rest)
      | '[' :: rest =>
          match depth with
          | 0 => (.broken .syntactic, [])
          | depth + 1 =>
              let (items, rest) := readItems fuel depth rest
              (.array items, rest)
      | '{' :: rest =>
          match depth with
          | 0 => (.broken .syntactic, [])
          | depth + 1 =>
              let (members, rest) := readMembers fuel depth rest
              (.object members, rest)
      | c :: rest =>
          if c = '-' ∨ Text.isDigit c then settle .number (readNumber (c :: rest))
          else (.broken .syntactic, [])

def readItems : Nat → Nat → List Char → JsonItems × List Char
  | 0, _, _ => (.cut .syntactic, [])
  | fuel + 1, depth, text =>
      match skipSpace text with
      | [] => (.cut .eof, [])
      | ']' :: rest => (.closed, rest)
      | _ => readItem fuel depth text

def readItem : Nat → Nat → List Char → JsonItems × List Char
  | 0, _, _ => (.cut .syntactic, [])
  | fuel + 1, depth, text =>
      let (head, rest) := readValue fuel depth text
      match skipSpace rest with
      | [] => (.more head (.cut .eof), [])
      | ']' :: rest => (.more head .closed, rest)
      | ',' :: rest =>
          let (tail, rest) := readItem fuel depth rest
          (.more head tail, rest)
      | _ => (.more head (.cut .syntactic), [])

def readMembers : Nat → Nat → List Char → JsonMembers × List Char
  | 0, _, _ => (.cut .syntactic, [])
  | fuel + 1, depth, text =>
      match skipSpace text with
      | [] => (.cut .eof, [])
      | '}' :: rest => (.closed, rest)
      | _ => readMember fuel depth text

def readMember : Nat → Nat → List Char → JsonMembers × List Char
  | 0, _, _ => (.cut .syntactic, [])
  | fuel + 1, depth, text =>
      match skipSpace text with
      | [] => (.cut .eof, [])
      | '"' :: rest =>
          match readText rest with
          | .error fault => (.cut fault, [])
          | .ok (key, rest) =>
              match skipSpace rest with
              | [] => (.dangling key .eof, [])
              | ':' :: rest =>
                  let (value, rest) := readValue fuel depth rest
                  match skipSpace rest with
                  | [] => (.more key value (.cut .eof), [])
                  | '}' :: rest => (.more key value .closed, rest)
                  | ',' :: rest =>
                      let (tail, rest) := readMember fuel depth rest
                      (.more key value tail, rest)
                  | _ => (.more key value (.cut .syntactic), [])
              | _ => (.dangling key .syntactic, [])
      | _ => (.cut .syntactic, [])

end

def depthMax : Nat := 127

def ofText (text : String) : JsonDocument :=
  let (root, rest) := readValue (2 * text.toList.length + 4) depthMax text.toList
  { root, trailing := !(skipSpace rest).isEmpty }

end Handoff.Json
