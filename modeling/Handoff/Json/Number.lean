import Handoff.Json
import Handoff.Text.Decimal
/-!
# JSON numbers

The grammar of numbers, and which of them are out of the range of a double.  A reader
keeps the leading digits that fit in 64 bits and counts the others as powers of ten.
-/

namespace Handoff.Json

open Handoff.Text (isDigit)

def digitValue (c : Char) : Nat :=
  c.toNat - '0'.toNat

def significandMax : Nat := UInt64.size - 1

/-- Takes digits into a significand while it fits, and leaves the others. -/
def accumulate (significand : Nat) : List Char → Nat × List Char
  | [] => (significand, [])
  | c :: rest =>
      if significand * 10 + digitValue c ≤ significandMax then
        accumulate (significand * 10 + digitValue c) rest
      else (significand, c :: rest)

/-- The nearest number with at most 53 significant bits; ties go to the even one. -/
def roundToDouble (n : Nat) : Nat :=
  let bits := Nat.log2 n + 1
  if bits ≤ 53 then n
  else
    let unit := Nat.pow 2 (bits - 53)
    let low := n / unit
    let rest := n % unit
    if rest * 2 < unit || (rest * 2 == unit && low % 2 == 0) then low * unit
    else (low + 1) * unit

/-- The least number that rounds beyond the largest double. -/
def doubleBound : Nat := Nat.pow 2 1024 - Nat.pow 2 970

/-- Whether the significand times the power of ten is out of the range of a double. -/
def overflows (significand : Nat) (exponent : Int) : Bool :=
  if significand = 0 || exponent < 0 then false
  else if 308 < exponent then true
  else doubleBound ≤ roundToDouble significand * roundToDouble (Nat.pow 10 exponent.toNat)

def exponentMax : Nat := 2147483647

def classify (negative : Bool) (integer : List Char) (fraction : Option (List Char))
    (exponent : Option (Bool × List Char)) : Except JsonFault JsonNumber :=
  let (significand, extra) := accumulate 0 integer
  let whole := fraction.isNone && exponent.isNone
  if whole && extra.isEmpty then
    .ok (if negative then .other else .natural (UInt64.ofNat significand))
  else
    let digits := fraction.getD []
    let (significand, left) := accumulate significand digits
    let scale : Int := extra.length - (digits.length - left.length : Nat)
    let beyond := match exponent with
      | none => overflows significand scale
      | some (minus, digits) =>
          let power := Nat.ofDigitChars 10 digits 0
          if exponentMax < power then significand != 0 && !minus
          else overflows significand (if minus then scale - power else scale + power)
    if beyond then .error .syntactic else .ok .other

def readDigits (text : List Char) : Except JsonFault (List Char × List Char) :=
  match text with
  | [] => .error .eof
  | c :: _ =>
      if isDigit c then .ok (text.takeWhile isDigit, text.dropWhile isDigit)
      else .error .syntactic

def readInteger (text : List Char) : Except JsonFault (List Char × List Char) := do
  let (digits, rest) ← readDigits text
  if digits.head? = some '0' ∧ digits.length ≠ 1 then .error .syntactic
  return (digits, rest)

def readFraction : List Char → Except JsonFault (Option (List Char) × List Char)
  | '.' :: rest => do
      let (digits, rest) ← readDigits rest
      return (some digits, rest)
  | text => .ok (none, text)

def readSignedDigits : List Char → Except JsonFault ((Bool × List Char) × List Char)
  | '+' :: rest => do
      let (digits, rest) ← readDigits rest
      return ((false, digits), rest)
  | '-' :: rest => do
      let (digits, rest) ← readDigits rest
      return ((true, digits), rest)
  | text => do
      let (digits, rest) ← readDigits text
      return ((false, digits), rest)

def readExponent : List Char → Except JsonFault ((Option (Bool × List Char)) × List Char)
  | c :: rest =>
      if c = 'e' ∨ c = 'E' then do
        let (exponent, rest) ← readSignedDigits rest
        return (some exponent, rest)
      else .ok (none, c :: rest)
  | [] => .ok (none, [])

def readNumber (text : List Char) : Except JsonFault (JsonNumber × List Char) := do
  let (negative, text) := match text with
    | '-' :: rest => (true, rest)
    | _ => (false, text)
  let (integer, text) ← readInteger text
  let (fraction, text) ← readFraction text
  let (exponent, text) ← readExponent text
  let number ← classify negative integer fraction exponent
  return (number, text)

end Handoff.Json
