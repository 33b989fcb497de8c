/-!
# Decimal numbers

Readers of optionally signed decimal text for bounded integers.  Leading zeros are
allowed, separators are not.
-/

namespace Handoff.Text

def isDigit (c : Char) : Bool :=
  '0' ≤ c && c ≤ '9'

def natOfDigits? (digits : List Char) : Option Nat :=
  if digits.isEmpty || !digits.all isDigit then none
  else some (Nat.ofDigitChars 10 digits 0)

def intOfChars? : List Char → Option Int
  | '-' :: digits => (natOfDigits? digits).map fun n => -(n : Int)
  | '+' :: digits => (natOfDigits? digits).map fun n => (n : Int)
  | digits => (natOfDigits? digits).map fun n => (n : Int)

def int32? (text : String) : Option Int32 :=
  match intOfChars? text.toList with
  | some n =>
      if Int32.minValue.toInt ≤ n ∧ n ≤ Int32.maxValue.toInt then some (Int32.ofInt n)
      else none
  | none => none

def uint64? (text : String) : Option UInt64 :=
  let digits := match text.toList with
    | '+' :: rest => rest
    | all => all
  match natOfDigits? digits with
  | some n => if n < UInt64.size then some (UInt64.ofNat n) else none
  | none => none

def showInt32 (n : Int32) : String :=
  toString n.toInt

end Handoff.Text
