/-!
# UTF-8

Strict decoding, and decoding that puts U+FFFD in the place of every maximal
ill-formed part.  On well-formed bytes the two agree.
-/

namespace Handoff.Text

-- Byte strings are compared byte by byte, whatever other instance is in scope.
instance (priority := 1100) decidableEqBytes : DecidableEq ByteArray :=
  ByteArray.instDecidableEq

def decode? (bytes : ByteArray) : Option String :=
  String.fromUTF8? bytes

/-- The byte at `i`; zero, which continues no sequence, past the end. -/
def byteAt (bytes : ByteArray) (i : Nat) : Nat :=
  match bytes[i]? with
  | some b => b.toNat
  | none => 0

def isContinuation (b : Nat) : Bool :=
  0x80 ≤ b && b ≤ 0xbf

/-- Whether the second byte `b` may follow the first byte `a` of a sequence of three. -/
def fitsThree (a b : Nat) : Bool :=
  (a == 0xe0 && 0xa0 ≤ b && b ≤ 0xbf) || (0xe1 ≤ a && a ≤ 0xec && isContinuation b) ||
    (a == 0xed && 0x80 ≤ b && b ≤ 0x9f) || (0xee ≤ a && a ≤ 0xef && isContinuation b)

/-- Whether the second byte `b` may follow the first byte `a` of a sequence of four. -/
def fitsFour (a b : Nat) : Bool :=
  (a == 0xf0 && 0x90 ≤ b && b ≤ 0xbf) || (0xf1 ≤ a && a ≤ 0xf3 && isContinuation b) ||
    (a == 0xf4 && 0x80 ≤ b && b ≤ 0x8f)

/-- How many bytes the ill-formed part that starts at `i` covers: the longest start
of a sequence that breaks off, and at least one byte. -/
def brokenLength (bytes : ByteArray) (i : Nat) : Nat :=
  let a := byteAt bytes i
  let b := byteAt bytes (i + 1)
  let c := byteAt bytes (i + 2)
  if fitsThree a b then 2
  else if fitsFour a b then if isContinuation c then 3 else 2
  else 1

theorem brokenLength_pos (bytes : ByteArray) (i : Nat) : 0 < brokenLength bytes i := by
  unfold brokenLength
  dsimp only
  repeat' split
  all_goals omega

/-- The characters from byte `i` on, with U+FFFD for every ill-formed part. -/
def decodeFrom (bytes : ByteArray) (i : Nat) : List Char :=
  if _h : i < bytes.size then
    match bytes.utf8DecodeChar? i with
    | some c => c :: decodeFrom bytes (i + c.utf8Size)
    | none => '\uFFFD' :: decodeFrom bytes (i + brokenLength bytes i)
  else []
termination_by bytes.size - i
decreasing_by
  · have := c.utf8Size_pos; omega
  · have := brokenLength_pos bytes i; omega

def decodeLossy (bytes : ByteArray) : String :=
  match decode? bytes with
  | some text => text
  | none => String.ofList (decodeFrom bytes 0)

theorem decode?_toUTF8 (s : String) : decode? s.toUTF8 = some s := by
  unfold decode? String.fromUTF8?
  rw [String.toUTF8_eq_toByteArray, dif_pos s.isValidUTF8]
  rfl

theorem toUTF8_of_decode? {bytes : ByteArray} {s : String} (h : decode? bytes = some s) :
    s.toUTF8 = bytes := by
  unfold decode? String.fromUTF8? at h
  split at h
  · rw [Option.some.injEq] at h
    subst h
    rfl
  · contradiction

theorem decodeLossy_toUTF8 (s : String) : decodeLossy s.toUTF8 = s := by
  rw [decodeLossy, decode?_toUTF8]

def hex (bytes : ByteArray) : String :=
  String.ofList (bytes.data.toList.flatMap fun byte =>
    [Nat.digitChar (byte.toNat / 16), Nat.digitChar (byte.toNat % 16)])

end Handoff.Text
