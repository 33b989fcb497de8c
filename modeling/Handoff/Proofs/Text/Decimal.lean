import Handoff.Archive
/-!
# Numbers and flags read back

The decimal text of a 32-bit integer holds no blank and reads as that integer, and the
text of a flag reads as the flag.
-/

namespace Handoff

namespace Text

theorem isDigit_of_mem_toDigits {n : Nat} {c : Char} (h : c ∈ Nat.toDigits 10 n) :
    isDigit c = true := by
  have hdigit := Nat.isDigit_of_mem_toDigits (by decide) (by decide) h
  simpa [Char.isDigit, isDigit, Char.le_def] using hdigit

theorem isDigit_iff {c : Char} : isDigit c = true ↔ 48 ≤ c.toNat ∧ c.toNat ≤ 57 := by
  simp [isDigit, Char.le_def, UInt32.le_iff_toNat_le]

theorem isBlank_of_isDigit {c : Char} (h : isDigit c = true) : isBlank c = false := by
  have hrange := isDigit_iff.1 h
  simp only [isBlank, Bool.or_eq_false_iff, Bool.and_eq_false_iff, beq_eq_false_iff_ne,
    decide_eq_false_iff_not]
  omega

theorem natOfDigits?_toDigits (n : Nat) : natOfDigits? (Nat.toDigits 10 n) = some n := by
  have hempty : (Nat.toDigits 10 n).isEmpty = false := by simp [Nat.toDigits_ne_nil]
  have hall : (Nat.toDigits 10 n).all isDigit = true :=
    List.all_eq_true.2 fun c hc => isDigit_of_mem_toDigits hc
  rw [natOfDigits?, hempty, hall, Nat.ofDigitChars_toDigits (by decide) (by decide)]
  rfl

theorem intOfChars?_of_digits {digits : List Char} (h : ∀ c ∈ digits, isDigit c = true) :
    intOfChars? digits = (natOfDigits? digits).map fun n => (n : Int) := by
  unfold intOfChars?
  split
  · next digits => exact absurd (h '-' List.mem_cons_self) (by decide)
  · next digits => exact absurd (h '+' List.mem_cons_self) (by decide)
  · rfl

theorem intOfChars?_toDigits (n : Nat) : intOfChars? (Nat.toDigits 10 n) = some (n : Int) := by
  rw [intOfChars?_of_digits fun c hc => isDigit_of_mem_toDigits hc, natOfDigits?_toDigits]
  rfl

theorem toList_natRepr (n : Nat) : (Nat.repr n).toList = Nat.toDigits 10 n :=
  String.toList_ofList

theorem toList_showInt32_of_nonneg {n : Int32} {m : Nat} (h : n.toInt = Int.ofNat m) :
    (showInt32 n).toList = Nat.toDigits 10 m := by
  unfold showInt32
  rw [h]
  exact toList_natRepr m

theorem toList_showInt32_of_neg {n : Int32} {m : Nat} (h : n.toInt = Int.negSucc m) :
    (showInt32 n).toList = '-' :: Nat.toDigits 10 (m + 1) := by
  unfold showInt32
  rw [h]
  change ("-" ++ Nat.repr (m + 1)).toList = _
  rw [String.toList_append, toList_natRepr]
  rfl

theorem intOfChars?_showInt32 (n : Int32) :
    intOfChars? (showInt32 n).toList = some n.toInt := by
  cases h : n.toInt with
  | ofNat m =>
      rw [toList_showInt32_of_nonneg h]
      exact intOfChars?_toDigits m
  | negSucc m =>
      rw [toList_showInt32_of_neg h, intOfChars?, natOfDigits?_toDigits]
      rfl

theorem int32?_showInt32 (n : Int32) : int32? (showInt32 n) = some n := by
  unfold int32?
  rw [intOfChars?_showInt32]
  exact (if_pos ⟨n.minValue_le_toInt, n.toInt_le⟩).trans (congrArg some n.ofInt_toInt)

theorem trim_showInt32 (n : Int32) : trim (showInt32 n) = showInt32 n := by
  refine trim_of_forall fun c hc => ?_
  cases h : n.toInt with
  | ofNat m =>
      rw [toList_showInt32_of_nonneg h] at hc
      exact isBlank_of_isDigit (isDigit_of_mem_toDigits hc)
  | negSucc m =>
      rw [toList_showInt32_of_neg h] at hc
      rcases List.mem_cons.1 hc with rfl | hc
      · decide
      · exact isBlank_of_isDigit (isDigit_of_mem_toDigits hc)

end Text

namespace Archive

theorem exitCodeOfText?_showInt32 (n : Int32) :
    exitCodeOfText? (Text.showInt32 n) = some n := by
  rw [exitCodeOfText?, Text.trim_showInt32, Text.int32?_showInt32]

theorem flagOfText?_flagText (flag : Bool) : flagOfText? (flagText flag) = some flag := by
  cases flag <;> decide

end Archive

end Handoff
