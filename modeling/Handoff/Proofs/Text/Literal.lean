import Mathlib.Data.List.Forall2
import Mathlib.Data.List.Induction
import Handoff.Proofs.Text.Decimal
/-!
# Literals

The grammars of the numbers and flags in the archive, and that the readers accept just what is
spelled by them.
-/

namespace Handoff

namespace Text

/-! ## Numbers -/

def IsDigitOf (c : Char) (d : Nat) : Prop :=
  d < 10 ∧ c.toNat = '0'.toNat + d

/-- The digits spell the number, the most significant one first.  Zeros may come before others. -/
inductive SpellsNat : List Char → Nat → Prop
  | digit {c : Char} {d : Nat} (last : IsDigitOf c d) : SpellsNat [c] d
  | more {digits : List Char} {n : Nat} {c : Char} {d : Nat} (first : SpellsNat digits n)
      (last : IsDigitOf c d) : SpellsNat (digits ++ [c]) (10 * n + d)

inductive SpellsInt : List Char → Int → Prop
  | bare {digits : List Char} {n : Nat} (h : SpellsNat digits n) : SpellsInt digits n
  | plus {digits : List Char} {n : Nat} (h : SpellsNat digits n) : SpellsInt ('+' :: digits) n
  | minus {digits : List Char} {n : Nat} (h : SpellsNat digits n) :
      SpellsInt ('-' :: digits) (-n)

theorem IsDigitOf.isDigit {c : Char} {d : Nat} (h : IsDigitOf c d) : isDigit c = true := by
  obtain ⟨hsmall, hc⟩ := h
  have hzero : '0'.toNat = 48 := rfl
  exact isDigit_iff.2 (by omega)

theorem isDigitOf_of_isDigit {c : Char} (h : isDigit c = true) :
    IsDigitOf c (c.toNat - '0'.toNat) := by
  have hrange := isDigit_iff.1 h
  have hzero : '0'.toNat = 48 := rfl
  exact ⟨by omega, by omega⟩

theorem ofDigitChars_snoc (digits : List Char) (c : Char) :
    Nat.ofDigitChars 10 (digits ++ [c]) 0 =
      10 * Nat.ofDigitChars 10 digits 0 + (c.toNat - '0'.toNat) := by
  rw [Nat.ofDigitChars_append, Nat.ofDigitChars_cons, Nat.ofDigitChars_nil]

theorem SpellsNat.digits {digits : List Char} {n : Nat} (h : SpellsNat digits n) :
    digits ≠ [] ∧ (∀ c ∈ digits, Text.isDigit c = true) ∧ Nat.ofDigitChars 10 digits 0 = n := by
  induction h with
  | @digit c d last =>
      refine ⟨List.cons_ne_nil _ _, by simpa using last.isDigit, ?_⟩
      have hvalue := ofDigitChars_snoc [] c
      rw [List.nil_append, Nat.ofDigitChars_nil, last.2] at hvalue
      omega
  | @more digits n c d first last ih =>
      obtain ⟨-, hdigits, hvalue⟩ := ih
      refine ⟨by simp, ?_, ?_⟩
      · simpa [or_imp, forall_and] using ⟨hdigits, last.isDigit⟩
      · rw [ofDigitChars_snoc, hvalue, last.2]
        omega

theorem spellsNat_of_digits {digits : List Char} (hnonempty : digits ≠ [])
    (hdigits : ∀ c ∈ digits, isDigit c = true) :
    SpellsNat digits (Nat.ofDigitChars 10 digits 0) := by
  induction digits using List.reverseRecOn with
  | nil => exact absurd rfl hnonempty
  | append_singleton digits c ih =>
      have hlast := isDigitOf_of_isDigit (hdigits c (by simp))
      rw [ofDigitChars_snoc]
      by_cases hempty : digits = []
      · subst hempty
        simpa using SpellsNat.digit hlast
      · exact .more (ih hempty fun d hd => hdigits d (by simp [hd])) hlast

/-- Exactly the digits that spell a number are read as it. -/
theorem natOfDigits?_eq_some_iff {digits : List Char} {n : Nat} :
    natOfDigits? digits = some n ↔ SpellsNat digits n := by
  constructor
  · intro h
    unfold natOfDigits? at h
    split at h
    · cases h
    · next hall =>
      cases h
      simp only [Bool.or_eq_true, List.isEmpty_iff, Bool.not_eq_true', not_or,
        Bool.not_eq_false, List.all_eq_true] at hall
      exact spellsNat_of_digits hall.1 hall.2
  · intro h
    obtain ⟨hnonempty, hdigits, rfl⟩ := h.digits
    have hempty : digits.isEmpty = false := by simpa using hnonempty
    rw [natOfDigits?, hempty, List.all_eq_true.2 hdigits]
    rfl

/-! ## The digits that are written -/

private theorem spelled_of_map {digits : List Char} {sign : Int → Int} {n : Int}
    (h : (natOfDigits? digits).map sign = some n) :
    ∃ value : Nat, SpellsNat digits value ∧ sign value = n := by
  cases hvalue : natOfDigits? digits with
  | none =>
      rw [hvalue] at h
      cases h
  | some value =>
      rw [hvalue] at h
      exact ⟨value, natOfDigits?_eq_some_iff.1 hvalue, Option.some.inj h⟩

theorem intOfChars?_eq_some_iff {text : List Char} {n : Int} :
    intOfChars? text = some n ↔ SpellsInt text n := by
  constructor
  · intro h
    unfold intOfChars? at h
    split at h
    all_goals obtain ⟨value, hspelled, rfl⟩ := spelled_of_map h
    · exact .minus hspelled
    · exact .plus hspelled
    · exact .bare hspelled
  · intro h
    cases h with
    | bare h =>
        rw [intOfChars?_of_digits h.digits.2.1, natOfDigits?_eq_some_iff.2 h]
        rfl
    | plus h =>
        rw [intOfChars?, natOfDigits?_eq_some_iff.2 h]
        rfl
    | minus h =>
        rw [intOfChars?, natOfDigits?_eq_some_iff.2 h]
        rfl

theorem int32?_eq_some_iff {text : String} {n : Int32} :
    int32? text = some n ↔ SpellsInt text.toList n.toInt := by
  rw [← intOfChars?_eq_some_iff]
  unfold int32?
  constructor
  · intro h
    split at h
    · next value hvalue =>
      split at h
      · next hfits =>
        cases h
        have hlow : Int32.minValue.toInt = -2 ^ 31 := by decide
        have hhigh : Int32.maxValue.toInt = 2 ^ 31 - 1 := by decide
        rw [hvalue, Int32.toInt_ofInt_of_le (by omega) (by omega)]
      · cases h
    · cases h
  · intro h
    rw [h]
    exact (if_pos ⟨n.minValue_le_toInt, n.toInt_le⟩).trans (congrArg some n.ofInt_toInt)

/-! ## Flags -/

def IsLetter (letter c : Char) : Prop :=
  c = letter ∨ 'a' ≤ letter ∧ letter ≤ 'z' ∧ c.toNat + 32 = letter.toNat

def flagWords : Bool → List String
  | true => ["true", "1"]
  | false => ["false", "0"]

def SpellsFlag (text : List Char) (flag : Bool) : Prop :=
  ∃ word ∈ flagWords flag, List.Forall₂ IsLetter word.toList text

theorem toNat_toLower {c : Char} (h : 65 ≤ c.toNat ∧ c.toNat ≤ 90) :
    c.toLower.toNat = c.toNat + 32 := by
  have hcapital : c.val ≥ 'A'.val ∧ c.val ≤ 'Z'.val :=
    ⟨UInt32.le_iff_toNat_le.2 h.1, UInt32.le_iff_toNat_le.2 h.2⟩
  have hlower : c.toLower.val = c.val + ('a'.val - 'A'.val) :=
    congrArg Char.val (dif_pos hcapital)
  have hsmall : c.val.toNat ≤ 90 := h.2
  have hstep : ('a'.val - 'A'.val).toNat = 32 := by decide
  rw [Char.toNat, hlower, UInt32.toNat_add, hstep, Char.toNat, Nat.mod_eq_of_lt (by omega)]

theorem toLower_of_not_capital {c : Char} (h : ¬(65 ≤ c.toNat ∧ c.toNat ≤ 90)) :
    c.toLower = c := by
  have hother : ¬(c.val ≥ 'A'.val ∧ c.val ≤ 'Z'.val) := fun hcapital =>
    h ⟨UInt32.le_iff_toNat_le.1 hcapital.1, UInt32.le_iff_toNat_le.1 hcapital.2⟩
  exact dif_neg hother

theorem toLower_eq_iff {letter c : Char} (h : letter.toLower = letter) :
    c.toLower = letter ↔ IsLetter letter c := by
  have hrange : 'a' ≤ letter ∧ letter ≤ 'z' ↔ 97 ≤ letter.toNat ∧ letter.toNat ≤ 122 := by
    simp [Char.le_def, UInt32.le_iff_toNat_le]
  rw [IsLetter, ← and_assoc, hrange]
  by_cases hcapital : 65 ≤ c.toNat ∧ c.toNat ≤ 90
  · have hlower := toNat_toLower hcapital
    constructor
    · rintro rfl
      exact .inr (by omega)
    · rintro (rfl | ⟨-, hletter⟩)
      · exact h
      · exact Char.toNat_inj.1 (hlower.trans hletter)
  · rw [toLower_of_not_capital hcapital]
    exact ⟨.inl, fun hc => hc.resolve_right (by omega)⟩

theorem forall₂_isLetter_iff {word text : List Char} (h : word.map Char.toLower = word) :
    List.Forall₂ IsLetter word text ↔ text.map Char.toLower = word := by
  induction word generalizing text with
  | nil => cases text <;> simp
  | cons letter word ih =>
      rw [List.map_cons, List.cons.injEq] at h
      cases text with
      | nil => simp
      | cons c text =>
          rw [List.forall₂_cons, ih h.2, ← toLower_eq_iff h.1, List.map_cons, List.cons.injEq]

theorem toLower_of_mem_flagWords {flag : Bool} {word : String} (h : word ∈ flagWords flag) :
    word.toList.map Char.toLower = word.toList := by
  revert word
  cases flag <;> decide

theorem spellsFlag_iff {text : List Char} {flag : Bool} :
    SpellsFlag text flag ↔ String.ofList (text.map Char.toLower) ∈ flagWords flag := by
  constructor
  · rintro ⟨word, hword, hspelled⟩
    rw [forall₂_isLetter_iff (toLower_of_mem_flagWords hword)] at hspelled
    rwa [hspelled, String.ofList_toList]
  · intro h
    refine ⟨_, h, (forall₂_isLetter_iff (toLower_of_mem_flagWords h)).2 ?_⟩
    rw [String.toList_ofList]

end Text

namespace Archive

open Text

theorem exitCodeOfText?_eq_some_iff {raw : String} {n : Int32} :
    exitCodeOfText? raw = some n ↔ SpellsInt (trim raw).toList n.toInt :=
  int32?_eq_some_iff

theorem flagOfText?_eq_some_iff {raw : String} {flag : Bool} :
    flagOfText? raw = some flag ↔ SpellsFlag (trim raw).toList flag := by
  rw [spellsFlag_iff]
  unfold flagOfText?
  dsimp only
  generalize String.ofList ((trim raw).toList.map Char.toLower) = word
  split
  · next hyes =>
    rcases hyes with rfl | rfl <;> cases flag <;> decide
  split
  · next hno =>
    rcases hno with rfl | rfl <;> cases flag <;> decide
  · next hyes hno =>
    cases flag with
    | true => simpa [flagWords] using hyes
    | false => simpa [flagWords] using hno

end Archive

end Handoff
