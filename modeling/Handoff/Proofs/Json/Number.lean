import Handoff.Json.Number
/-!
# Plain numbers

Which numbers are read as unsigned integers in 64 bits: those that are spelled in digits and nothing
else, and are not too large.
-/

namespace Handoff.Json

open Handoff.Text (isDigit)

/-- The digits of an unsigned integer.  A zero stands alone. -/
structure IsPlain (digits : List Char) : Prop where
  nonempty : digits ≠ []
  all_digits : ∀ c ∈ digits, isDigit c = true
  no_leading_zero : ¬(digits.head? = some '0' ∧ digits.length ≠ 1)

/-- The number ends before the rest: that begins with no digit, point or exponent. -/
def EndsBefore (rest : List Char) : Prop :=
  ∀ c, rest.head? = some c → isDigit c = false ∧ c ≠ '.' ∧ ¬(c = 'e' ∨ c = 'E')

/-! ## The digits -/

theorem le_ofDigitChars (digits : List Char) (significand : Nat) :
    significand ≤ Nat.ofDigitChars 10 digits significand := by
  induction digits generalizing significand with
  | nil => exact Nat.le_refl significand
  | cons c rest ih =>
      rw [Nat.ofDigitChars_cons]
      have hlater := ih (10 * significand + (c.toNat - '0'.toNat))
      omega

theorem accumulate_eq_iff {digits : List Char} {significand value : Nat}
    (h : significand ≤ significandMax) :
    accumulate significand digits = (value, []) ↔
      Nat.ofDigitChars 10 digits significand = value ∧ value ≤ significandMax := by
  induction digits generalizing significand with
  | nil =>
      rw [accumulate, Nat.ofDigitChars_nil, Prod.mk.injEq]
      constructor
      · rintro ⟨rfl, -⟩
        exact ⟨rfl, h⟩
      · rintro ⟨rfl, -⟩
        exact ⟨rfl, rfl⟩
  | cons c rest ih =>
      have hnext : 10 * significand + (c.toNat - '0'.toNat) =
          significand * 10 + digitValue c := by
        rw [digitValue, Nat.mul_comm]
      rw [accumulate, Nat.ofDigitChars_cons, hnext]
      split
      · next hfits => exact ih hfits
      · next hover =>
        have hgrows := le_ofDigitChars rest (significand * 10 + digitValue c)
        constructor
        · intro heq
          cases heq
        · rintro ⟨rfl, hfits⟩
          exact absurd (Nat.le_trans hgrows hfits) hover

/-- A number is a natural one when it has neither sign nor fraction nor exponent, and fits. -/
theorem classify_eq_natural_iff {negative : Bool} {integer : List Char}
    {fraction : Option (List Char)} {exponent : Option (Bool × List Char)} {value : UInt64} :
    classify negative integer fraction exponent = .ok (.natural value) ↔
      negative = false ∧ fraction = none ∧ exponent = none ∧
        Nat.ofDigitChars 10 integer 0 = value.toNat := by
  have hvalue : value.toNat ≤ significandMax := Nat.le_pred_of_lt value.toNat_lt_size
  have haccumulate : accumulate 0 integer = (value.toNat, []) ↔
      Nat.ofDigitChars 10 integer 0 = value.toNat := by
    rw [accumulate_eq_iff (Nat.zero_le _), and_iff_left hvalue]
  rw [← haccumulate]
  rcases hparts : accumulate 0 integer with ⟨significand, extra⟩
  unfold classify
  simp only [hparts]
  split
  · next hwhole =>
    simp only [Bool.and_eq_true, Option.isNone_iff_eq_none, List.isEmpty_iff] at hwhole
    obtain ⟨⟨rfl, rfl⟩, rfl⟩ := hwhole
    have hfits := ((accumulate_eq_iff (Nat.zero_le _)).1 hparts).2
    have hsize : significand < UInt64.size := Nat.lt_of_le_pred (by decide) hfits
    cases negative with
    | true => simp
    | false =>
        have hnat : UInt64.ofNat significand = value ↔ significand = value.toNat := by
          rw [← UInt64.toNat_inj, UInt64.toNat_ofNat_of_lt' hsize]
        simpa using hnat
  · next hpart =>
    constructor
    · have hother (beyond : Bool) : (if beyond then .error .syntactic else .ok .other :
          Except JsonFault JsonNumber) ≠ .ok (.natural value) := by
        cases beyond with
        | true => exact nofun
        | false => exact nofun
      exact fun heq => absurd heq (hother _)
    · rintro ⟨rfl, rfl, rfl, heq⟩
      cases heq
      exact absurd rfl hpart

/-! ## The spelling -/

theorem readDigits_eq_ok_iff {text digits rest : List Char} :
    readDigits text = .ok (digits, rest) ↔ text = digits ++ rest ∧ digits ≠ [] ∧
      (∀ c ∈ digits, isDigit c = true) ∧ ∀ c, rest.head? = some c → isDigit c = false := by
  constructor
  · intro h
    cases text with
    | nil => cases h
    | cons c tail =>
        rw [readDigits] at h
        split at h
        · next hdigit =>
          cases h
          refine ⟨List.takeWhile_append_dropWhile.symm, ?_, ?_, ?_⟩
          · simp [hdigit]
          · exact fun d hd => List.all_eq_true.1 List.all_takeWhile d hd
          · intro d hd
            have hstop := List.head?_dropWhile_not isDigit (c :: tail)
            rw [hd] at hstop
            exact hstop
        · cases h
  · rintro ⟨rfl, hsome, hdigits, hrest⟩
    cases digits with
    | nil => exact absurd rfl hsome
    | cons c more =>
        have htake : rest.takeWhile isDigit = [] := by
          cases rest with
          | nil => rfl
          | cons d tail => exact List.takeWhile_cons_of_neg (by simp [hrest d rfl])
        have hdrop : rest.dropWhile isDigit = rest := by
          cases rest with
          | nil => rfl
          | cons d tail => exact List.dropWhile_cons_of_neg (by simp [hrest d rfl])
        rw [List.cons_append, readDigits, if_pos (hdigits c List.mem_cons_self),
          ← List.cons_append, List.takeWhile_append_of_pos hdigits,
          List.dropWhile_append_of_pos hdigits, htake, hdrop, List.append_nil]

theorem bind_eq_ok_iff {α β : Type} {read : Except JsonFault α} {next : α → Except JsonFault β}
    {result : β} : (read >>= next) = .ok result ↔
      ∃ part, read = .ok part ∧ next part = .ok result := by
  cases read with
  | error fault => exact ⟨nofun, nofun⟩
  | ok part => exact ⟨fun h => ⟨part, rfl, h⟩, fun ⟨_, hpart, h⟩ => Except.ok.inj hpart ▸ h⟩

theorem readInteger_eq_ok_iff {text digits rest : List Char} :
    readInteger text = .ok (digits, rest) ↔ text = digits ++ rest ∧ IsPlain digits ∧
      ∀ c, rest.head? = some c → isDigit c = false := by
  unfold readInteger
  rw [bind_eq_ok_iff]
  constructor
  · rintro ⟨⟨found, left⟩, hfound, h⟩
    dsimp only at h
    split at h
    · cases h
    · next hplain =>
      cases h
      obtain ⟨htext, hsome, hdigits, hrest⟩ := readDigits_eq_ok_iff.1 hfound
      exact ⟨htext, ⟨hsome, hdigits, hplain⟩, hrest⟩
  · rintro ⟨htext, ⟨hsome, hdigits, hplain⟩, hrest⟩
    refine ⟨(digits, rest), readDigits_eq_ok_iff.2 ⟨htext, hsome, hdigits, hrest⟩, ?_⟩
    dsimp only
    rw [if_neg hplain]
    rfl

theorem readFraction_eq_none_iff {text rest : List Char} :
    readFraction text = .ok (none, rest) ↔ rest = text ∧ ∀ c, text.head? = some c → c ≠ '.' := by
  unfold readFraction
  split
  · next tail =>
    rw [bind_eq_ok_iff]
    constructor
    · rintro ⟨found, -, h⟩
      cases h
    · rintro ⟨-, hnone⟩
      exact absurd rfl (hnone '.' rfl)
  · next hpoint =>
    constructor
    · intro h
      cases h
      refine ⟨rfl, fun c hc heq => ?_⟩
      cases text with
      | nil => cases hc
      | cons d tail =>
          cases hc
          exact hpoint tail (heq ▸ rfl)
    · rintro ⟨rfl, -⟩
      rfl

theorem readExponent_eq_none_iff {text rest : List Char} :
    readExponent text = .ok (none, rest) ↔
      rest = text ∧ ∀ c, text.head? = some c → ¬(c = 'e' ∨ c = 'E') := by
  cases text with
  | nil => simp [readExponent, eq_comm]
  | cons c tail =>
      rw [readExponent]
      split
      · next hexponent =>
        rw [bind_eq_ok_iff]
        constructor
        · rintro ⟨found, -, h⟩
          cases h
        · rintro ⟨-, hnone⟩
          exact absurd hexponent (hnone c rfl)
      · next hnone =>
        constructor
        · intro h
          cases h
          exact ⟨rfl, fun d hd => Option.some.inj hd ▸ hnone⟩
        · rintro ⟨rfl, -⟩
          rfl

theorem readUnsigned_eq_natural_iff {negative : Bool} {text rest : List Char} {value : UInt64} :
    (do
      let (integer, text) ← readInteger text
      let (fraction, text) ← readFraction text
      let (exponent, text) ← readExponent text
      let number ← classify negative integer fraction exponent
      return (number, text) : Except JsonFault (JsonNumber × List Char)) =
        .ok (.natural value, rest) ↔ negative = false ∧ ∃ digits, text = digits ++ rest ∧
      IsPlain digits ∧ EndsBefore rest ∧ Nat.ofDigitChars 10 digits 0 = value.toNat := by
  constructor
  · intro h
    obtain ⟨⟨integer, afterInteger⟩, hinteger, h⟩ := bind_eq_ok_iff.1 h
    obtain ⟨⟨fraction, afterFraction⟩, hfraction, h⟩ := bind_eq_ok_iff.1 h
    obtain ⟨⟨exponent, afterExponent⟩, hexponent, h⟩ := bind_eq_ok_iff.1 h
    obtain ⟨number, hnumber, h⟩ := bind_eq_ok_iff.1 h
    cases h
    obtain ⟨hnegative, rfl, rfl, hvalue⟩ := classify_eq_natural_iff.1 hnumber
    obtain ⟨htext, hplain, hdigit⟩ := readInteger_eq_ok_iff.1 hinteger
    obtain ⟨rfl, hpoint⟩ := readFraction_eq_none_iff.1 hfraction
    obtain ⟨rfl, hletter⟩ := readExponent_eq_none_iff.1 hexponent
    exact ⟨hnegative, integer, htext, hplain,
      fun c hc => ⟨hdigit c hc, hpoint c hc, hletter c hc⟩, hvalue⟩
  · rintro ⟨hnegative, digits, htext, hplain, hends, hvalue⟩
    have hinteger := readInteger_eq_ok_iff.2 ⟨htext, hplain, fun c hc => (hends c hc).1⟩
    have hfraction := readFraction_eq_none_iff.2 ⟨rfl, fun c hc => (hends c hc).2.1⟩
    have hexponent := readExponent_eq_none_iff.2 ⟨rfl, fun c hc => (hends c hc).2.2⟩
    have hnumber := classify_eq_natural_iff.2 ⟨hnegative, rfl, rfl, hvalue⟩
    refine bind_eq_ok_iff.2 ⟨_, hinteger, bind_eq_ok_iff.2 ⟨_, hfraction, ?_⟩⟩
    exact bind_eq_ok_iff.2 ⟨_, hexponent, bind_eq_ok_iff.2 ⟨_, hnumber, rfl⟩⟩

/-- The numbers that are read as unsigned integers in 64 bits are spelled in digits, with no zero
before others, and are followed by no fraction and no exponent.  They are read as what they are. -/
theorem readNumber_eq_natural_iff {text rest : List Char} {value : UInt64} :
    readNumber text = .ok (.natural value, rest) ↔ ∃ digits, text = digits ++ rest ∧
      IsPlain digits ∧ EndsBefore rest ∧ Nat.ofDigitChars 10 digits 0 = value.toNat := by
  unfold readNumber
  split
  next negative unsigned hsign =>
  rw [readUnsigned_eq_natural_iff]
  split at hsign
  · next tail =>
    cases hsign
    refine ⟨fun h => Bool.noConfusion h.1, ?_⟩
    rintro ⟨digits, htext, hplain, -⟩
    -- The digits of a plain number do not begin with a sign.
    cases digits with
    | nil => exact absurd rfl hplain.nonempty
    | cons c more =>
        obtain rfl : '-' = c := (List.cons.inj htext).1
        exact absurd (hplain.all_digits '-' List.mem_cons_self) (by decide)
  · cases hsign
    exact and_iff_right rfl

end Handoff.Json
