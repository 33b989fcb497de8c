import Mathlib.Tactic.SplitIfs
/-!
# Texts and their bytes

A smaller text has smaller UTF-8 bytes, and a text starts with another one exactly when its bytes
start with those of the other.
-/

namespace Handoff.Text

def utf8 (text : List Char) : List UInt8 :=
  text.flatMap String.utf8EncodeChar

@[simp] theorem utf8_nil : utf8 [] = [] := rfl

@[simp] theorem utf8_cons (c : Char) (text : List Char) :
    utf8 (c :: text) = String.utf8EncodeChar c ++ utf8 text := rfl

/-! ## Order -/

/-- A smaller character has smaller bytes, whatever follows them: where the encodings have
different lengths their first bytes differ, and those of one length compare digit by digit. -/
theorem encodeChar_append_lt {c d : Char} (h : c < d) (x y : List UInt8) :
    String.utf8EncodeChar c ++ x < String.utf8EncodeChar d ++ y := by
  have hlt : c.val.toNat < d.val.toNat := h
  have hmax : d.val.toNat < 0x110000 := by
    have hvalid := d.valid
    simp only [UInt32.isValidChar, Nat.isValidChar] at hvalid
    omega
  have hdigits (n : Nat) : n / 4096 = n / 64 / 64 ∧ n / 262144 = n / 64 / 64 / 64 := by omega
  unfold String.utf8EncodeChar
  simp only [(hdigits _).1, (hdigits _).2]
  split_ifs <;>
    simp only [List.cons_append, List.nil_append, List.cons_lt_cons_iff, UInt8.lt_iff_toNat_lt,
      ← UInt8.toNat_inj, UInt8.toNat_ofNat'] <;>
    omega

theorem utf8_lt_of_lt {a b : List Char} (h : a < b) : utf8 a < utf8 b := by
  induction b generalizing a with
  | nil => exact absurd h (List.not_lt_nil a)
  | cons d b ih =>
      cases a with
      | nil =>
          obtain ⟨byte, rest, hbytes⟩ := List.exists_cons_of_ne_nil
            (String.utf8EncodeChar_ne_nil (c := d))
          rw [utf8_nil, utf8_cons, hbytes, List.cons_append]
          exact List.nil_lt_cons _ _
      | cons c a =>
          rw [utf8_cons, utf8_cons]
          rcases List.cons_lt_cons_iff.1 h with hlt | ⟨rfl, hlt⟩
          · exact encodeChar_append_lt hlt _ _
          · exact List.append_left_lt (ih hlt)

theorem sorted_mergeSort {α : Type} (text : α → String) (all : List α) :
    (all.mergeSort fun a b => decide (text a ≤ text b)).Pairwise fun a b => text a ≤ text b := by
  have htrans (a b c : α) (hab : decide (text a ≤ text b) = true)
      (hbc : decide (text b ≤ text c) = true) : decide (text a ≤ text c) = true :=
    decide_eq_true (String.le_trans (of_decide_eq_true hab) (of_decide_eq_true hbc))
  have htotal (a b : α) : (decide (text a ≤ text b) || decide (text b ≤ text a)) = true := by
    simpa using String.le_total (text a) (text b)
  exact (List.pairwise_mergeSort htrans htotal all).imp of_decide_eq_true

/-! ## Beginnings -/

theorem utf8_prefix_iff {start text : List Char} : utf8 start <+: utf8 text ↔ start <+: text := by
  constructor
  · rintro ⟨rest, hrest⟩
    refine List.isPrefix_of_utf8Encode_append_eq_utf8Encode rest.toByteArray ?_
    rw [List.utf8Encode, List.utf8Encode, ← List.toByteArray_append]
    exact congrArg List.toByteArray hrest
  · rintro ⟨rest, rfl⟩
    exact ⟨utf8 rest, by rw [utf8, utf8, utf8, List.flatMap_append]⟩

end Handoff.Text
