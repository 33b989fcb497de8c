import Handoff.Text.CharClass
/-!
# Work unit ids

The opaque name of one round of work.  It is used verbatim as the first segment of
blob keys, so it holds no slash, no blank and no control character.
-/

namespace Handoff

inductive IdFault where
  | empty
  | tooLong
  | slash
  | blank
  | control
  | reserved
  deriving DecidableEq, Repr

def IdFault.message : IdFault → String
  | empty => "work unit id must not be empty"
  | tooLong => "work unit id is too long"
  | slash => "work unit id must not contain '/'"
  | blank => "work unit id must not contain whitespace"
  | control => "work unit id contains control characters"
  | reserved => "work unit id is reserved ('magic', '.' or '..')"

def signalSegment : String := "magic"

namespace WorkUnitId

def maxBytes : Nat := 256

def fault? (text : String) : Option IdFault :=
  if text = "" then some .empty
  else if maxBytes < text.utf8ByteSize then some .tooLong
  else if text = signalSegment ∨ text = "." ∨ text = ".." then some .reserved
  else if text.toList.contains '/' then some .slash
  else if text.toList.any Text.isControl then some .control
  else if text.toList.any Text.isBlank then some .blank
  else none

end WorkUnitId

structure WorkUnitId where
  text : String
  sound : WorkUnitId.fault? text = none
  deriving DecidableEq

namespace WorkUnitId

instance : ToString WorkUnitId := ⟨WorkUnitId.text⟩

/-- Reads an id; blanks around it do not count. -/
def ofText (raw : String) : Except IdFault WorkUnitId :=
  let text := Text.trim raw
  match h : fault? text with
  | none => .ok ⟨text, h⟩
  | some fault => .error fault

/-- Ids compare like their texts, code point by code point. -/
def compare (a b : WorkUnitId) : Ordering :=
  if a.text < b.text then .lt else if a.text = b.text then .eq else .gt

theorem fault?_eq_none_iff {text : String} :
    fault? text = none ↔
      text ≠ "" ∧ text.utf8ByteSize ≤ maxBytes ∧
        (text ≠ signalSegment ∧ text ≠ "." ∧ text ≠ "..") ∧
        ∀ c ∈ text.toList, c ≠ '/' ∧ Text.isControl c = false ∧ Text.isBlank c = false := by
  unfold fault?
  constructor
  · intro h
    split at h <;> try contradiction
    split at h <;> try contradiction
    split at h <;> try contradiction
    split at h <;> try contradiction
    split at h <;> try contradiction
    split at h <;> try contradiction
    next h1 h2 h3 h4 h5 h6 =>
      rw [not_or, not_or] at h3
      refine ⟨h1, Nat.not_lt.1 h2, h3, fun c hc => ⟨?_, ?_, ?_⟩⟩
      · rintro rfl
        exact h4 (List.contains_iff_mem.2 hc)
      · exact Bool.eq_false_iff.2 fun hx => h5 (List.any_eq_true.2 ⟨c, hc, hx⟩)
      · exact Bool.eq_false_iff.2 fun hx => h6 (List.any_eq_true.2 ⟨c, hc, hx⟩)
  · rintro ⟨h1, h2, h3, h4⟩
    rw [if_neg h1, if_neg (Nat.not_lt.2 h2), if_neg (by simpa using h3), if_neg, if_neg, if_neg]
    · simp only [List.any_eq_true, not_exists, not_and]
      exact fun c hc => by simp [(h4 c hc).2.2]
    · simp only [List.any_eq_true, not_exists, not_and]
      exact fun c hc => by simp [(h4 c hc).2.1]
    · rw [List.contains_iff_mem]
      exact fun hc => (h4 _ hc).1 rfl

theorem slash_notMem (id : WorkUnitId) : '/' ∉ id.text.toList := fun h =>
  ((fault?_eq_none_iff.1 id.sound).2.2.2 _ h).1 rfl

theorem ofText_text (id : WorkUnitId) : ofText id.text = .ok id := by
  have htrim : Text.trim id.text = id.text :=
    Text.trim_of_forall fun c hc => ((fault?_eq_none_iff.1 id.sound).2.2.2 c hc).2.2
  unfold ofText
  dsimp only
  split
  · next h =>
    congr
  · next fault h =>
    rw [htrim, id.sound] at h
    contradiction

end WorkUnitId

end Handoff
