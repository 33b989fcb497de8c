import Mathlib.Data.List.Basic
import Handoff.Proofs.Blob.Layout
import Handoff.Proofs.Labels
/-!
# Log keys

A log key says which label and field it is for, and reads back as these.  It keeps every
rule of a blob key but one: nothing bounds its length.
-/

namespace Handoff

namespace LogField

theorem slash_notMem (field : LogField) : '/' ∉ field.name.toList := by
  cases field <;> decide

theorem ofName?_eq_some {name : String} {field : LogField} (h : ofName? name = some field) :
    field.name = name := by
  have := List.find?_some h
  simpa using this

end LogField

namespace BlobKey

/-! ## Reading a log key back -/

theorem splitLast?_eq_some {text before after : List Char}
    (h : splitLast? text = some (before, after)) : text = before ++ '/' :: after := by
  induction text generalizing before with
  | nil => cases h
  | cons c rest ih =>
      unfold splitLast? at h
      split at h
      · next front back hrest =>
        cases h
        rw [ih hrest]
        rfl
      · split at h
        · next hc =>
          cases h
          rw [hc]
          rfl
        · cases h

theorem splitLast?_eq_none {text : List Char} (h : '/' ∉ text) : splitLast? text = none := by
  induction text with
  | nil => rfl
  | cons c rest ih =>
      rw [List.mem_cons, not_or] at h
      rw [splitLast?, ih h.2]
      exact if_neg (Ne.symm h.1)

theorem splitLast?_append {before after : List Char} (h : '/' ∉ after) :
    splitLast? (before ++ '/' :: after) = some (before, after) := by
  induction before with
  | nil => rw [List.nil_append, splitLast?, splitLast?_eq_none h, if_pos rfl]
  | cons c rest ih => rw [List.cons_append, splitLast?, ih]

theorem toList_unitStart (id : WorkUnitId) :
    (unitStart id).toList = id.text.toList ++ ['/'] := by
  simp [unitStart]

theorem toList_log_eq (id : WorkUnitId) (label : CommandLabel) (field : LogField) :
    (BlobKey.log id label field).text.toList =
      (unitStart id).toList ++ (label.text.toList ++ '/' :: field.name.toList) := by
  simp [BlobKey.log]

theorem parseLog_log (id : WorkUnitId) (label : CommandLabel) (field : LogField) :
    parseLog id (BlobKey.log id label field) = some (label, field) := by
  have hrest : (unitStart id).toList.isPrefixOf? (BlobKey.log id label field).text.toList =
      some (label.text.toList ++ '/' :: field.name.toList) :=
    List.isPrefixOf?_eq_some_iff_append_eq.2 (toList_log_eq id label field).symm
  simp [parseLog, hrest, splitLast?_append field.slash_notMem, LogField.ofName?_name,
    CommandLabel.ofText?_text]

theorem eq_log_of_parseLog {id : WorkUnitId} {key : BlobKey} {label : CommandLabel}
    {field : LogField} (h : parseLog id key = some (label, field)) :
    key = BlobKey.log id label field := by
  unfold parseLog at h
  obtain ⟨rest, hrest, h⟩ := Option.bind_eq_some_iff.1 h
  obtain ⟨⟨front, back⟩, hsplit, h⟩ := Option.bind_eq_some_iff.1 h
  dsimp only at h
  obtain ⟨_, hfield, h⟩ := Option.bind_eq_some_iff.1 h
  obtain ⟨_, hlabel, h⟩ := Option.bind_eq_some_iff.1 h
  obtain ⟨hlabels, hfields⟩ := Prod.mk.inj (Option.some.inj h)
  rw [hlabels] at hlabel
  rw [hfields] at hfield
  have htext := List.isPrefixOf?_eq_some_iff_append_eq.1 hrest
  have hfront : label.text.toList = front := by
    rw [CommandLabel.ofText?_eq_some_iff.1 hlabel, String.toList_ofList]
  have hback : field.name.toList = back := by
    rw [LogField.ofName?_eq_some hfield, String.toList_ofList]
  have hkey : key.text = (BlobKey.log id label field).text := by
    apply String.toList_injective
    rw [toList_log_eq, hfront, hback, ← splitLast?_eq_some hsplit, htext]
  exact congrArg BlobKey.mk hkey

theorem parseLog_eq_some_iff {id : WorkUnitId} {key : BlobKey} {label : CommandLabel}
    {field : LogField} :
    parseLog id key = some (label, field) ↔ key = BlobKey.log id label field :=
  ⟨eq_log_of_parseLog, fun h => h ▸ parseLog_log id label field⟩

theorem log_injective {id : WorkUnitId} {a b : CommandLabel} {f g : LogField}
    (h : BlobKey.log id a f = BlobKey.log id b g) : a = b ∧ f = g := by
  have hparse := parseLog_log id a f
  rw [h, parseLog_log] at hparse
  simpa using hparse.symm

@[simp] theorem log_inj {id : WorkUnitId} {a b : CommandLabel} {f g : LogField} :
    BlobKey.log id a f = BlobKey.log id b g ↔ a = b ∧ f = g :=
  ⟨log_injective, fun h => by rw [h.1, h.2]⟩

/-! ## The rules of a log key -/

theorem segmentsOf_log (id : WorkUnitId) (label : CommandLabel) (field : LogField) :
    segmentsOf (BlobKey.log id label field).text = [id.text, label.text, field.name] := by
  rw [segmentsOf, toList_log, List.splitOn_append_cons_self, List.splitOn_append_cons_self,
    List.splitOn_eq_singleton id.slash_notMem, List.splitOn_eq_singleton label.slash_notMem,
    List.splitOn_eq_singleton field.slash_notMem]
  simp

theorem segmentFault?_id (id : WorkUnitId) : segmentFault? id.text = none := by
  obtain ⟨hempty, -, ⟨-, hdot, hdots⟩, -⟩ := WorkUnitId.fault?_eq_none_iff.1 id.sound
  simp [segmentFault?, hempty, hdot, hdots]

theorem segmentFault?_label (label : CommandLabel) : segmentFault? label.text = none := by
  obtain ⟨hempty, hdot, hdots, -⟩ := CommandLabel.accepts_iff.1 label.accepted
  simp [segmentFault?, hempty, hdot, hdots]

theorem isControl_log {id : WorkUnitId} {label : CommandLabel} {field : LogField} :
    ∀ c ∈ (BlobKey.log id label field).text.toList, Text.isControl c = false := by
  obtain ⟨-, -, -, hid⟩ := WorkUnitId.fault?_eq_none_iff.1 id.sound
  obtain ⟨-, -, -, -, hlabel⟩ := CommandLabel.accepts_iff.1 label.accepted
  have hfield : field.name.toList.any Text.isControl = false := by
    cases field <;> rfl
  rw [toList_log]
  intro c hc
  rcases List.mem_append.1 hc with hc | hc
  · exact (hid c hc).2.1
  rcases List.mem_cons.1 hc with rfl | hc
  · decide
  rcases List.mem_append.1 hc with hc | hc
  · exact (hlabel c hc).2
  rcases List.mem_cons.1 hc with rfl | hc
  · decide
  · simpa using List.any_eq_false.1 hfield c hc

theorem fault?_log (id : WorkUnitId) (label : CommandLabel) (field : LogField) :
    fault? (BlobKey.log id label field).text =
      if maxBytes < (BlobKey.log id label field).text.utf8ByteSize then some .tooLong
      else none := by
  have hempty : (BlobKey.log id label field).text ≠ "" := by
    intro h
    have hlist := congrArg String.toList h
    rw [toList_log] at hlist
    simp at hlist
  have hcontrol : (BlobKey.log id label field).text.toList.any Text.isControl = false := by
    simpa using isControl_log
  have hfield : segmentFault? field.name = none := by cases field <;> decide
  rw [fault?, if_neg hempty, hcontrol, segmentsOf_log]
  simp [segmentFault?_id, segmentFault?_label, hfield]

/-- A log key is valid exactly when it is not too long. -/
theorem valid_log_iff {id : WorkUnitId} {label : CommandLabel} {field : LogField} :
    (BlobKey.log id label field).Valid ↔
      (BlobKey.log id label field).text.utf8ByteSize ≤ maxBytes := by
  rw [Valid, fault?_log]
  simp

end BlobKey

end Handoff
