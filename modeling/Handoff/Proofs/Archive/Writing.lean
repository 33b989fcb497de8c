import Handoff.Archive
import Handoff.Proofs.Blob.LogKey
import Handoff.Proofs.Blob.Running
/-!
# Archiving a record

The writes of a record set the four fields of its label and nothing else, field by field,
and may break off between any two of them.
-/

namespace Handoff

namespace Archive

/-- The fields whose write takes effect when the writes have the given fates. -/
def reached : List LogField → List CallFate → List LogField
  | [], _ => []
  | fields, [] => fields
  | field :: rest, .served :: fates => field :: reached rest fates
  | _ :: _, .lost _ :: _ => []
  | field :: _, .hidden _ :: _ => [field]

theorem reached_nil (fields : List LogField) : reached fields [] = fields := by
  cases fields <;> rfl

theorem mem_writeOrder (field : LogField) : field ∈ writeOrder := by
  cases field <;> decide

end Archive

namespace KeyValue

open Archive

variable {σ : Type} {model : StoreModel σ} (map : KeyValue model)
include map

/-- What a field holds after a write of some fields that may break off. -/
theorem contents_endure_putFields (id : WorkUnitId) (label : CommandLabel)
    (record : ExecutionRecord) (fields : List LogField) (fates : List CallFate) (s : σ)
    (field : LogField) :
    map.contents (model.endure (putFields id label record fields).run fates s).2
        (BlobKey.log id label field) =
      if field ∈ reached fields fates then some (fieldContent record field)
      else map.contents s (BlobKey.log id label field) := by
  induction fields generalizing fates s with
  | nil => cases fates <;> rfl
  | cons first rest ih =>
      have hput : map.contents
          (model (.put (BlobKey.log id label first) (fieldContent record first)) s).2
            (BlobKey.log id label field) =
          if field = first then some (fieldContent record field)
          else map.contents s (BlobKey.log id label field) := by
        rw [map.contents_snd, StoreCall.effect_put, Function.update_apply]
        by_cases hfield : field = first
        · simp [hfield]
        · simp [hfield]
      have hanswer := map.put_eq (BlobKey.log id label first) (fieldContent record first) s
      unfold putFields
      match fates with
      | [] =>
          rw [StoreModel.endure_call_ok hanswer, ih [], hput, reached_nil, reached_nil]
          by_cases hfield : field = first <;> simp [hfield]
      | .served :: fates =>
          rw [StoreModel.endure_call_served fates hanswer, ih fates, hput]
          by_cases hfield : field = first <;> simp [hfield, reached]
      | .lost fault :: fates =>
          rw [StoreModel.endure_call_lost]
          simp [reached]
      | .hidden fault :: fates =>
          rw [StoreModel.endure_call_hidden, hput]
          simp [reached]

theorem contents_endure_putFields_of_ne {id : WorkUnitId} {label : CommandLabel}
    {key : BlobKey} (hkey : ∀ field, key ≠ BlobKey.log id label field)
    (record : ExecutionRecord) (fields : List LogField) (fates : List CallFate) (s : σ) :
    map.contents (model.endure (putFields id label record fields).run fates s).2 key =
      map.contents s key := by
  induction fields generalizing fates s with
  | nil => cases fates <;> rfl
  | cons first rest ih =>
      have hput : map.contents
          (model (.put (BlobKey.log id label first) (fieldContent record first)) s).2 key =
          map.contents s key := by
        rw [map.contents_snd, StoreCall.effect_put, Function.update_of_ne (hkey first)]
      have hanswer := map.put_eq (BlobKey.log id label first) (fieldContent record first) s
      unfold putFields
      match fates with
      | [] => rw [StoreModel.endure_call_ok hanswer, ih [], hput]
      | .served :: fates => rw [StoreModel.endure_call_served fates hanswer, ih fates, hput]
      | .lost fault :: fates => rw [StoreModel.endure_call_lost]
      | .hidden fault :: fates => rw [StoreModel.endure_call_hidden, hput]

theorem run_putFields (id : WorkUnitId) (label : CommandLabel) (record : ExecutionRecord)
    (fields : List LogField) (s : σ) :
    (model.run (putFields id label record fields).run s).1 = .ok () := by
  induction fields generalizing s with
  | nil => rfl
  | cons first rest ih =>
      unfold putFields
      rw [StoreModel.run_bind_ok (map.run_put _ _ s)]
      exact ih _

/-- On a sound store a record is archived: its four fields are set, and nothing else. -/
theorem run_putRecord (id : WorkUnitId) (label : CommandLabel) (record : ExecutionRecord)
    (s : σ) : ∃ t, model.run (putRecord id label record).run s = (.ok (), t) ∧
      (∀ field, map.contents t (BlobKey.log id label field) =
        some (fieldContent record field)) ∧
      ∀ key, (∀ field, key ≠ BlobKey.log id label field) →
        map.contents t key = map.contents s key := by
  refine ⟨_, Prod.ext (map.run_putFields id label record writeOrder s) rfl,
    fun field => ?_, fun key hkey => ?_⟩
  · rw [putRecord, ← StoreModel.endure_nil, map.contents_endure_putFields, reached_nil,
      if_pos (mem_writeOrder field)]
  · rw [putRecord, ← StoreModel.endure_nil, map.contents_endure_putFields_of_ne hkey]

end KeyValue

end Handoff
