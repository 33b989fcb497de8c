import Mathlib.Logic.Function.Basic
import Handoff.Blob.Table
/-!
# Stores that behave as a map

A store model is a map when each key has a value, the point calls read and set the
value of their own key, and none of them fails.  The store in memory and the store in
a table both are.
-/

namespace Handoff

abbrev Contents := BlobKey → Option ByteArray

namespace StoreCall

/-- What a call that takes effect leaves behind. -/
def effect : StoreCall → Contents → Contents
  | put key value, contents => Function.update contents key (some value)
  | delete key, contents => Function.update contents key none
  | _, contents => contents

@[simp] theorem effect_get (key : BlobKey) (contents : Contents) :
    (get key).effect contents = contents := rfl

@[simp] theorem effect_has (key : BlobKey) (contents : Contents) :
    (has key).effect contents = contents := rfl

@[simp] theorem effect_put (key : BlobKey) (value : ByteArray) (contents : Contents) :
    (put key value).effect contents = Function.update contents key (some value) := rfl

@[simp] theorem effect_delete (key : BlobKey) (contents : Contents) :
    (delete key).effect contents = Function.update contents key none := rfl

end StoreCall

/-- The model answers the point calls as a map from keys to values does, and a listing
changes nothing. -/
structure KeyValue {σ : Type} (model : StoreModel σ) where
  contents : σ → Contents
  get_eq : ∀ key s, model (.get key) s = (.ok (contents s key), s)
  has_eq : ∀ key s, model (.has key) s = (.ok (contents s key).isSome, s)
  put_fst : ∀ key value s, (model (.put key value) s).1 = .ok ()
  delete_fst : ∀ key s, (model (.delete key) s).1 = .ok ()
  contents_snd : ∀ call s, contents (model call s).2 = call.effect (contents s)

theorem contents_update {before after : String → Option ByteArray} {key : BlobKey}
    {value : Option ByteArray}
    (h : ∀ text, after text = if text = key.text then value else before text) :
    (fun k : BlobKey => after k.text) =
      Function.update (fun k : BlobKey => before k.text) key value := by
  funext k
  rw [h]
  by_cases hk : k = key
  · subst hk
    simp
  · have htext : k.text ≠ key.text := fun ht => hk (by cases k; cases key; simpa using ht)
    rw [if_neg htext, Function.update_of_ne hk]

/-! ## The store in memory -/

namespace MemoryStore

def keyValue : KeyValue answer where
  contents blobs key := blobs.get? key.text
  get_eq _ _ := rfl
  has_eq _ _ := rfl
  put_fst _ _ _ := rfl
  delete_fst _ _ := rfl
  contents_snd call blobs := by
    cases call with
    | get key => rfl
    | put key value => exact contents_update fun text => blobs.get?_insert key.text text value
    | delete key => exact contents_update fun text => blobs.get?_erase key.text text
    | has key => rfl
    | list start => rfl

end MemoryStore

/-! ## The store in a table -/

namespace BlobTable

theorem select_cons (row : BlobRow) (rows : BlobTable) (key : String) :
    select (row :: rows) key = if row.key = key then some row.value else select rows key := by
  by_cases h : row.key = key <;> simp [select, h]

theorem select_append (rows more : BlobTable) (key : String) :
    select (rows ++ more) key = (select rows key).or (select more key) := by
  induction rows with
  | nil => rfl
  | cons row rows ih =>
      rw [List.cons_append, select_cons, select_cons, ih]
      split <;> rfl

theorem select_eq_none_iff {rows : BlobTable} {key : String} :
    select rows key = none ↔ ∀ row ∈ rows, row.key ≠ key := by
  simp [select]

theorem select_set (rows : BlobTable) (key other : String) (value : ByteArray) :
    select (rows.map fun row => if row.key = key then { row with value } else row) other =
      if other = key then (select rows other).map fun _ => value else select rows other := by
  induction rows with
  | nil => simp [select]
  | cons row rows ih =>
      rw [List.map_cons, select_cons, select_cons, ih]
      by_cases hrow : row.key = key
      · by_cases hother : other = key
        · subst hother
          simp [hrow]
        · have hne : row.key ≠ other := fun h => hother (h.symm.trans hrow)
          simp [hrow, hother, Ne.symm hother]
      · by_cases hother : row.key = other
        · subst hother
          simp [hrow]
        · simp [hrow, hother]

theorem select_upsert (rows : BlobTable) (key other : String) (value : ByteArray) :
    select (rows.upsert key value) other =
      if other = key then some value else select rows other := by
  unfold upsert
  by_cases hany : (rows.any fun row => row.key = key) = true
  · rw [if_pos hany, select_set]
    by_cases hother : other = key
    · subst hother
      have hsome : select rows other ≠ none := by
        rw [Ne, select_eq_none_iff]
        simpa using hany
      obtain ⟨old, hold⟩ := Option.ne_none_iff_exists'.1 hsome
      simp [hold]
    · simp [hother]
  · rw [if_neg hany, select_append, select_cons]
    by_cases hother : other = key
    · subst hother
      have hnone : select rows other = none := select_eq_none_iff.2 (by simpa using hany)
      simp [hnone]
    · simp [hother, Ne.symm hother, select]

theorem select_remove (rows : BlobTable) (key other : String) :
    select (rows.remove key) other = if other = key then none else select rows other := by
  induction rows with
  | nil => simp [select, remove]
  | cons row rows ih =>
      by_cases hrow : row.key = key
      · have hdrop : remove (row :: rows) key = remove rows key := by simp [remove, hrow]
        rw [hdrop, ih, select_cons]
        by_cases hother : other = key
        · simp [hother]
        · rw [if_neg hother, if_neg hother, if_neg fun h => hother (h.symm.trans hrow)]
      · have hkeep : remove (row :: rows) key = row :: remove rows key := by
          simp [remove, hrow]
        rw [hkeep, select_cons, select_cons, ih]
        by_cases hother : row.key = other
        · subst hother
          simp [hrow]
        · simp [hother]

def keyValue : KeyValue answer where
  contents rows key := rows.select key.text
  get_eq _ _ := rfl
  has_eq _ _ := rfl
  put_fst _ _ _ := rfl
  delete_fst _ _ := rfl
  contents_snd call rows := by
    cases call with
    | get key => rfl
    | put key value => exact contents_update fun text => select_upsert rows key.text text value
    | delete key => exact contents_update fun text => select_remove rows key.text text
    | has key => rfl
    | list start => rfl

end BlobTable

end Handoff
