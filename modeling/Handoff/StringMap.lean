/-!
# Maps with ordered string keys

A finite map as the list of its entries in strictly ascending key order.  Keys
compare code point by code point, which is also the order of their UTF-8 bytes.
-/

namespace Handoff

/-- A finite map from strings, kept in ascending order of its keys. -/
structure StringMap (α : Type u) where
  entries : List (String × α)
  ascending : (entries.map Prod.fst).Pairwise (· < ·)

namespace StringMap

variable {α : Type u} {β : Type v}

def insertEntry (key : String) (value : α) : List (String × α) → List (String × α)
  | [] => [(key, value)]
  | (k, v) :: rest =>
      if key < k then (key, value) :: (k, v) :: rest
      else if key = k then (key, value) :: rest
      else (k, v) :: insertEntry key value rest

theorem mem_keys_insertEntry {key x : String} {value : α} {entries : List (String × α)} :
    x ∈ (insertEntry key value entries).map Prod.fst ↔
      x = key ∨ x ∈ entries.map Prod.fst := by
  induction entries with
  | nil => simp [insertEntry]
  | cons e rest ih =>
    obtain ⟨k, v⟩ := e
    unfold insertEntry
    split
    · simp
    · split
      · next h => subst h; simp
      · simp only [List.map_cons, List.mem_cons, ih]
        exact or_left_comm

theorem ascending_insertEntry {key : String} {value : α} {entries : List (String × α)}
    (h : (entries.map Prod.fst).Pairwise (· < ·)) :
    ((insertEntry key value entries).map Prod.fst).Pairwise (· < ·) := by
  induction entries with
  | nil => simp [insertEntry]
  | cons e rest ih =>
    obtain ⟨k, v⟩ := e
    rw [List.map_cons, List.pairwise_cons] at h
    unfold insertEntry
    split
    · next hlt =>
      simp only [List.map_cons, List.pairwise_cons, List.mem_cons]
      exact ⟨fun y hy => hy.elim (fun e => e ▸ hlt) fun hy => String.lt_trans hlt (h.1 y hy), h⟩
    · next hlt =>
      split
      · next heq =>
        subst heq
        simpa using h
      · next hne =>
        simp only [List.map_cons, List.pairwise_cons]
        refine ⟨fun y hy => ?_, ih h.2⟩
        rcases mem_keys_insertEntry.1 hy with rfl | hy
        · exact Std.lt_of_le_of_ne (String.not_lt.1 hlt) (Ne.symm hne)
        · exact h.1 y hy

def empty : StringMap α := ⟨[], List.Pairwise.nil⟩

instance : Inhabited (StringMap α) := ⟨empty⟩

def get? (map : StringMap α) (key : String) : Option α :=
  map.entries.lookup key

def insert (map : StringMap α) (key : String) (value : α) : StringMap α :=
  ⟨insertEntry key value map.entries, ascending_insertEntry map.ascending⟩

def erase (map : StringMap α) (key : String) : StringMap α :=
  ⟨map.entries.filter fun e => e.1 != key,
    map.ascending.sublist (List.filter_sublist.map Prod.fst)⟩

def keys (map : StringMap α) : List String :=
  map.entries.map Prod.fst

def values (map : StringMap α) : List α :=
  map.entries.map Prod.snd

/-- The map of `pairs`, where a later pair replaces an earlier one of its key. -/
def ofList (pairs : List (String × α)) : StringMap α :=
  pairs.foldl (fun map e => map.insert e.1 e.2) empty

/-- The entries of both maps, those of `other` where both have a key. -/
def overlay (map other : StringMap α) : StringMap α :=
  other.entries.foldl (fun map e => map.insert e.1 e.2) map

theorem nodup_keys (map : StringMap α) : map.keys.Nodup := by
  refine List.Pairwise.imp (fun {a b} h heq => ?_) map.ascending
  subst heq
  exact String.lt_irrefl _ h

@[simp] theorem get?_empty (key : String) : (empty : StringMap α).get? key = none := rfl

theorem lookup_cons_pair (x k : String) (v : α) (rest : List (String × α)) :
    ((k, v) :: rest).lookup x = if x = k then some v else rest.lookup x := by
  by_cases h : x = k
  · subst h
    simp
  · have : (x == k) = false := by simp [h]
    rw [List.lookup_cons, this]
    simp [h]

theorem lookup_insertEntry (key x : String) (value : α) (entries : List (String × α)) :
    (insertEntry key value entries).lookup x =
      if x = key then some value else entries.lookup x := by
  induction entries with
  | nil => simp [insertEntry, lookup_cons_pair]
  | cons e rest ih =>
    obtain ⟨k, v⟩ := e
    unfold insertEntry
    split
    · simp [lookup_cons_pair]
    · split
      · next heq =>
        subst heq
        by_cases hx : x = key <;> simp [lookup_cons_pair, hx]
      · next hne =>
        rw [lookup_cons_pair, ih, lookup_cons_pair]
        by_cases hk : x = k
        · subst hk
          simp [Ne.symm hne]
        · simp [hk]

theorem get?_insert (map : StringMap α) (key x : String) (value : α) :
    (map.insert key value).get? x = if x = key then some value else map.get? x :=
  lookup_insertEntry key x value map.entries

theorem lookup_filter_ne (key x : String) (entries : List (String × α)) :
    (entries.filter fun e => e.1 != key).lookup x =
      if x = key then none else entries.lookup x := by
  induction entries with
  | nil => simp
  | cons e rest ih =>
    obtain ⟨k, v⟩ := e
    by_cases hk : k = key
    · subst hk
      rw [List.filter_cons_of_neg (by simp), ih, lookup_cons_pair]
      split <;> rfl
    · by_cases hx : x = key
      · subst hx
        simp [lookup_cons_pair, hk, ih, Ne.symm hk]
      · simp [lookup_cons_pair, hk, ih, hx]

theorem get?_erase (map : StringMap α) (key x : String) :
    (map.erase key).get? x = if x = key then none else map.get? x :=
  lookup_filter_ne key x map.entries

theorem get?_foldl_insert (pairs : List (String × α)) (map : StringMap α) (x : String) :
    (pairs.foldl (fun map e => map.insert e.1 e.2) map).get? x =
      (pairs.reverse.lookup x).or (map.get? x) := by
  induction pairs generalizing map with
  | nil => rfl
  | cons e rest ih =>
    rw [List.foldl_cons, ih, get?_insert, List.reverse_cons, List.lookup_append,
      lookup_cons_pair]
    split
    · rw [Option.or_assoc]
      rfl
    · rw [Option.or_assoc]
      rfl

theorem get?_ofList (pairs : List (String × α)) (x : String) :
    (ofList pairs).get? x = pairs.reverse.lookup x := by
  rw [ofList, get?_foldl_insert, get?_empty, Option.or_none]

theorem lookup_reverse {entries : List (String × α)} (h : (entries.map Prod.fst).Nodup)
    (x : String) : entries.reverse.lookup x = entries.lookup x := by
  induction entries with
  | nil => rfl
  | cons e rest ih =>
    obtain ⟨k, v⟩ := e
    rw [List.map_cons, List.nodup_cons] at h
    rw [List.reverse_cons, List.lookup_append, ih h.2, lookup_cons_pair, lookup_cons_pair]
    split
    · next heq =>
      subst heq
      have hnone : rest.lookup x = none := by
        refine List.lookup_eq_none_iff.2 fun e he => bne_iff_ne.2 fun heq => ?_
        exact h.1 (List.mem_map.2 ⟨e, he, heq.symm⟩)
      rw [hnone]
      rfl
    · exact Option.or_none

theorem get?_overlay (map other : StringMap α) (x : String) :
    (map.overlay other).get? x = (other.get? x).or (map.get? x) := by
  rw [overlay, get?_foldl_insert, lookup_reverse other.nodup_keys]
  rfl

end StringMap

end Handoff
