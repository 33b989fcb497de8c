import Mathlib.Data.List.Infix
import Handoff.Proofs.Directory.Naming
/-!
# The slots of the layout

Whatever the program keeps has a slot: a signal, the status of a unit, or a field of an archived
command.  Different slots have different keys, and none of these stands above another, so that
files with the values of any slots fit into one directory tree.
-/

namespace Handoff

open FileTree (below)

inductive Slot where
  | signal (signal : Signal)
  | status (id : WorkUnitId)
  | log (id : WorkUnitId) (label : CommandLabel) (field : LogField)
  deriving DecidableEq

namespace Slot

def key : Slot → BlobKey
  | signal s => .signal s
  | status id => .status id
  | log id label field => .log id label field

theorem segments_signal (s : Signal) : (signal s).key.segments = [signalSegment, s.name] := by
  cases s <;> decide

theorem segments_status (id : WorkUnitId) :
    (status id).key.segments = [id.text, statusSegment] := by
  have hstatus : BlobKey.segmentsOf statusSegment = [statusSegment] := by decide
  rw [key, BlobKey.segments, BlobKey.status, BlobKey.unitStart, BlobKey.segmentsOf_append_slash,
    BlobKey.segmentsOf_of_slash_notMem id.slash_notMem, hstatus, List.singleton_append]

theorem segments_log (id : WorkUnitId) (label : CommandLabel) (field : LogField) :
    (log id label field).key.segments = [id.text, label.text, field.name] :=
  BlobKey.segmentsOf_log id label field

theorem key_injective : Function.Injective key := by
  intro a b h
  cases a <;> cases b <;> simp only [key, BlobKey.signal_inj, BlobKey.status_inj,
    BlobKey.status_ne_signal, BlobKey.signal_ne_status, BlobKey.log_ne_signal,
    BlobKey.signal_ne_log, BlobKey.log_ne_status, BlobKey.status_ne_log] at h
  case signal.signal => rw [h]
  case status.status => rw [h]
  case log.log id label field other label' field' =>
    obtain rfl := BlobKey.log_unit h
    obtain ⟨rfl, rfl⟩ := BlobKey.log_injective h
    rfl

theorem text_ne_signalSegment (id : WorkUnitId) : id.text ≠ signalSegment := fun h =>
  BlobKey.toList_ne_signalSegment id (congrArg String.toList h)

theorem text_ne_statusSegment (label : CommandLabel) : label.text ≠ statusSegment :=
  (CommandLabel.accepts_iff.1 label.accepted).2.2.2.1

/-- No key is the way to another one.  Signals are kept in a segment that is no id, and the
status of a unit under a name that is no label. -/
theorem eq_of_prefix {a b : Slot} (h : a.key.segments <+: b.key.segments) : a = b := by
  have same (hlength : a.key.segments.length = b.key.segments.length) : a = b :=
    key_injective (BlobKey.segments_injective (h.eq_of_length hlength))
  cases a with
  | signal s =>
      cases b with
      | signal other => exact same (by rw [segments_signal, segments_signal]; rfl)
      | status id => exact same (by rw [segments_signal, segments_status]; rfl)
      | log id label field =>
          rw [segments_signal, segments_log, List.cons_prefix_cons] at h
          exact absurd h.1.symm (text_ne_signalSegment id)
  | status id =>
      cases b with
      | signal s => exact same (by rw [segments_status, segments_signal]; rfl)
      | status other => exact same (by rw [segments_status, segments_status]; rfl)
      | log other label field =>
          rw [segments_status, segments_log, List.cons_prefix_cons, List.cons_prefix_cons] at h
          exact absurd h.2.1.symm (text_ne_statusSegment label)
  | log id label field =>
      have hlength := h.length_le
      cases b with
      | signal s => rw [segments_log, segments_signal] at hlength; simp at hlength
      | status other => rw [segments_log, segments_status] at hlength; simp at hlength
      | log other label' field' => exact same (by rw [segments_log, segments_log]; rfl)

/-- The text of a key with a slash after it starts no key. -/
theorem startsWith_slash (a b : Slot) :
    MemoryStore.startsWith (a.key.text ++ "/") b.key.text = false := by
  rw [Bool.eq_false_iff]
  intro h
  rw [MemoryStore.startsWith, List.isPrefixOf_iff_prefix] at h
  obtain ⟨rest, hrest⟩ := h
  have htext : b.key.text = a.key.text ++ "/" ++ String.ofList rest := by
    rw [← String.toList_inj, String.toList_append, String.toList_ofList, hrest]
  have hsegments : b.key.segments = a.key.segments ++ BlobKey.segmentsOf (String.ofList rest) := by
    rw [BlobKey.segments, htext, BlobKey.segmentsOf_append_slash, BlobKey.segments]
  obtain rfl := eq_of_prefix (hsegments ▸ List.prefix_append _ _)
  exact BlobKey.segmentsOf_ne_nil _ (List.self_eq_append_right.1 hsegments)

/-! ## A tree for any slots -/

section Tree

variable {slots : List Slot} {value : Slot → ByteArray}

/-- There is a file with its value for each slot, and the directories on the way are there. -/
structure HeldBy (tree : FileTree) (slots : List Slot) (value : Slot → ByteArray) : Prop where
  file : ∀ slot ∈ slots, ∃ id mode,
    tree.lookup (below [] slot.key.segments) = some (.file id (value slot) mode)
  folders : ∀ slot ∈ slots, ∀ names, names <+: slot.key.segments → names ≠ slot.key.segments →
    tree.lookup (below [] names) = some .directory

def files (slots : List Slot) (value : Slot → ByteArray) : List (Location × FileEntry) :=
  slots.zipIdx.map fun e =>
    (below [] e.1.key.segments, .file e.2 (value e.1) FileTree.plainMode)

def folders (slots : List Slot) : List (Location × FileEntry) :=
  slots.flatMap fun slot =>
    (slot.key.segments.inits.filter (· ≠ slot.key.segments)).map (below [] ·, .directory)

theorem mem_files {place : Location} {entry : FileEntry} (h : (place, entry) ∈ files slots value) :
    ∃ slot id, place = below [] slot.key.segments ∧
      entry = .file id (value slot) FileTree.plainMode := by
  obtain ⟨⟨slot, id⟩, -, heq⟩ := List.mem_map.1 h
  cases heq
  exact ⟨slot, id, rfl, rfl⟩

theorem exists_mem_files (value : Slot → ByteArray) {slot : Slot} (h : slot ∈ slots) :
    ∃ entry, (below [] slot.key.segments, entry) ∈ files slots value := by
  obtain ⟨place, hplace, rfl⟩ := List.getElem_of_mem h
  exact ⟨_, List.mem_map.2 ⟨_, List.mk_mem_zipIdx_iff_getElem?.2
    (List.getElem?_eq_getElem hplace), rfl⟩⟩

theorem mem_folders {place : Location} {entry : FileEntry} :
    (place, entry) ∈ folders slots ↔ ∃ slot ∈ slots, ∃ names, names <+: slot.key.segments ∧
      names ≠ slot.key.segments ∧ below [] names = place ∧ .directory = entry := by
  simp [folders, List.mem_inits, and_assoc]

def tree (slots : List Slot) (value : Slot → ByteArray) : FileTree :=
  ⟨files slots value ++ folders slots, slots.length⟩

theorem exists_lookup {tree : FileTree} {place : Location} (hplace : place ≠ [])
    {P : FileEntry → Prop} (hsome : ∃ entry, (place, entry) ∈ tree.entries)
    (hall : ∀ entry, (place, entry) ∈ tree.entries → P entry) :
    ∃ entry, tree.lookup place = some entry ∧ P entry := by
  rw [FileTree.lookup, if_neg hplace]
  cases hfound : tree.entries.lookup place with
  | none =>
      obtain ⟨entry, hmem⟩ := hsome
      have hnone := List.lookup_eq_none_iff.1 hfound _ hmem
      simp at hnone
  | some entry =>
      obtain ⟨before, after, hsplit, -⟩ := List.lookup_eq_some_iff.1 hfound
      exact ⟨entry, rfl, hall entry (by simp [hsplit])⟩

theorem lookup_tree_segments {slot : Slot} (h : slot ∈ slots) : ∃ id mode,
    (tree slots value).lookup (below [] slot.key.segments) =
      some (.file id (value slot) mode) := by
  have hall : ∀ entry, (below [] slot.key.segments, entry) ∈ (tree slots value).entries →
      ∃ id mode, entry = .file id (value slot) mode := by
    intro entry hmem
    rcases List.mem_append.1 hmem with hmem | hmem
    · obtain ⟨other, id, hplace, hentry⟩ := mem_files hmem
      obtain rfl := key_injective (BlobKey.segments_injective (FileTree.below_injective hplace))
      exact ⟨id, _, hentry⟩
    · obtain ⟨other, -, names, habove, hproper, hplace, -⟩ := mem_folders.1 hmem
      obtain rfl := FileTree.below_injective hplace
      obtain rfl := eq_of_prefix habove
      exact absurd rfl hproper
  obtain ⟨entry, hmem⟩ := exists_mem_files value h
  obtain ⟨_, hfound, id, mode, rfl⟩ := exists_lookup
    (FileTree.below_ne_nil [] slot.key.segments_ne_nil) ⟨entry, List.mem_append_left _ hmem⟩ hall
  exact ⟨id, mode, hfound⟩

theorem lookup_tree_names {slot : Slot} (h : slot ∈ slots) {names : List String}
    (habove : names <+: slot.key.segments) (hproper : names ≠ slot.key.segments) :
    (tree slots value).lookup (below [] names) = some .directory := by
  by_cases hnames : names = []
  · rw [hnames, FileTree.below_nil, FileTree.lookup, if_pos rfl]
  have hall : ∀ entry, (below [] names, entry) ∈ (tree slots value).entries →
      entry = .directory := by
    intro entry hmem
    rcases List.mem_append.1 hmem with hmem | hmem
    · obtain ⟨other, id, hplace, -⟩ := mem_files hmem
      obtain rfl := FileTree.below_injective hplace
      obtain rfl := eq_of_prefix habove
      exact absurd rfl hproper
    · obtain ⟨-, -, -, -, -, -, hentry⟩ := mem_folders.1 hmem
      exact hentry.symm
  have hmem : (below [] names, .directory) ∈ (tree slots value).entries :=
    List.mem_append_right _ (mem_folders.2 ⟨slot, h, names, habove, hproper, rfl, rfl⟩)
  obtain ⟨_, hfound, rfl⟩ := exists_lookup (FileTree.below_ne_nil [] hnames) ⟨_, hmem⟩ hall
  exact hfound

theorem heldBy_tree : HeldBy (tree slots value) slots value where
  file _ hslot := lookup_tree_segments hslot
  folders _ hslot _ habove hproper := lookup_tree_names hslot habove hproper

end Tree

/-- Keys of the layout are equal only if they are of the same slot, and none with a slash after
it starts another.  So a directory tree can hold the values of any slots at once. -/
theorem keys_without_conflicts :
    (∀ a b : Slot, (a.key = b.key ↔ a = b) ∧
      MemoryStore.startsWith (a.key.text ++ "/") b.key.text = false) ∧
    ∀ (slots : List Slot) (value : Slot → ByteArray), ∃ tree, HeldBy tree slots value :=
  ⟨fun a b => ⟨key_injective.eq_iff, startsWith_slash a b⟩, fun _ _ => ⟨_, heldBy_tree⟩⟩

end Slot

end Handoff
