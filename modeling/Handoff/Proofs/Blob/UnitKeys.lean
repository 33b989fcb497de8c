import Handoff.Blob.Memory
import Handoff.Proofs.Blob.LogKey
/-!
# The keys of a unit

Status and log keys say whose they are, so a listing for a unit finds its own keys and no
others.  The status key is always valid.
-/

namespace Handoff

namespace BlobKey

theorem nul_notMem_unitStart (id : WorkUnitId) : '\x00' ∉ (unitStart id).toList := by
  rw [toList_unitStart]
  intro h
  rcases List.mem_append.1 h with h | h
  · have hcontrol := ((WorkUnitId.fault?_eq_none_iff.1 id.sound).2.2.2 _ h).2.1
    exact absurd hcontrol (by decide)
  · exact absurd h (by decide)

theorem startsWith_log (id : WorkUnitId) (label : CommandLabel) (field : LogField) :
    MemoryStore.startsWith (unitStart id) (BlobKey.log id label field).text = true := by
  rw [MemoryStore.startsWith, List.isPrefixOf_iff_prefix, toList_log_eq]
  exact List.prefix_append _ _

theorem log_unit {id other : WorkUnitId} {a b : CommandLabel} {f g : LogField}
    (h : BlobKey.log id a f = BlobKey.log other b g) : id = other := by
  have hlist := congrArg (fun key => key.text.toList) h
  simp only [toList_log] at hlist
  have htext := (append_slash_inj id.slash_notMem other.slash_notMem hlist).1
  exact WorkUnitId.text_injective (String.toList_injective htext)

theorem unit_of_parseLog {id other : WorkUnitId} {key : BlobKey}
    (h : (parseLog id key).isSome) (hother : (parseLog other key).isSome) : id = other := by
  obtain ⟨⟨label, field⟩, hread⟩ := Option.isSome_iff_exists.1 h
  obtain ⟨⟨name, part⟩, hagain⟩ := Option.isSome_iff_exists.1 hother
  have hkey := parseLog_eq_some_iff.1 hread
  rw [parseLog_eq_some_iff.1 hagain] at hkey
  exact (log_unit hkey).symm

theorem parseLog_eq_none {id : WorkUnitId} {key : BlobKey}
    (h : ∀ label field, key ≠ BlobKey.log id label field) : parseLog id key = none := by
  by_contra hsome
  obtain ⟨⟨label, field⟩, hread⟩ := Option.ne_none_iff_exists'.1 hsome
  exact h label field (parseLog_eq_some_iff.1 hread)

@[simp] theorem parseLog_status (id other : WorkUnitId) : parseLog id (status other) = none :=
  parseLog_eq_none fun label field => status_ne_log id other label field

@[simp] theorem parseLog_signal (id : WorkUnitId) (s : Signal) : parseLog id (signal s) = none :=
  parseLog_eq_none fun label field => signal_ne_log id label field s

/-- Writing a log key and reading it are inverse to each other: a log key reads as its label and
field, and what reads as a label and a field is their log key.  No key is read as a log key of
two units, and those of statuses and signals are not read as one of any unit. -/
theorem log_keys_read_back :
    (∀ id label field, parseLog id (BlobKey.log id label field) = some (label, field)) ∧
    (∀ id key label field, parseLog id key = some (label, field) →
      BlobKey.log id label field = key) ∧
    (∀ id other key, (parseLog id key).isSome → (parseLog other key).isSome → id = other) ∧
    ∀ id, (∀ other, parseLog id (status other) = none) ∧ ∀ s, parseLog id (signal s) = none :=
  ⟨parseLog_log, fun _ _ _ _ h => (eq_log_of_parseLog h).symm, fun _ _ _ => unit_of_parseLog,
    fun id => ⟨parseLog_status id, parseLog_signal id⟩⟩

theorem plainUnit_sound : WorkUnitId.fault? "r7" = none := by decide

def plainUnit : WorkUnitId := ⟨"r7", plainUnit_sound⟩
def fieldLabel : CommandLabel := ⟨"stdout", by decide⟩

/-- A label with the name of a field is told from the field. -/
theorem log_keys_read_back_on_field_name :
    parseLog plainUnit ⟨"r7/stdout/stderr"⟩ = some (fieldLabel, .stderr) ∧
      BlobKey.log plainUnit fieldLabel .stderr = ⟨"r7/stdout/stderr"⟩ ∧
      ∀ other, (parseLog other ⟨"r7/stdout/stderr"⟩).isSome → plainUnit = other := by
  obtain ⟨-, hwritten, hunit, -⟩ := log_keys_read_back
  have hread : parseLog plainUnit ⟨"r7/stdout/stderr"⟩ = some (fieldLabel, .stderr) := by decide
  exact ⟨hread, hwritten _ _ _ _ hread,
    fun other hother => hunit _ _ _ (Option.isSome_of_eq_some hread) hother⟩

/-- A key that starts like those of a unit has the text of its id up to the first slash. -/
theorem startsWith_unitStart_iff {id : WorkUnitId} {text rest : List Char} (htext : '/' ∉ text) :
    (unitStart id).toList.isPrefixOf (text ++ '/' :: rest) = true ↔ text = id.text.toList := by
  rw [List.isPrefixOf_iff_prefix, toList_unitStart]
  constructor
  · rintro ⟨more, hmore⟩
    rw [List.append_assoc] at hmore
    exact (append_slash_inj id.slash_notMem htext hmore).1.symm
  · rintro rfl
    exact ⟨rest, by simp⟩

theorem unit_of_startsWith_log {id other : WorkUnitId} {label : CommandLabel} {field : LogField}
    (h : MemoryStore.startsWith (unitStart id) (BlobKey.log other label field).text = true) :
    other = id := by
  rw [MemoryStore.startsWith, toList_log, startsWith_unitStart_iff other.slash_notMem] at h
  exact WorkUnitId.text_injective (String.toList_injective h)

theorem size_status (id : WorkUnitId) :
    (BlobKey.status id).text.utf8ByteSize = id.text.utf8ByteSize + 1 + 6 := by
  simp only [BlobKey.status, unitStart, String.utf8ByteSize_append]
  rfl

theorem valid_status (id : WorkUnitId) : (BlobKey.status id).Valid := by
  obtain ⟨-, hlength, -, hchars⟩ := WorkUnitId.fault?_eq_none_iff.1 id.sound
  have hempty : (BlobKey.status id).text ≠ "" := by
    intro h
    have hlist := congrArg String.toList h
    rw [toList_status] at hlist
    simp at hlist
  have hsize : ¬ maxBytes < (BlobKey.status id).text.utf8ByteSize := by
    have hsum := size_status id
    have hbounds : WorkUnitId.maxBytes + 7 ≤ maxBytes := by decide
    omega
  have hcontrol : (BlobKey.status id).text.toList.any Text.isControl = false := by
    rw [toList_status, List.any_append, Bool.or_eq_false_iff]
    refine ⟨List.any_eq_false.2 fun c hc => ?_, by decide⟩
    simp [(hchars c hc).2.1]
  have hsegments : segmentsOf (BlobKey.status id).text = [id.text, statusSegment] := by
    rw [segmentsOf, toList_status, List.splitOn_append_cons_self,
      List.splitOn_eq_singleton id.slash_notMem, List.splitOn_eq_singleton (by decide)]
    simp
  have hstatus : segmentFault? statusSegment = none := by decide
  rw [Valid, fault?, if_neg hempty, if_neg hsize, hcontrol, hsegments]
  simp [segmentFault?_id, hstatus]

theorem startsWith_status (id : WorkUnitId) :
    MemoryStore.startsWith (unitStart id) (BlobKey.status id).text = true := by
  rw [MemoryStore.startsWith, toList_status, startsWith_unitStart_iff id.slash_notMem]

end BlobKey

end Handoff
