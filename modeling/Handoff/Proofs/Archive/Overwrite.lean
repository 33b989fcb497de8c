import Handoff.Proofs.Archive.Reading
import Handoff.Proofs.Archive.Writing
/-!
# Records archived over each other

A record is archived by four writes, and nothing is atomic across them.  When a label is
archived again and again, with calls that may stop between two writes, every field shows
the write of it that came last; the fields are those of one record when the last call that
wrote anything wrote everything.
-/

namespace Handoff

namespace Archive

/-- One call that archives a record, and what becomes of its writes. -/
structure Attempt where
  record : ExecutionRecord
  fates : List CallFate
  deriving DecidableEq

namespace Attempt

def written (attempt : Attempt) : List LogField :=
  reached writeOrder attempt.fates

def Complete (attempt : Attempt) : Prop :=
  attempt.written = writeOrder

instance (attempt : Attempt) : Decidable attempt.Complete :=
  inferInstanceAs (Decidable (_ = _))

end Attempt

/-- The last attempt that has written `field`. -/
def lastWriter (attempts : List Attempt) (field : LogField) : Option Attempt :=
  attempts.reverse.find? fun attempt => field ∈ attempt.written

/-- The last attempt that has written anything. -/
def lastEffective (attempts : List Attempt) : Option Attempt :=
  attempts.reverse.find? fun attempt => attempt.written ≠ []

variable {σ : Type} (model : StoreModel σ) (id : WorkUnitId) (label : CommandLabel)

/-- The store after some attempts to archive a record under the label, one after the
other. -/
def attempted (attempts : List Attempt) (s : σ) : σ :=
  attempts.foldl
    (fun s attempt => (model.endure (putRecord id label attempt.record).run attempt.fates s).2) s

/-! ## The last writer -/

theorem lastWriter_cons (attempt : Attempt) (rest : List Attempt) (field : LogField) :
    lastWriter (attempt :: rest) field = (lastWriter rest field).or
      (if field ∈ attempt.written then some attempt else none) := by
  rw [lastWriter, List.reverse_cons, List.find?_append, List.find?_singleton]
  simp [lastWriter]

/-- A complete attempt after which nothing was written is the last writer of each field. -/
theorem lastWriter_of_complete {attempts : List Attempt} {attempt : Attempt}
    (hlast : lastEffective attempts = some attempt) (hcomplete : attempt.Complete)
    (field : LogField) : lastWriter attempts field = some attempt := by
  obtain ⟨-, after, before, hsplit, hidle⟩ := List.find?_eq_some_iff_append.1 hlast
  refine List.find?_eq_some_iff_append.2 ⟨?_, after, before, hsplit, fun other hother => ?_⟩
  · rw [hcomplete]
    simpa using mem_writeOrder field
  · have hnone : other.written = [] := by simpa using hidle other hother
    simp [hnone]

end Archive

/-! ## What the attempts leave behind -/

namespace KeyValue

open Archive

variable {σ : Type} {model : StoreModel σ} (map : KeyValue model)
include map

/-- After all attempts a field holds what its last writer put. -/
theorem contents_attempted (id : WorkUnitId) (label : CommandLabel) (attempts : List Attempt)
    (s : σ) (field : LogField) :
    map.contents (attempted model id label attempts s) (BlobKey.log id label field) =
      ((lastWriter attempts field).map fun attempt => fieldContent attempt.record field).or
        (map.contents s (BlobKey.log id label field)) := by
  induction attempts generalizing s with
  | nil => rfl
  | cons attempt rest ih =>
      rw [attempted, List.foldl_cons, ← attempted, ih, lastWriter_cons, putRecord,
        map.contents_endure_putFields, ← Attempt.written]
      cases lastWriter rest field with
      | some later => rfl
      | none => by_cases hfield : field ∈ attempt.written <;> simp [hfield]

/-- The log that is read for a label, when it gives a record, holds in every field what the
store holds there. -/
theorem reads_of_fetchLogs {id : WorkUnitId} {s : σ} {logs : List ArchivedLog}
    {log : ArchivedLog} {record : ExecutionRecord}
    (hfetch : (model.run (fetchLogs id).run s).1 = .ok logs) (hlog : log ∈ logs)
    (hrecord : log.toRecord? = some record) (field : LogField) :
    Reads log (map.contents s (BlobKey.log id log.label field)) field := by
  obtain ⟨keys, -, gathered, hgathered, rfl⟩ := map.gathered_of_fetchLogs hfetch
  obtain ⟨text, hget⟩ := StringMap.mem_values.1 hlog
  have hreads := hgathered.reads hget field
  have hsome := hreads.isSome hrecord
  unfold known at hreads hsome
  split at hreads
  · exact hreads
  · next hunlisted => simp [hunlisted] at hsome

end KeyValue

/-! ## Reading what was archived again and again -/

namespace Archive

variable {σ : Type} {model : StoreModel σ}

/-- Take any attempts to archive records under one label, each of which may stop at any of
its writes, on any store that behaves as a map.  When the log that is read for the label
gives a record, each of its fields is the one that was written last, or the one that was
there before when no attempt wrote it; and when the last attempt that wrote anything wrote
everything, the record is the one of that attempt. -/
theorem record_of_last_writers (map : KeyValue model) {id : WorkUnitId} {label : CommandLabel}
    {attempts : List Attempt} {s : σ} {logs : List ArchivedLog} {log : ArchivedLog}
    {record : ExecutionRecord}
    (hfetch : (model.run (fetchLogs id).run (attempted model id label attempts s)).1 = .ok logs)
    (hlog : log ∈ logs) (hlabel : log.label = label) (hrecord : log.toRecord? = some record) :
    (∀ field attempt, lastWriter attempts field = some attempt →
        fieldContent record field = fieldContent attempt.record field) ∧
      (∀ field, lastWriter attempts field = none →
        Reads log (map.contents s (BlobKey.log id label field)) field) ∧
      ∀ attempt, lastEffective attempts = some attempt → attempt.Complete →
        attempt ∈ attempts ∧ record = attempt.record := by
  have hreads (field : LogField) := map.reads_of_fetchLogs hfetch hlog hrecord field
  simp only [hlabel, map.contents_attempted] at hreads
  have hwritten (field : LogField) (attempt : Attempt)
      (hlast : lastWriter attempts field = some attempt) :
      fieldContent record field = fieldContent attempt.record field := by
    have hfield := hreads field
    rw [hlast] at hfield
    exact hfield.fieldContent_eq hrecord
  refine ⟨hwritten, fun field hnone => ?_, fun attempt hlast hcomplete => ⟨?_, ?_⟩⟩
  · have hfield := hreads field
    rwa [hnone] at hfield
  · exact List.mem_reverse.1 (List.mem_of_find?_eq_some hlast)
  · exact eq_of_fieldContent fun field =>
      hwritten field attempt (lastWriter_of_complete hlast hcomplete field)

def nightly : WorkUnitId := ⟨"abc", by decide⟩

def makeLabel : CommandLabel := ⟨"make", by decide⟩

def firstRun : ExecutionRecord where
  exitCode := 1
  timedOut := false
  stdout := "one".toUTF8
  stderr := ByteArray.empty

def secondRun : ExecutionRecord where
  exitCode := 2
  timedOut := true
  stdout := "two".toUTF8
  stderr := ByteArray.empty

def brokenRepeat : List Attempt :=
  [⟨firstRun, []⟩, ⟨secondRun, [.served, .lost .poisoned]⟩]

def ofRecord (label : CommandLabel) (record : ExecutionRecord) : ArchivedLog where
  label
  exitCode := some record.exitCode
  timedOut := some record.timedOut
  stdout := some record.stdout
  stderr := some record.stderr

def readBack (attempts : List Attempt) : Except StoreFault (List ArchivedLog) :=
  (MemoryStore.answer.run (fetchLogs nightly).run
    (attempted MemoryStore.answer nightly makeLabel attempts StringMap.empty)).1

/-- When the first run is archived once more after the attempt that broke off, its record
is read as a whole. -/
theorem record_of_last_writers_after_repair :
    readBack (brokenRepeat ++ [⟨firstRun, []⟩]) = .ok [ofRecord makeLabel firstRun] ∧
      (∀ field attempt, lastWriter (brokenRepeat ++ [⟨firstRun, []⟩]) field = some attempt →
        fieldContent firstRun field = fieldContent attempt.record field) ∧
      ∀ attempt, lastEffective (brokenRepeat ++ [⟨firstRun, []⟩]) = some attempt →
        attempt.Complete →
        attempt ∈ brokenRepeat ++ [⟨firstRun, []⟩] ∧ firstRun = attempt.record := by
  have hfetch : readBack (brokenRepeat ++ [⟨firstRun, []⟩]) =
      .ok [ofRecord makeLabel firstRun] := by decide +kernel
  have h := record_of_last_writers MemoryStore.keyValue hfetch List.mem_cons_self
    (rfl : (ofRecord makeLabel firstRun).label = makeLabel)
    (rfl : (ofRecord makeLabel firstRun).toRecord? = some firstRun)
  exact ⟨hfetch, h.1, h.2.2⟩

/-- After the attempt that broke off, the record that is read has the exit code of the
second run and the rest of the first. -/
theorem mixed_record_after_break :
    ∃ log record, readBack brokenRepeat = .ok [log] ∧ log.label = makeLabel ∧
      log.toRecord? = some record ∧ ∀ attempt ∈ brokenRepeat, record ≠ attempt.record := by
  refine ⟨ofRecord makeLabel { firstRun with exitCode := 2 }, { firstRun with exitCode := 2 },
    ?_, rfl, rfl, ?_⟩
  · decide +kernel
  · decide

end Archive

end Handoff
