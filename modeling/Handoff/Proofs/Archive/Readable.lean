import Mathlib.Data.String.Basic
import Handoff.Proofs.Archive.Reading
import Handoff.Proofs.Archive.Writing
import Handoff.Proofs.Blob.Listing
import Handoff.Proofs.Blob.UnitKeys
/-!
# Archived commands that can be read back

The keys of archived logs are built without a check, and checked when they are listed.
One label that is too long for its keys makes all logs of its unit unreadable; without such
a label every archived command is read back.
-/

namespace Handoff

namespace BlobKey

/-- The longest field name has nine bytes, and two slashes stand in a log key. -/
theorem valid_logs_iff {id : WorkUnitId} {label : CommandLabel} :
    (∀ field, (BlobKey.log id label field).Valid) ↔
      id.text.utf8ByteSize + label.text.utf8ByteSize + 11 ≤ maxBytes := by
  have hsize (field : LogField) : (BlobKey.log id label field).text.utf8ByteSize =
      id.text.utf8ByteSize + 1 + label.text.utf8ByteSize + 1 + field.name.utf8ByteSize := by
    simp only [BlobKey.log, unitStart, String.utf8ByteSize_append]
    rfl
  simp only [valid_log_iff, hsize]
  constructor
  · intro h
    have hlongest : id.text.utf8ByteSize + 1 + label.text.utf8ByteSize + 1 + 9 ≤ maxBytes :=
      h .timedOut
    omega
  · intro h field
    have hname : field.name.utf8ByteSize ≤ 9 := by cases field <;> decide
    omega

end BlobKey

namespace Archive

/-- Archives failed commands under the labels of their argument vectors.  An empty vector
has no label. -/
def putFailures (id : WorkUnitId) : List (List String × ExecutionRecord) → StoreM Unit
  | [] => return
  | (argv, record) :: rest =>
      match CommandLabel.ofArgv argv with
      | none => putFailures id rest
      | some label => do
          putRecord id label record
          putFailures id rest

/-- `key` is one of the keys under which `failures` are archived. -/
def KeyOf (id : WorkUnitId) (failures : List (List String × ExecutionRecord)) (key : BlobKey) :
    Prop :=
  ∃ failure ∈ failures, ∃ label field,
    CommandLabel.ofArgv failure.1 = some label ∧ key = BlobKey.log id label field

end Archive

open Archive

namespace KeyValue

variable {σ : Type} {model : StoreModel σ} (map : KeyValue model)
include map

theorem run_putFailures (id : WorkUnitId) (failures : List (List String × ExecutionRecord))
    (s : σ) : ∃ t, model.run (putFailures id failures).run s = (.ok (), t) ∧
      ∀ key, (map.contents t key).isSome ↔
        (map.contents s key).isSome ∨ KeyOf id failures key := by
  induction failures generalizing s with
  | nil => exact ⟨s, rfl, by simp [KeyOf]⟩
  | cons failure rest ih =>
      obtain ⟨argv, record⟩ := failure
      unfold putFailures
      cases hlabel : CommandLabel.ofArgv argv with
      | none =>
          obtain ⟨t, hrun, ht⟩ := ih s
          exact ⟨t, hrun, fun key => by simp [ht, KeyOf, hlabel]⟩
      | some label =>
          obtain ⟨u, hput, hset, hkept⟩ := map.run_putRecord id label record s
          obtain ⟨t, hrun, ht⟩ := ih u
          refine ⟨t, (StoreModel.run_bind_ok hput).trans hrun, fun key => ?_⟩
          have hcons : KeyOf id ((argv, record) :: rest) key ↔
              (∃ field, key = BlobKey.log id label field) ∨ KeyOf id rest key := by
            simp [KeyOf, hlabel]
          rw [ht, hcons]
          by_cases hkey : ∃ field, key = BlobKey.log id label field
          · obtain ⟨field, rfl⟩ := hkey
            simp [hset]
          · rw [hkept key fun field heq => hkey ⟨field, heq⟩]
            simp [hkey]

theorem fetchLogs_ok_iff {id : WorkUnitId} {s : σ} :
    (∃ logs, (model.run (fetchLogs id).run s).1 = .ok logs) ↔
      ∃ keys, (model (.list (BlobKey.unitStart id)) s).1 = .ok keys := by
  rw [map.run_fetchLogs]
  cases (model (.list (BlobKey.unitStart id)) s).1 with
  | error fault => simp [Except.map]
  | ok keys => simp [Except.map]

end KeyValue

namespace Listing

variable {σ : Type} {model : StoreModel σ} (listing : Listing model)
include listing

theorem mem_fetchLogs {id : WorkUnitId} {label : CommandLabel} {field : LogField} {s : σ}
    {logs : List ArchivedLog} (hfetch : (model.run (fetchLogs id).run s).1 = .ok logs)
    (hstored : (listing.contents s (BlobKey.log id label field)).isSome) :
    ∃ log ∈ logs, log.label = label := by
  obtain ⟨keys, hlist, gathered, hgathered, rfl⟩ := listing.gathered_of_fetchLogs hfetch
  have hlisted : BlobKey.log id label field ∈ keys :=
    (listing.mem_of_list_ok (BlobKey.nul_notMem_unitStart id) hlist _).2
      ⟨hstored, BlobKey.startsWith_log id label field⟩
  have hknown : (known (listing.contents s) keys.reverse (BlobKey.log id label field)).isSome := by
    rw [known, if_pos (List.mem_reverse.2 hlisted)]
    exact hstored
  obtain ⟨log, hlog⟩ := Option.isSome_iff_exists.1 ((hgathered.present label).2 ⟨field, hknown⟩)
  refine ⟨log, StringMap.mem_values.2 ⟨_, hlog⟩, ?_⟩
  exact CommandLabel.text_injective (hgathered.named hlog)

end Listing

namespace Archive

variable {σ : Type} {model : StoreModel σ}

/-- Failed commands with any argument vectors are archived on any store that lists its keys,
and every write is answered well.  The logs of the unit can be read afterwards exactly when
the keys that the unit had before are valid and no label is too long for its keys; and
whenever they are read, each of the labels has its log. -/
theorem archived_readable_iff (listing : Listing model) (id : WorkUnitId)
    (failures : List (List String × ExecutionRecord)) (s : σ) :
    ∃ t, model.run (putFailures id failures).run s = (.ok (), t) ∧
      ((∃ logs, (model.run (fetchLogs id).run t).1 = .ok logs) ↔
        (∀ key, (listing.contents s key).isSome →
          MemoryStore.startsWith (BlobKey.unitStart id) key.text = true → key.Valid) ∧
        ∀ failure ∈ failures, ∀ label, CommandLabel.ofArgv failure.1 = some label →
          id.text.utf8ByteSize + label.text.utf8ByteSize + 11 ≤ BlobKey.maxBytes) ∧
      ∀ logs, (model.run (fetchLogs id).run t).1 = .ok logs →
        ∀ failure ∈ failures, ∀ label, CommandLabel.ofArgv failure.1 = some label →
          ∃ log ∈ logs, log.label = label := by
  obtain ⟨t, hrun, ht⟩ := listing.run_putFailures id failures s
  refine ⟨t, hrun, ?_, fun logs hfetch failure hfailure label hlabel => ?_⟩
  · rw [listing.fetchLogs_ok_iff, listing.list_ok_iff (BlobKey.nul_notMem_unitStart id)]
    simp only [ht]
    constructor
    · intro hvalid
      refine ⟨fun key hkey => hvalid key (.inl hkey), fun failure hfailure label hlabel => ?_⟩
      refine BlobKey.valid_logs_iff.1 fun field => ?_
      exact hvalid _ (.inr ⟨failure, hfailure, label, field, hlabel, rfl⟩)
        (BlobKey.startsWith_log id label field)
    · rintro ⟨hbefore, hlength⟩ key (hkey | ⟨failure, hfailure, label, field, hlabel, rfl⟩) hstart
      · exact hbefore key hkey hstart
      · exact BlobKey.valid_logs_iff.2 (hlength failure hfailure label hlabel) field
  · have hstored : (listing.contents t (BlobKey.log id label .exitCode)).isSome :=
      (ht _).2 (.inr ⟨failure, hfailure, label, .exitCode, hlabel, rfl⟩)
    exact listing.mem_fetchLogs hfetch hstored

def release : WorkUnitId := ⟨"r7", by decide⟩

def silentFailure : ExecutionRecord where
  exitCode := 1
  timedOut := false
  stdout := ByteArray.empty
  stderr := ByteArray.empty

def shortFailure : List String × ExecutionRecord :=
  (["make", "all"], silentFailure)

def longFailure : List String × ExecutionRecord :=
  ([String.ofList (List.replicate 1100 'x')], silentFailure)

/-- On an empty store in memory, and in an empty table, a short command is read back. -/
theorem archived_readable_iff_on_short :
    (∃ t, MemoryStore.answer.run (putFailures release [shortFailure]).run StringMap.empty =
        (.ok (), t) ∧
      ∃ logs, (MemoryStore.answer.run (fetchLogs release).run t).1 = .ok logs ∧
        ∃ log ∈ logs, log.label.text = "make_all") ∧
    ∃ t, BlobTable.answer.run (putFailures release [shortFailure]).run [] = (.ok (), t) ∧
      ∃ logs, (BlobTable.answer.run (fetchLogs release).run t).1 = .ok logs ∧
        ∃ log ∈ logs, log.label.text = "make_all" := by
  have hlabel : CommandLabel.ofArgv shortFailure.1 = some ⟨"make_all", by decide⟩ := by
    decide +kernel
  have hshort : ∀ failure ∈ [shortFailure], ∀ label,
      CommandLabel.ofArgv failure.1 = some label →
        release.text.utf8ByteSize + label.text.utf8ByteSize + 11 ≤ BlobKey.maxBytes := by
    intro failure hfailure label h
    rw [List.mem_singleton.1 hfailure, hlabel] at h
    cases h
    decide
  constructor
  · obtain ⟨t, hrun, hiff, hread⟩ := archived_readable_iff MemoryStore.listing release
      [shortFailure] StringMap.empty
    obtain ⟨logs, hfetch⟩ := hiff.2 ⟨fun key hkey => (by cases hkey), hshort⟩
    obtain ⟨log, hlog, heq⟩ := hread logs hfetch _ List.mem_cons_self _ hlabel
    exact ⟨t, hrun, logs, hfetch, log, hlog, by rw [heq]⟩
  · obtain ⟨t, hrun, hiff, hread⟩ := archived_readable_iff BlobTable.listing release
      [shortFailure] []
    obtain ⟨logs, hfetch⟩ := hiff.2 ⟨fun key hkey => (by cases hkey), hshort⟩
    obtain ⟨log, hlog, heq⟩ := hread logs hfetch _ List.mem_cons_self _ hlabel
    exact ⟨t, hrun, logs, hfetch, log, hlog, by rw [heq]⟩

theorem utf8ByteSize_replicate (n : Nat) :
    (String.ofList (List.replicate n 'x')).utf8ByteSize = n := by
  rw [String.utf8ByteSize_ofList]
  induction n with
  | zero => rfl
  | succ n ih =>
      rw [List.replicate_succ, String.utf8Len_cons, ih]
      rfl

theorem ofArgv_replicate {n : Nat} (hn : 6 < n) :
    ∃ label, CommandLabel.ofArgv [String.ofList (List.replicate n 'x')] = some label ∧
      label.text = String.ofList (List.replicate n 'x') := by
  refine ⟨_, rfl, ?_⟩
  have hne {name : List Char} (hname : name.length ≤ 6) : List.replicate n 'x' ≠ name := by
    rintro rfl
    rw [List.length_replicate] at hname
    omega
  have hplain : CommandLabel.sanitize 'x' = 'x' := by decide
  simp only [String.intercalate_singleton, String.toList_ofList, List.map_replicate, hplain]
  rw [CommandLabel.repair, if_neg (hne (by decide)), if_neg (hne (by decide)),
    if_neg (hne (by decide)), if_neg (hne (by decide))]

/-- One command with a long argument hides the logs of every other. -/
theorem long_label_unreadable :
    (MemoryStore.answer.run (putFailures release [shortFailure, longFailure]).run
        StringMap.empty).1 = .ok () ∧
      ¬ ∃ logs, (MemoryStore.answer.run (fetchLogs release).run
        (MemoryStore.answer.run (putFailures release [shortFailure, longFailure]).run
          StringMap.empty).2).1 = .ok logs := by
  obtain ⟨t, hrun, ht⟩ := MemoryStore.listing.run_putFailures release
    [shortFailure, longFailure] StringMap.empty
  obtain ⟨label, hlabel, htext⟩ := ofArgv_replicate (n := 1100) (by decide)
  rw [hrun]
  refine ⟨rfl, ?_⟩
  rw [MemoryStore.keyValue.fetchLogs_ok_iff,
    MemoryStore.listing.list_ok_iff (BlobKey.nul_notMem_unitStart release)]
  intro hvalid
  have hlength := BlobKey.valid_logs_iff.1 fun field =>
    hvalid (BlobKey.log release label field)
      ((ht _).2 (.inr ⟨longFailure, by simp, label, field, hlabel, rfl⟩))
      (BlobKey.startsWith_log release label field)
  rw [htext, utf8ByteSize_replicate] at hlength
  exact absurd hlength (by decide)

end Archive

end Handoff
