import Handoff.Proofs.Archive.Reading
import Handoff.Proofs.Archive.Writing
import Handoff.Proofs.Blob.Listing
import Handoff.Proofs.Blob.UnitKeys
import Handoff.Proofs.Round.Exchange
/-!
# What was archived reads back

Records and statuses are written to the archive in any order, for any units.  What is read
for a unit is one log for each label, in the order of the labels, with the record that was
last written for it, and the status that was last written.
-/

namespace Handoff

namespace Archive

inductive Entry where
  | record (id : WorkUnitId) (label : CommandLabel) (record : ExecutionRecord)
  | status (id : WorkUnitId) (status : Status)

namespace Entry

def put : Entry → StoreM Unit
  | .record id label found => putRecord id label found
  | .status id found => writeStatus id found

def recordOf? (id : WorkUnitId) (label : CommandLabel) : Entry → Option ExecutionRecord
  | .record unit name found => if unit = id ∧ name = label then some found else none
  | .status _ _ => none

def statusOf? (id : WorkUnitId) : Entry → Option Status
  | .record _ _ _ => none
  | .status unit found => if unit = id then some found else none

def content? (key : BlobKey) : Entry → Option ByteArray
  | .record id label found => do
      let (name, field) ← BlobKey.parseLog id key
      if name = label then some (fieldContent found field) else none
  | .status id found => if key = BlobKey.status id then some found.payload else none

theorem content?_log (id : WorkUnitId) (label : CommandLabel) (field : LogField) (entry : Entry) :
    entry.content? (BlobKey.log id label field) =
      (entry.recordOf? id label).map fun record => fieldContent record field := by
  cases entry with
  | status unit found => simp [content?, recordOf?]
  | record unit name found =>
      by_cases hunit : unit = id
      · subst hunit
        by_cases hname : name = label
        · simp [content?, recordOf?, BlobKey.parseLog_log, hname]
        · simp [content?, recordOf?, BlobKey.parseLog_log, hname, Ne.symm hname]
      · have hnone : BlobKey.parseLog unit (BlobKey.log id label field) = none := by
          by_contra hsome
          obtain ⟨⟨other, f⟩, hparse⟩ := Option.ne_none_iff_exists'.1 hsome
          exact hunit (BlobKey.log_unit (BlobKey.eq_log_of_parseLog hparse)).symm
        simp [content?, recordOf?, hnone, hunit]

theorem content?_status (id : WorkUnitId) (entry : Entry) :
    entry.content? (BlobKey.status id) = (entry.statusOf? id).map Status.payload := by
  cases entry with
  | record unit name found => simp [content?, statusOf?]
  | status unit found =>
      by_cases hunit : unit = id
      · simp [content?, statusOf?, hunit]
      · simp [content?, statusOf?, hunit, Ne.symm hunit]

theorem content?_isSome {entry : Entry} {key : BlobKey} (h : (entry.content? key).isSome) :
    (∃ id label record field, entry = .record id label record ∧ key = BlobKey.log id label field) ∨
      ∃ id status, entry = .status id status ∧ key = BlobKey.status id := by
  obtain ⟨content, hcontent⟩ := Option.isSome_iff_exists.1 h
  cases entry with
  | record id label record =>
      obtain ⟨⟨name, field⟩, hparse, hname⟩ := Option.bind_eq_some_iff.1 hcontent
      by_cases heq : name = label
      · subst heq
        exact .inl ⟨id, name, record, field, rfl, BlobKey.eq_log_of_parseLog hparse⟩
      · simp [heq] at hname
  | status id status =>
      by_cases hkey : key = BlobKey.status id
      · exact .inr ⟨id, status, rfl, hkey⟩
      · simp [content?, hkey] at hcontent

end Entry

def putAll : List Entry → StoreM Unit
  | [] => return
  | entry :: rest => do
      entry.put
      putAll rest

def lastRecord (entries : List Entry) (id : WorkUnitId) (label : CommandLabel) :
    Option ExecutionRecord :=
  (entries.filterMap (Entry.recordOf? id label)).getLast?

def lastStatus (entries : List Entry) (id : WorkUnitId) : Option Status :=
  (entries.filterMap (Entry.statusOf? id)).getLast?

/-- What was last put under a key. -/
def lastContent (entries : List Entry) (key : BlobKey) : Option ByteArray :=
  (entries.filterMap (Entry.content? key)).getLast?

theorem lastContent_cons (entry : Entry) (rest : List Entry) (key : BlobKey) :
    lastContent (entry :: rest) key = (lastContent rest key).or (entry.content? key) := by
  unfold lastContent
  cases h : entry.content? key with
  | none => rw [List.filterMap_cons_none h, Option.or_none]
  | some content =>
      rw [List.filterMap_cons_some h, List.getLast?_cons]
      cases (rest.filterMap (Entry.content? key)).getLast? <;> rfl

theorem exists_of_lastContent {entries : List Entry} {key : BlobKey}
    (h : (lastContent entries key).isSome) : ∃ entry ∈ entries, (entry.content? key).isSome := by
  obtain ⟨content, hcontent⟩ := Option.isSome_iff_exists.1 h
  obtain ⟨entry, hentry, hput⟩ := List.mem_filterMap.1 (List.mem_of_getLast? hcontent)
  exact ⟨entry, hentry, Option.isSome_of_eq_some hput⟩

theorem lastContent_log (entries : List Entry) (id : WorkUnitId) (label : CommandLabel)
    (field : LogField) : lastContent entries (BlobKey.log id label field) =
      (lastRecord entries id label).map fun record => fieldContent record field := by
  have hfun : Entry.content? (BlobKey.log id label field) =
      fun entry => (entry.recordOf? id label).map fun record => fieldContent record field :=
    funext (Entry.content?_log id label field)
  rw [lastContent, lastRecord, hfun, ← List.map_filterMap, List.getLast?_map]

theorem lastContent_status (entries : List Entry) (id : WorkUnitId) :
    lastContent entries (BlobKey.status id) = (lastStatus entries id).map Status.payload := by
  have hfun : Entry.content? (BlobKey.status id) =
      fun entry => (entry.statusOf? id).map Status.payload :=
    funext (Entry.content?_status id)
  rw [lastContent, lastStatus, hfun, ← List.map_filterMap, List.getLast?_map]

end Archive

open Archive

namespace KeyValue

variable {σ : Type} {model : StoreModel σ} (map : KeyValue model)
include map

theorem run_entry (entry : Entry) (s : σ) : ∃ t, model.run entry.put.run s = (.ok (), t) ∧
    ∀ key, map.contents t key = (entry.content? key).or (map.contents s key) := by
  cases entry with
  | record id label record =>
      obtain ⟨t, hrun, hset, hkept⟩ := map.run_putRecord id label record s
      refine ⟨t, hrun, fun key => ?_⟩
      cases hcontent : (Entry.record id label record).content? key with
      | none =>
          refine hkept key fun field hkey => ?_
          rw [hkey, Entry.content?_log] at hcontent
          simp [Entry.recordOf?] at hcontent
      | some content =>
          rcases Entry.content?_isSome (Option.isSome_of_eq_some hcontent) with
            ⟨_, _, _, field, hentry, rfl⟩ | ⟨_, _, hentry, -⟩
          · cases hentry
            rw [Entry.content?_log] at hcontent
            simpa [Entry.recordOf?, hset] using hcontent
          · cases hentry
  | status id status =>
      refine ⟨_, map.run_put (BlobKey.status id) status.payload s, fun key => ?_⟩
      rw [map.contents_snd, StoreCall.effect_put, Function.update_apply]
      by_cases hkey : key = BlobKey.status id <;> simp [Entry.content?, hkey]

/-- All entries are written, and each key holds what was put under it last. -/
theorem run_putAll (entries : List Entry) (s : σ) :
    ∃ t, model.run (putAll entries).run s = (.ok (), t) ∧
      ∀ key, map.contents t key = (lastContent entries key).or (map.contents s key) := by
  induction entries generalizing s with
  | nil => exact ⟨s, rfl, fun key => rfl⟩
  | cons entry rest ih =>
      obtain ⟨u, hput, hu⟩ := map.run_entry entry s
      obtain ⟨t, hrest, ht⟩ := ih u
      refine ⟨t, (StoreModel.run_bind_ok hput).trans hrest, fun key => ?_⟩
      rw [ht, hu, lastContent_cons, Option.or_assoc]

end KeyValue

namespace Archive

theorem Gathered.labels {id : WorkUnitId} {contents : Contents} {seen : List BlobKey}
    {logs : StringMap ArchivedLog} (h : Gathered id contents seen logs) :
    logs.values.map (fun log => log.label.text) = logs.keys := by
  rw [StringMap.values, StringMap.keys, List.map_map]
  exact List.map_congr_left fun e he => h.named (StringMap.mem_entries_iff.1 he)

/-- The logs that are gathered from all stored keys of a unit: one for each label with a value,
in the order of the labels, and with these values in their fields. -/
theorem gather_listed {id : WorkUnitId} {contents : Contents} {keys : List BlobKey}
    (hmem : ∀ key, key ∈ keys ↔ (contents key).isSome ∧
      MemoryStore.startsWith (BlobKey.unitStart id) key.text = true) :
    let logs := (gather id contents keys StringMap.empty).values
    (logs.map fun log => log.label.text).Pairwise (· < ·) ∧
      (∀ label, (∃ log ∈ logs, log.label = label) ↔
        ∃ field, (contents (BlobKey.log id label field)).isSome) ∧
      ∀ log ∈ logs, ∀ field, Reads log (contents (BlobKey.log id log.label field)) field := by
  intro logs
  have hgathered : Gathered id contents keys.reverse (gather id contents keys StringMap.empty) := by
    have hstart : Gathered id contents [] StringMap.empty := gathered_empty
    have hend := gathered_gather keys hstart
    rwa [List.append_nil] at hend
  -- Every log key with a value has been listed.
  have hknown (label : CommandLabel) (field : LogField) :
      known contents keys.reverse (BlobKey.log id label field) =
        contents (BlobKey.log id label field) := by
    cases hstored : contents (BlobKey.log id label field) with
    | none => simp [known, hstored]
    | some content =>
        have hlisted : BlobKey.log id label field ∈ keys.reverse :=
          List.mem_reverse.2 ((hmem _).2
            ⟨Option.isSome_of_eq_some hstored, BlobKey.startsWith_log id label field⟩)
        rw [known, if_pos hlisted, hstored]
  have hlabel {text : String} {log : ArchivedLog}
      (hget : (gather id contents keys StringMap.empty).get? text = some log)
      {label : CommandLabel} : log.label = label ↔ text = label.text := by
    rw [← hgathered.named hget]
    exact ⟨congrArg _, fun h => CommandLabel.text_injective h⟩
  refine ⟨?_, fun label => ?_, fun log hlog field => ?_⟩
  · rw [hgathered.labels]
    exact (gather id contents keys StringMap.empty).ascending
  · simp only [← hknown, ← hgathered.present label, logs, StringMap.mem_values]
    constructor
    · rintro ⟨log, ⟨text, hget⟩, hname⟩
      rw [← (hlabel hget).1 hname, hget]
      rfl
    · intro hsome
      obtain ⟨log, hget⟩ := Option.isSome_iff_exists.1 hsome
      exact ⟨log, ⟨_, hget⟩, (hlabel hget).2 rfl⟩
  · obtain ⟨text, hget⟩ := StringMap.mem_values.1 hlog
    rw [← hknown]
    exact hgathered.reads hget field

end Archive

namespace KeyValue

variable {σ : Type} {model : StoreModel σ} {map : KeyValue model}

theorem Lists.run_fetchLogs (lists : map.Lists) {id : WorkUnitId} {s : σ}
    (hvalid : ∀ key, (map.contents s key).isSome →
      MemoryStore.startsWith (BlobKey.unitStart id) key.text = true → key.Valid) :
    ∃ logs, (model.run (fetchLogs id).run s).1 = .ok logs ∧
      (logs.map fun log => log.label.text).Pairwise (· < ·) ∧
      (∀ label, (∃ log ∈ logs, log.label = label) ↔
        ∃ field, (map.contents s (BlobKey.log id label field)).isSome) ∧
      ∀ log ∈ logs, ∀ field, Reads log (map.contents s (BlobKey.log id log.label field)) field := by
  obtain ⟨keys, hkeys, hmem⟩ := lists _ s (BlobKey.nul_notMem_unitStart id) hvalid
  refine ⟨_, ?_, gather_listed hmem⟩
  rw [map.run_fetchLogs, hkeys]
  rfl

end KeyValue

namespace Archive

variable {σ : Type} {model : StoreModel σ}

/-- Writes to the archive, of any units and in any order, on a store that behaves as a map
and holds nothing of the unit at first.  When no label of the unit is too long for its keys,
its logs can be read: they are one for each of its labels, in the order of the labels, and
each gives the record that was last written for its label.  The status is the one that was
last written. -/
theorem reads_what_was_written {map : KeyValue model} (lists : map.Lists) {id : WorkUnitId}
    {entries : List Entry} {s : σ}
    (fresh : ∀ key, MemoryStore.startsWith (BlobKey.unitStart id) key.text = true →
      map.contents s key = none)
    (short : ∀ label record, Entry.record id label record ∈ entries → ∀ field,
      (BlobKey.log id label field).text.utf8ByteSize ≤ BlobKey.maxBytes) :
    ∃ t logs, model.run (putAll entries).run s = (.ok (), t) ∧
      (model.run (fetchLogs id).run t).1 = .ok logs ∧
      (logs.map fun log => log.label.text).Pairwise (· < ·) ∧
      (∀ label, (∃ log ∈ logs, log.label = label) ↔ (lastRecord entries id label).isSome) ∧
      (∀ log ∈ logs, log.toRecord? = lastRecord entries id log.label) ∧
      (model.run (readStatus id).run t).1 = .ok (lastStatus entries id) := by
  obtain ⟨t, hrun, hcontents⟩ := map.run_putAll entries s
  have hheld (key : BlobKey)
      (hkey : MemoryStore.startsWith (BlobKey.unitStart id) key.text = true) :
      map.contents t key = lastContent entries key := by
    rw [hcontents, fresh key hkey, Option.or_none]
  have hlog (label : CommandLabel) (field : LogField) :
      map.contents t (BlobKey.log id label field) =
        (lastRecord entries id label).map fun record => fieldContent record field := by
    rw [hheld _ (BlobKey.startsWith_log id label field), lastContent_log]
  have hvalid (key : BlobKey) (hsome : (map.contents t key).isSome)
      (hkey : MemoryStore.startsWith (BlobKey.unitStart id) key.text = true) : key.Valid := by
    rw [hheld key hkey] at hsome
    obtain ⟨entry, hentry, hput⟩ := exists_of_lastContent hsome
    rcases Entry.content?_isSome hput with
      ⟨unit, label, record, field, rfl, rfl⟩ | ⟨unit, status, rfl, rfl⟩
    · obtain rfl := BlobKey.unit_of_startsWith_log hkey
      exact BlobKey.valid_log_iff.2 (short label record hentry field)
    · exact BlobKey.valid_status unit
  obtain ⟨logs, hfetch, hsorted, hlabels, hreads⟩ := lists.run_fetchLogs hvalid
  have hnamed (label : CommandLabel) :
      (∃ log ∈ logs, log.label = label) ↔ (lastRecord entries id label).isSome := by
    simp only [hlabels, hlog, Option.isSome_map]
    exact ⟨fun ⟨_, h⟩ => h, fun h => ⟨.exitCode, h⟩⟩
  refine ⟨t, logs, hrun, hfetch, hsorted, hnamed, fun log hmem => ?_, ?_⟩
  · obtain ⟨record, hrecord⟩ :=
      Option.isSome_iff_exists.1 ((hnamed log.label).1 ⟨log, hmem, rfl⟩)
    rw [hrecord]
    refine toRecord?_of_reads fun field => ?_
    have hfield := hreads log hmem field
    rwa [hlog, hrecord] at hfield
  · rw [run_readStatus]
    change (statusOf <$> (model (.get (BlobKey.status id)) t).1 : Except StoreFault _) = _
    rw [map.get_eq, hheld _ (BlobKey.startsWith_status id), lastContent_status]
    cases lastStatus entries id with
    | none => rfl
    | some status => exact congrArg Except.ok (statusOf_payload status)

theorem weekly_sound : WorkUnitId.fault? "r7" = none := by decide

def weekly : WorkUnitId := ⟨"r7", weekly_sound⟩
def weeklyRetry : WorkUnitId := ⟨"r70", by decide⟩

def plainLabel : CommandLabel := ⟨"a", by decide⟩
def dashedLabel : CommandLabel := ⟨"a-b", by decide⟩

def quietRun : ExecutionRecord where
  exitCode := 1
  timedOut := false
  stdout := ByteArray.empty
  stderr := ByteArray.empty

def brokenRun : ExecutionRecord where
  exitCode := Int32.minValue
  timedOut := true
  stdout := ⟨#[0xff, 0x00]⟩
  stderr := ByteArray.empty

def mixedEntries : List Entry :=
  [.record weekly dashedLabel quietRun, .status weekly .passed, .record weekly plainLabel quietRun,
    .record weeklyRetry plainLabel quietRun, .record weekly plainLabel brokenRun,
    .status weekly .failed, .status weeklyRetry .passed]

theorem short_of_mixedEntries : ∀ label record,
    Entry.record weekly label record ∈ mixedEntries → ∀ field,
      (BlobKey.log weekly label field).text.utf8ByteSize ≤ BlobKey.maxBytes := by
  intro label record hentry field
  have hlabel : label = dashedLabel ∨ label = plainLabel := by
    simp only [mixedEntries, List.mem_cons, Entry.record.injEq, reduceCtorEq, List.not_mem_nil,
      or_false, false_or] at hentry
    rcases hentry with h | h | h | h
    · exact .inl h.2.1
    · exact .inr h.2.1
    · exact .inr h.2.1
    · exact .inr h.2.1
  rcases hlabel with rfl | rfl <;> cases field <;> decide

/-- On an empty store in memory the last record of a label and the last status are read
back. -/
theorem reads_what_was_written_on_mixed :
    ∃ t logs, MemoryStore.answer.run (putAll mixedEntries).run StringMap.empty = (.ok (), t) ∧
      (MemoryStore.answer.run (fetchLogs weekly).run t).1 = .ok logs ∧
      (logs.map fun log => log.label.text).Pairwise (· < ·) ∧
      (∃ log ∈ logs, log.label = plainLabel ∧ log.toRecord? = some brokenRun) ∧
      (∃ log ∈ logs, log.label = dashedLabel ∧ log.toRecord? = some quietRun) ∧
      (MemoryStore.answer.run (readStatus weekly).run t).1 = .ok (some .failed) := by
  have hplain : lastRecord mixedEntries weekly plainLabel = some brokenRun := by decide
  have hdashed : lastRecord mixedEntries weekly dashedLabel = some quietRun := by decide
  have hstatus : lastStatus mixedEntries weekly = some .failed := by decide
  have hfresh : ∀ key : BlobKey,
      MemoryStore.startsWith (BlobKey.unitStart weekly) key.text = true →
        MemoryStore.keyValue.contents StringMap.empty key = none := fun _ _ => rfl
  obtain ⟨t, logs, hrun, hfetch, hsorted, hlabels, hrecords, hread⟩ :=
    reads_what_was_written MemoryStore.listing.lists hfresh short_of_mixedEntries
  have hlog {label : CommandLabel} {record : ExecutionRecord}
      (hlast : lastRecord mixedEntries weekly label = some record) :
      ∃ log ∈ logs, log.label = label ∧ log.toRecord? = some record := by
    obtain ⟨log, hmem, hlabel⟩ := (hlabels label).2 (by rw [hlast]; rfl)
    exact ⟨log, hmem, hlabel, (hrecords log hmem).trans (hlabel ▸ hlast)⟩
  exact ⟨t, logs, hrun, hfetch, hsorted, hlog hplain, hlog hdashed,
    hread.trans (congrArg Except.ok hstatus)⟩

end Archive

end Handoff
