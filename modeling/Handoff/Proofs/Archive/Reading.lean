import Handoff.Proofs.Blob.LogKey
import Handoff.Proofs.Blob.Running
import Handoff.Proofs.Text.Decimal
/-!
# Reading logs

What the logs that are read for a unit say, in terms of what the store holds: there is a
log for a label as soon as one of its listed keys has a value, and each of its fields is
the value of its own key.
-/

namespace Handoff

namespace StringMap

variable {α : Type u}

theorem mem_entries_iff {map : StringMap α} {text : String} {value : α} :
    (text, value) ∈ map.entries ↔ map.get? text = some value := by
  constructor
  · intro h
    obtain ⟨before, after, hsplit⟩ := List.append_of_mem h
    have hnodup := map.nodup_keys
    rw [keys, hsplit, List.map_append, List.map_cons] at hnodup
    have hfresh : ∀ e ∈ before, text ≠ e.1 := fun e he heq =>
      (List.nodup_append.1 hnodup).2.2 e.1 (List.mem_map_of_mem he) text
        List.mem_cons_self heq.symm
    exact List.lookup_eq_some_iff.2 ⟨before, after, hsplit, fun e he => by simpa using hfresh e he⟩
  · intro h
    obtain ⟨before, after, hsplit, -⟩ := List.lookup_eq_some_iff.1 h
    rw [hsplit]
    simp

theorem mem_values {map : StringMap α} {value : α} :
    value ∈ map.values ↔ ∃ text, map.get? text = some value := by
  simp only [values, List.mem_map, ← mem_entries_iff]
  exact ⟨fun ⟨e, he, hvalue⟩ => ⟨e.1, hvalue ▸ he⟩, fun ⟨text, he⟩ => ⟨_, he, rfl⟩⟩

end StringMap

namespace Archive

/-! ## One field -/

/-- The field of `log` is what `content` says; without content it is missing. -/
def Reads (log : ArchivedLog) (content : Option ByteArray) : LogField → Prop
  | .exitCode => log.exitCode = content.bind fun bytes => exitCodeOfText? (Text.decodeLossy bytes)
  | .timedOut => log.timedOut = content.bind fun bytes => flagOfText? (Text.decodeLossy bytes)
  | .stdout => log.stdout = content
  | .stderr => log.stderr = content

theorem reads_blank (label : CommandLabel) (field : LogField) :
    Reads (ArchivedLog.blank label) none field := by
  cases field <;> rfl

theorem reads_withField_self (log : ArchivedLog) (content : ByteArray) (field : LogField) :
    Reads (withField log content field) (some content) field := by
  cases field <;> simp only [Reads, withField, Option.bind_some]

theorem reads_withField_of_ne {log : ArchivedLog} {content : ByteArray}
    {found : Option ByteArray} {field other : LogField} (hne : other ≠ field)
    (h : Reads log found other) : Reads (withField log content field) found other := by
  cases field <;> cases other <;>
    first | exact absurd rfl hne | simpa only [Reads, withField] using h

theorem label_withField (log : ArchivedLog) (content : ByteArray) (field : LogField) :
    (withField log content field).label = log.label := by
  cases field <;> simp only [withField]

theorem toRecord?_eq_some {log : ArchivedLog} {record : ExecutionRecord}
    (h : log.toRecord? = some record) :
    log.exitCode = some record.exitCode ∧ log.timedOut = some record.timedOut ∧
      log.stdout = some record.stdout ∧ log.stderr = some record.stderr := by
  obtain ⟨_, hexit, h⟩ := Option.bind_eq_some_iff.1 h
  obtain ⟨_, htimed, h⟩ := Option.bind_eq_some_iff.1 h
  obtain ⟨_, hout, h⟩ := Option.bind_eq_some_iff.1 h
  obtain ⟨_, herr, h⟩ := Option.bind_eq_some_iff.1 h
  cases h
  exact ⟨hexit, htimed, hout, herr⟩

theorem Reads.isSome {log : ArchivedLog} {content : Option ByteArray} {field : LogField}
    {record : ExecutionRecord} (h : Reads log content field)
    (hrecord : log.toRecord? = some record) : content.isSome := by
  obtain ⟨hexit, htimed, hout, herr⟩ := toRecord?_eq_some hrecord
  cases content with
  | some bytes => rfl
  | none => cases field <;> simp [Reads, hexit, htimed, hout, herr] at h

theorem Reads.fieldContent_eq {log : ArchivedLog} {field : LogField}
    {written record : ExecutionRecord} (h : Reads log (some (fieldContent written field)) field)
    (hrecord : log.toRecord? = some record) :
    fieldContent record field = fieldContent written field := by
  obtain ⟨hexit, htimed, hout, herr⟩ := toRecord?_eq_some hrecord
  cases field with
  | exitCode =>
      simp only [Reads, hexit, fieldContent, Option.bind_some, Text.decodeLossy_toUTF8,
        exitCodeOfText?_showInt32, Option.some.injEq] at h
      rw [fieldContent, fieldContent, h]
  | timedOut =>
      simp only [Reads, htimed, fieldContent, Option.bind_some, Text.decodeLossy_toUTF8,
        flagOfText?_flagText, Option.some.injEq] at h
      rw [fieldContent, fieldContent, h]
  | stdout => exact Option.some.inj (hout.symm.trans h)
  | stderr => exact Option.some.inj (herr.symm.trans h)

theorem toRecord?_of_reads {log : ArchivedLog} {record : ExecutionRecord}
    (h : ∀ field, Reads log (some (fieldContent record field)) field) :
    log.toRecord? = some record := by
  have hexit := h .exitCode
  have htimed := h .timedOut
  have hout := h .stdout
  have herr := h .stderr
  simp only [Reads, fieldContent, Option.bind_some, Text.decodeLossy_toUTF8,
    exitCodeOfText?_showInt32, flagOfText?_flagText] at hexit htimed hout herr
  simp [ArchivedLog.toRecord?, hexit, htimed, hout, herr]

theorem eq_of_fieldContent {a b : ExecutionRecord}
    (h : ∀ field, fieldContent a field = fieldContent b field) : a = b := by
  have hexit : some a.exitCode = some b.exitCode := by
    have htext := congrArg Text.decodeLossy (h .exitCode)
    simp only [fieldContent, Text.decodeLossy_toUTF8] at htext
    rw [← exitCodeOfText?_showInt32, htext, exitCodeOfText?_showInt32]
  have htimed : some a.timedOut = some b.timedOut := by
    have htext := congrArg Text.decodeLossy (h .timedOut)
    simp only [fieldContent, Text.decodeLossy_toUTF8] at htext
    rw [← flagOfText?_flagText, htext, flagOfText?_flagText]
  have hout : a.stdout = b.stdout := h .stdout
  have herr : a.stderr = b.stderr := h .stderr
  cases a
  cases b
  simp_all

/-! ## All listed keys -/

variable (id : WorkUnitId) (contents : Contents)

/-- The logs that a listing gives on a store with the given contents. -/
def gather : List BlobKey → StringMap ArchivedLog → StringMap ArchivedLog
  | [], logs => logs
  | key :: rest, logs =>
      match BlobKey.parseLog id key, contents key with
      | some (label, field), some content =>
          let log := (logs.get? label.text).getD (ArchivedLog.blank label)
          gather rest (logs.insert label.text (withField log content field))
      | _, _ => gather rest logs

/-- What is known of a key when the keys `seen` have been read. -/
def known (seen : List BlobKey) (key : BlobKey) : Option ByteArray :=
  if key ∈ seen then contents key else none

/-- What holds of the logs when the keys `seen` have been read. -/
structure Gathered (seen : List BlobKey) (logs : StringMap ArchivedLog) : Prop where
  /-- A log stands under the text of its label. -/
  named : ∀ {text log}, logs.get? text = some log → log.label.text = text
  /-- Every field is the value of its key. -/
  reads : ∀ {text log}, logs.get? text = some log → ∀ field,
    Reads log (known contents seen (BlobKey.log id log.label field)) field
  /-- There is a log for a label when one of its keys had a value. -/
  present : ∀ label, (logs.get? label.text).isSome ↔
    ∃ field, (known contents seen (BlobKey.log id label field)).isSome

variable {id contents} {seen : List BlobKey} {logs : StringMap ArchivedLog} {key : BlobKey}

theorem known_cons_of_ne {other : BlobKey} (h : other ≠ key) :
    known contents (key :: seen) other = known contents seen other := by
  simp [known, h]

@[simp] theorem known_cons_self : known contents (key :: seen) key = contents key := by
  simp [known]

theorem gathered_empty : Gathered id contents [] StringMap.empty where
  named h := by cases h
  reads h := by cases h
  present label := by simp [known]

namespace Gathered

theorem pass (h : Gathered id contents seen logs)
    (hkey : contents key = none ∨ ∀ label field, BlobKey.log id label field ≠ key) :
    Gathered id contents (key :: seen) logs := by
  have hknown (label : CommandLabel) (field : LogField) :
      known contents (key :: seen) (BlobKey.log id label field) =
        known contents seen (BlobKey.log id label field) := by
    by_cases heq : BlobKey.log id label field = key
    · rcases hkey with hnone | hno
      · rw [heq, known_cons_self, hnone]
        simp [known, hnone]
      · exact absurd heq (hno label field)
    · exact known_cons_of_ne heq
  exact {
    named := h.named
    reads := fun hlog field => by
      rw [hknown]
      exact h.reads hlog field
    present := fun label => by
      simp only [hknown]
      exact h.present label }

theorem getD_blank (h : Gathered id contents seen logs) (label : CommandLabel) :
    ((logs.get? label.text).getD (ArchivedLog.blank label)).label = label ∧
      ∀ field, Reads ((logs.get? label.text).getD (ArchivedLog.blank label))
        (known contents seen (BlobKey.log id label field)) field := by
  cases hfound : logs.get? label.text with
  | some log =>
      have hlabel : log.label = label := CommandLabel.text_injective (h.named hfound)
      exact ⟨hlabel, fun field => hlabel ▸ h.reads hfound field⟩
  | none =>
      refine ⟨rfl, fun field => ?_⟩
      have hnone : known contents seen (BlobKey.log id label field) = none := by
        by_contra hsome
        have := (h.present label).2 ⟨field, Option.isSome_iff_ne_none.2 hsome⟩
        simp [hfound] at this
      rw [hnone]
      exact reads_blank label field

theorem read {label : CommandLabel} {field : LogField} {content : ByteArray}
    (h : Gathered id contents seen logs) (hkey : key = BlobKey.log id label field)
    (hcontent : contents key = some content) :
    Gathered id contents (key :: seen) (logs.insert label.text
      (withField ((logs.get? label.text).getD (ArchivedLog.blank label)) content field)) := by
  obtain ⟨hlabel, hreads⟩ := h.getD_blank label
  have hcases {text : String} {log : ArchivedLog}
      (hlog : (logs.insert label.text (withField
        ((logs.get? label.text).getD (ArchivedLog.blank label)) content field)).get? text =
          some log) :
      text = label.text ∧ log = withField
          ((logs.get? label.text).getD (ArchivedLog.blank label)) content field ∨
        text ≠ label.text ∧ logs.get? text = some log := by
    rw [StringMap.get?_insert] at hlog
    split at hlog
    · next htext => exact .inl ⟨htext, (Option.some.inj hlog).symm⟩
    · next htext => exact .inr ⟨htext, hlog⟩
  refine ⟨fun hlog => ?_, fun hlog other => ?_, fun other => ?_⟩
  · rcases hcases hlog with ⟨rfl, rfl⟩ | ⟨-, hold⟩
    · rw [label_withField, hlabel]
    · exact h.named hold
  · rcases hcases hlog with ⟨rfl, rfl⟩ | ⟨htext, hold⟩
    · rw [label_withField, hlabel]
      by_cases hother : other = field
      · subst hother
        rw [← hkey, known_cons_self, hcontent]
        exact reads_withField_self _ content other
      · rw [known_cons_of_ne (by simp [hkey, hother])]
        exact reads_withField_of_ne hother (hreads other)
    · rw [known_cons_of_ne]
      · exact h.reads hold other
      · rw [hkey]
        intro heq
        exact htext ((h.named hold).symm.trans
          (congrArg CommandLabel.text (BlobKey.log_injective heq).1))
  · rw [StringMap.get?_insert]
    by_cases hother : other = label
    · subst hother
      rw [if_pos rfl]
      exact ⟨fun _ => ⟨field, by rw [← hkey, known_cons_self, hcontent]; rfl⟩, fun _ => rfl⟩
    · have htext : other.text ≠ label.text := fun htext =>
        hother (CommandLabel.text_injective htext)
      have hne (f : LogField) : BlobKey.log id other f ≠ key := by simp [hkey, hother]
      rw [if_neg htext, h.present other]
      simp only [known_cons_of_ne (hne _)]

end Gathered

/-- What holds of the logs when a whole listing has been read. -/
theorem gathered_gather (keys : List BlobKey) {seen : List BlobKey}
    {logs : StringMap ArchivedLog} (h : Gathered id contents seen logs) :
    Gathered id contents (keys.reverse ++ seen) (gather id contents keys logs) := by
  induction keys generalizing seen logs with
  | nil => exact h
  | cons key rest ih =>
      rw [List.reverse_cons, List.append_assoc, List.singleton_append]
      unfold gather
      split
      · next label field content hparse hcontent =>
        exact ih (h.read (BlobKey.eq_log_of_parseLog hparse) hcontent)
      · next hno =>
        refine ih (h.pass ?_)
        by_contra hkey
        rw [not_or] at hkey
        obtain ⟨content, hcontent⟩ := Option.ne_none_iff_exists'.1 hkey.1
        simp only [not_forall, not_not] at hkey
        obtain ⟨-, label, field, rfl⟩ := hkey
        exact hno label field content (BlobKey.parseLog_log id label field) hcontent

end Archive

/-! ## Runs -/

/-- Logs are gathered on a store that gives the contents under the listed keys, in whatever
states it comes to meanwhile. -/
theorem StoreModel.run_collect {σ : Type} {model : StoreModel σ} {contents : Contents}
    (tidy : σ → Prop) (id : WorkUnitId) {keys : List BlobKey}
    (hget : ∀ key ∈ keys, ∀ s, tidy s →
      ∃ t, model (.get key) s = (.ok (contents key), t) ∧ tidy t)
    (logs : StringMap ArchivedLog) {s : σ} (hs : tidy s) :
    ∃ t, model.run (Archive.collect id keys logs).run s =
      (.ok (Archive.gather id contents keys logs), t) ∧ tidy t := by
  induction keys generalizing logs s with
  | nil => exact ⟨s, rfl, hs⟩
  | cons key rest ih =>
      obtain ⟨hkey, hrest⟩ := List.forall_mem_cons.1 hget
      unfold Archive.collect Archive.gather
      cases hparse : BlobKey.parseLog id key with
      | none => exact ih hrest logs hs
      | some named =>
          dsimp only
          obtain ⟨t, hread, ht⟩ := hkey s hs
          rw [StoreModel.run_bind_ok ((StoreModel.run_storeCall _ s).trans hread)]
          cases contents key with
          | none => exact ih hrest logs ht
          | some content => exact ih hrest _ ht

namespace KeyValue

open Archive

variable {σ : Type} {model : StoreModel σ} (map : KeyValue model)
include map

theorem run_collect (id : WorkUnitId) (keys : List BlobKey) (logs : StringMap ArchivedLog)
    (s : σ) : model.run (collect id keys logs).run s =
      (.ok (gather id (map.contents s) keys logs), s) := by
  obtain ⟨t, hrun, rfl⟩ := StoreModel.run_collect (· = s) id (fun key _ t ht => by
    rw [ht]
    exact ⟨s, map.get_eq key s, rfl⟩) logs rfl
  exact hrun

/-- Logs are read exactly when the keys of the unit can be listed. -/
theorem run_fetchLogs (id : WorkUnitId) (s : σ) :
    (model.run (fetchLogs id).run s).1 =
      (model (.list (BlobKey.unitStart id)) s).1.map fun keys =>
        (gather id (map.contents s) keys StringMap.empty).values := by
  have hcontents : map.contents (model (.list (BlobKey.unitStart id)) s).2 = map.contents s :=
    map.contents_snd _ s
  unfold fetchLogs
  cases hlist : model (.list (BlobKey.unitStart id)) s with
  | mk listed t =>
      rw [hlist] at hcontents
      cases listed with
      | error fault =>
          rw [StoreModel.run_bind_error ((StoreModel.run_storeCall _ s).trans hlist)]
          rfl
      | ok keys =>
          rw [StoreModel.run_bind_ok ((StoreModel.run_storeCall _ s).trans hlist),
            StoreModel.run_bind_ok (map.run_collect id keys StringMap.empty t), hcontents]
          rfl

theorem gathered_of_fetchLogs {id : WorkUnitId} {s : σ} {logs : List ArchivedLog}
    (h : (model.run (fetchLogs id).run s).1 = .ok logs) :
    ∃ keys, (model (.list (BlobKey.unitStart id)) s).1 = .ok keys ∧
      ∃ gathered, Gathered id (map.contents s) keys.reverse gathered ∧ logs = gathered.values := by
  rw [map.run_fetchLogs] at h
  cases hlist : (model (.list (BlobKey.unitStart id)) s).1 with
  | error fault =>
      rw [hlist] at h
      cases h
  | ok keys =>
      rw [hlist] at h
      have hstart : Gathered id (map.contents s) [] StringMap.empty := gathered_empty
      have hend := gathered_gather keys hstart
      rw [List.append_nil] at hend
      exact ⟨keys, rfl, _, hend, (Except.ok.inj h).symm⟩

end KeyValue

end Handoff
