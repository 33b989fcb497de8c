import Mathlib.Data.List.Nodup
import Handoff.Proofs.Archive.RoundTrip
import Handoff.Proofs.Text.ByteOrder
import Handoff.Proofs.Text.Literal
/-!
# Reading any archive

Whatever is stored for a unit besides its logs, and whatever its fields hold, the logs that are
read are one for each label with a stored field, in the order of their bytes.  Each shows what its
own fields hold and nothing of the others.
-/

namespace Handoff

theorem ArchivedLog.toRecord?_isSome_iff {log : ArchivedLog} :
    log.toRecord?.isSome ↔
      log.exitCode.isSome ∧ log.timedOut.isSome ∧ log.stdout.isSome ∧ log.stderr.isSome := by
  obtain ⟨label, exitCode, timedOut, stdout, stderr⟩ := log
  cases exitCode <;> cases timedOut <;> cases stdout <;> cases stderr <;>
    simp [ArchivedLog.toRecord?]

namespace Archive

open Text (SpellsFlag SpellsInt decodeLossy trim utf8)

/-- There is one log for each label with a stored field, and they stand in the order of the bytes
of their labels. -/
structure OneForEach (contents : Contents) (id : WorkUnitId) (logs : List ArchivedLog) :
    Prop where
  ascending : logs.Pairwise fun a b => utf8 a.label.text.toList < utf8 b.label.text.toList
  one : ∀ label, (∃ field, (contents (.log id label field)).isSome) →
    ∃! log, log ∈ logs ∧ log.label = label
  stored : ∀ log ∈ logs, ∃ field, (contents (.log id log.label field)).isSome

/-- The log shows what is stored in the fields of its label. -/
structure Mirrors (contents : Contents) (id : WorkUnitId) (log : ArchivedLog) : Prop where
  exitCode : ∀ n, log.exitCode = some n ↔
    ∃ bytes, contents (.log id log.label .exitCode) = some bytes ∧
      SpellsInt (trim (decodeLossy bytes)).toList n.toInt
  timedOut : ∀ flag, log.timedOut = some flag ↔
    ∃ bytes, contents (.log id log.label .timedOut) = some bytes ∧
      SpellsFlag (trim (decodeLossy bytes)).toList flag
  stdout : log.stdout = contents (.log id log.label .stdout)
  stderr : log.stderr = contents (.log id log.label .stderr)
  record : log.toRecord?.isSome ↔
    log.exitCode.isSome ∧ log.timedOut.isSome ∧ log.stdout.isSome ∧ log.stderr.isSome

variable {contents : Contents} {id : WorkUnitId}

theorem mirrors_of_reads {log : ArchivedLog}
    (h : ∀ field, Reads log (contents (.log id log.label field)) field) :
    Mirrors contents id log where
  exitCode n := by
    rw [show log.exitCode = _ from h .exitCode, Option.bind_eq_some_iff]
    simp only [exitCodeOfText?_eq_some_iff]
  timedOut flag := by
    rw [show log.timedOut = _ from h .timedOut, Option.bind_eq_some_iff]
    simp only [flagOfText?_eq_some_iff]
  stdout := h .stdout
  stderr := h .stderr
  record := ArchivedLog.toRecord?_isSome_iff

theorem oneForEach_of_labels {logs : List ArchivedLog}
    (hsorted : (logs.map fun log => log.label.text).Pairwise (· < ·))
    (hlabels : ∀ label, (∃ log ∈ logs, log.label = label) ↔
      ∃ field, (contents (.log id label field)).isSome) : OneForEach contents id logs where
  ascending := (List.pairwise_map.1 hsorted).imp Text.utf8_lt_of_lt
  one label hstored := by
    have hdistinct : (logs.map fun log => log.label.text).Nodup :=
      hsorted.imp fun {a b} hlt (heq : a = b) => String.lt_irrefl _ (heq ▸ hlt)
    obtain ⟨log, hlog, hlabel⟩ := (hlabels label).2 hstored
    refine ⟨log, ⟨hlog, hlabel⟩, fun other ⟨hother, hname⟩ => ?_⟩
    exact List.inj_on_of_nodup_map hdistinct hother hlog (by rw [hname, hlabel])
  stored log hlog := (hlabels log.label).1 ⟨log, hlog, rfl⟩

variable {σ : Type} {model : StoreModel σ}

/-- On any store that behaves as a map and lists its keys, whose keys of the unit are valid
and otherwise arbitrary, with any contents, the logs of the unit can be read.  They are one for each
label with a stored field, in the order of the bytes of the labels, and show what these fields
hold. -/
theorem logs_mirror_fields {map : KeyValue model} (lists : map.Lists) {id : WorkUnitId} {s : σ}
    (valid : ∀ key, (map.contents s key).isSome →
      MemoryStore.startsWith (BlobKey.unitStart id) key.text = true → key.Valid) :
    ∃ logs, (model.run (fetchLogs id).run s).1 = .ok logs ∧
      OneForEach (map.contents s) id logs ∧ ∀ log ∈ logs, Mirrors (map.contents s) id log := by
  obtain ⟨logs, hfetch, hsorted, hlabels, hreads⟩ := lists.run_fetchLogs valid
  exact ⟨logs, hfetch, oneForEach_of_labels hsorted hlabels,
    fun log hlog => mirrors_of_reads (hreads log hlog)⟩

/-- Keys of the unit that are no logs, among those of two logs and of another unit, and fields
that are spelled loosely, garbled or missing. -/
def raggedArchive : StringMap ByteArray :=
  .ofList [("r7/a-b/exitcode", "12x".toUTF8), ("r7/a-b/stdout", ⟨#[0xff, 0x00]⟩),
    ("r7/a/b/stdout", .empty), ("r7/a/exitcode", " +007\n".toUTF8), ("r7/a/size", "3".toUTF8),
    ("r7/a/timed_out", "True\n".toUTF8), ("r7/status", "failed".toUTF8),
    ("r70/a/stderr", .empty)]

theorem valid_of_raggedArchive {key : BlobKey}
    (h : (MemoryStore.listing.contents raggedArchive key).isSome) : key.Valid := by
  have hvalid : ∀ e ∈ raggedArchive.entries, BlobKey.Valid ⟨e.1⟩ := by decide
  obtain ⟨content, hcontent⟩ := Option.isSome_iff_exists.1 h
  exact hvalid _ (StringMap.mem_entries_iff.2 hcontent)

/-- A numeral with a sign and zeros is read, and a flag in letters of both cases.  What is no number
is missing, and leaves the other log alone. -/
theorem logs_mirror_fields_on_ragged :
    ∃ logs, (MemoryStore.answer.run (fetchLogs weekly).run raggedArchive).1 = .ok logs ∧
      (∃ log ∈ logs, log.label = plainLabel ∧ log.exitCode = some 7 ∧ log.timedOut = some true ∧
        ¬log.toRecord?.isSome) ∧
      ∃ log ∈ logs, log.label = dashedLabel ∧ log.exitCode = none ∧
        log.stdout = some ⟨#[0xff, 0x00]⟩ := by
  have hvalid (key : BlobKey) (hstored : (MemoryStore.listing.contents raggedArchive key).isSome)
      (_ : MemoryStore.startsWith (BlobKey.unitStart weekly) key.text = true) : key.Valid :=
    valid_of_raggedArchive hstored
  obtain ⟨logs, hfetch, heach, hmirrors⟩ := logs_mirror_fields MemoryStore.listing.lists hvalid
  refine ⟨logs, hfetch, ?_, ?_⟩
  · obtain ⟨log, ⟨hlog, hlabel⟩, -⟩ := heach.one plainLabel ⟨.exitCode, by decide⟩
    have hshown := hmirrors log hlog
    have hstdout : log.stdout = none := by
      rw [hshown.stdout, hlabel]
      decide
    refine ⟨log, hlog, hlabel, (hshown.exitCode 7).2 ⟨" +007\n".toUTF8, ?_, ?_⟩,
      (hshown.timedOut true).2 ⟨"True\n".toUTF8, ?_, ?_⟩, fun hrecord => ?_⟩
    · rw [hlabel]
      decide
    · exact Text.intOfChars?_eq_some_iff.1 (by decide)
    · rw [hlabel]
      decide
    · exact Text.spellsFlag_iff.2 (by decide)
    · simpa [hstdout] using hshown.record.1 hrecord
  · obtain ⟨log, ⟨hlog, hlabel⟩, -⟩ := heach.one dashedLabel ⟨.stdout, by decide⟩
    have hshown := hmirrors log hlog
    refine ⟨log, hlog, hlabel, ?_, ?_⟩
    · by_contra hread
      obtain ⟨n, hn⟩ := Option.ne_none_iff_exists'.1 hread
      obtain ⟨bytes, hbytes, hspelled⟩ := (hshown.exitCode n).1 hn
      have hstored : MemoryStore.listing.contents raggedArchive
          (.log weekly dashedLabel .exitCode) = some "12x".toUTF8 := by decide
      rw [hlabel, hstored] at hbytes
      cases hbytes
      have hno : Text.intOfChars? (trim (decodeLossy "12x".toUTF8)).toList = none := by decide
      rw [Text.intOfChars?_eq_some_iff.2 hspelled] at hno
      cases hno
    · rw [hshown.stdout, hlabel]
      decide

end Archive

end Handoff
