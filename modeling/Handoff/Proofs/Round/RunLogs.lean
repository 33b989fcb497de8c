import Mathlib.Data.List.Dedup
import Mathlib.Data.List.Perm.Basic
import Handoff.Proofs.Archive.RoundTrip
import Handoff.Proofs.Round.Effect
/-!
# The logs of a run

A run archives the record of every command that fails, under its label.  The archive has one place
for each label, so two commands with one label share it, and the record of the first is lost.
-/

namespace Handoff

namespace Failures

variable {failures : Failures} {label : CommandLabel} {record : ExecutionRecord}

theorem last?_isSome_iff : (failures.last? label).isSome ↔ label ∈ failures.map Prod.fst := by
  induction failures with
  | nil => simp [last?]
  | cons failure rest ih =>
      obtain ⟨name, record⟩ := failure
      rw [last?_cons, List.map_cons, List.mem_cons, ← ih]
      by_cases hname : label = name <;> simp [hname]

theorem last?_of_mem (hdistinct : (failures.map Prod.fst).Nodup)
    (hmem : (label, record) ∈ failures) : failures.last? label = some record := by
  induction failures with
  | nil => cases hmem
  | cons failure rest ih =>
      obtain ⟨name, first⟩ := failure
      rw [List.map_cons, List.nodup_cons] at hdistinct
      rw [last?_cons]
      rcases List.mem_cons.1 hmem with heq | hrest
      · cases heq
        have hnone : Failures.last? rest label = none := by
          rw [← Option.not_isSome_iff_eq_none, last?_isSome_iff]
          exact hdistinct.1
        rw [hnone, Option.none_or, if_pos rfl]
      · rw [ih hdistinct.2 hrest, Option.some_or]

end Failures

namespace Archive

variable {failures : Failures} {logs : List ArchivedLog}

/-- The logs are one for each label that has failed, with the record of its last failure. -/
structure LastOfEach (failures : Failures) (logs : List ArchivedLog) : Prop where
  sorted : (logs.map fun log => log.label.text).Pairwise (· < ·)
  labels : ∀ label, (∃ log ∈ logs, log.label = label) ↔ label ∈ failures.map Prod.fst
  records : ∀ log ∈ logs, log.toRecord? = failures.last? log.label

/-- There is a log for each failure, and all the records are there. -/
def ShowsAll (failures : Failures) (logs : List ArchivedLog) : Prop :=
  logs.length = failures.length ∧
    (logs.map ArchivedLog.toRecord?).Perm (failures.map fun failure => some failure.2)

theorem LastOfEach.perm (h : LastOfEach failures logs) :
    (logs.map ArchivedLog.label).Perm (failures.map Prod.fst).dedup := by
  have hdistinct : (logs.map ArchivedLog.label).Nodup := by
    have htexts : ((logs.map ArchivedLog.label).map CommandLabel.text).Nodup := by
      rw [List.map_map]
      refine h.sorted.imp fun {a b} hlt heq => ?_
      subst heq
      exact String.lt_irrefl _ hlt
    exact List.Nodup.of_map _ htexts
  rw [List.perm_ext_iff_of_nodup hdistinct (List.nodup_dedup _)]
  intro label
  rw [List.mem_dedup, ← h.labels, List.mem_map]

/-- All records are there exactly when no label has failed twice. -/
theorem LastOfEach.showsAll_iff (h : LastOfEach failures logs) :
    ShowsAll failures logs ↔ (failures.map Prod.fst).Nodup := by
  constructor
  · rintro ⟨hlength, -⟩
    have hsame := h.perm.length_eq
    rw [List.length_map, hlength, ← List.length_map (f := Prod.fst)] at hsame
    exact List.dedup_eq_self.1 ((List.dedup_sublist _).eq_of_length hsame.symm)
  · intro hdistinct
    have hperm := h.perm
    rw [List.dedup_eq_self.2 hdistinct] at hperm
    refine ⟨by simpa using hperm.length_eq, ?_⟩
    have hlogs : logs.map ArchivedLog.toRecord? =
        (logs.map ArchivedLog.label).map failures.last? := by
      rw [List.map_map]
      exact List.map_congr_left h.records
    have hfailures : (failures.map Prod.fst).map failures.last? =
        failures.map fun failure => some failure.2 := by
      rw [List.map_map]
      exact List.map_congr_left fun failure hmem => Failures.last?_of_mem hdistinct hmem
    rw [hlogs, ← hfailures]
    exact hperm.map _

end Archive

namespace Facilities

open Archive (LastOfEach ShowsAll fetchLogs)

variable {σ ω : Type} {facilities : Facilities σ ω} {map : KeyValue facilities.store}

theorem fetch_logged (lists : map.Lists) {id : WorkUnitId} {failures : Failures} {before after : σ}
    (fresh : ∀ key, MemoryStore.startsWith (BlobKey.unitStart id) key.text = true →
      map.contents before key = none)
    (short : ∀ label ∈ failures.map Prod.fst, ∀ field,
      (BlobKey.log id label field).text.utf8ByteSize ≤ BlobKey.maxBytes)
    (h : Logged id failures (map.contents before) (map.contents after)) :
    ∃ logs, (facilities.store.run (fetchLogs id).run after).1 = .ok logs ∧
      LastOfEach failures logs := by
  have hstored {key : BlobKey}
      (hkey : MemoryStore.startsWith (BlobKey.unitStart id) key.text = true)
      (hsome : (map.contents after key).isSome) :
      ∃ label field, (failures.last? label).isSome ∧ key = .log id label field := by
    by_contra hno
    rw [h.others key fun label field hlast heq => hno ⟨label, field, hlast, heq⟩,
      fresh key hkey] at hsome
    cases hsome
  have hvalid (key : BlobKey) (hsome : (map.contents after key).isSome)
      (hkey : MemoryStore.startsWith (BlobKey.unitStart id) key.text = true) : key.Valid := by
    obtain ⟨label, field, hlast, rfl⟩ := hstored hkey hsome
    exact BlobKey.valid_log_iff.2 (short label (Failures.last?_isSome_iff.1 hlast) field)
  have hlabels (label : CommandLabel) :
      (∃ field, (map.contents after (BlobKey.log id label field)).isSome) ↔
        (failures.last? label).isSome := by
    constructor
    · rintro ⟨field, hsome⟩
      obtain ⟨name, _, hlast, hkey⟩ := hstored (BlobKey.startsWith_log id label field) hsome
      obtain ⟨rfl, -⟩ := BlobKey.log_injective hkey
      exact hlast
    · intro hlast
      obtain ⟨record, hrecord⟩ := Option.isSome_iff_exists.1 hlast
      exact ⟨.exitCode, Option.isSome_of_eq_some (h.logs label record hrecord .exitCode)⟩
  obtain ⟨logs, hfetch, hsorted, hnamed, hreads⟩ := lists.run_fetchLogs hvalid
  refine ⟨logs, hfetch, hsorted, fun label => ?_, fun log hlog => ?_⟩
  · rw [hnamed, hlabels, Failures.last?_isSome_iff]
  · obtain ⟨record, hrecord⟩ := Option.isSome_iff_exists.1
      ((hlabels log.label).1 ((hnamed log.label).1 ⟨log, hlog, rfl⟩))
    rw [hrecord]
    refine Archive.toRecord?_of_reads fun field => ?_
    have hread := hreads log hlog field
    rwa [h.logs log.label record hrecord] at hread

/-- Run a plan over a store that behaves as a map and holds nothing of the unit, with the failures
going to the archive.  When no label of a failed command is too long for its keys, nothing fails to
be archived, and the logs of the unit are found: one for each label, with the record of the last
command that failed under it.  So there is a log for each failure, with all their records, exactly
when no two failed commands have the same label. -/
theorem logs_show_all_iff (lists : map.Lists) (plan : Plan) {id : WorkUnitId}
    (reloads : List Bool) (shop : Workshop σ ω)
    (fresh : ∀ key, MemoryStore.startsWith (BlobKey.unitStart id) key.text = true →
      map.contents shop.store key = none)
    (short : ∀ label ∈ (facilities.failures plan.commands shop.machine).map Prod.fst, ∀ field,
      (BlobKey.log id label field).text.utf8ByteSize ≤ BlobKey.maxBytes) :
    ∃ outcome later logs,
      (Sequence.runPlan plan (FailureSink.archive id) 0).perform facilities.restless
          (reloads, shop) = ((outcome, 0), reloads, later) ∧
        outcome.failures = (facilities.failures plan.commands shop.machine).map Prod.fst ∧
        (facilities.store.run (fetchLogs id).run later.store).1 = .ok logs ∧
        LastOfEach (facilities.failures plan.commands shop.machine) logs ∧
        (ShowsAll (facilities.failures plan.commands shop.machine) logs ↔
          outcome.failures.Nodup) := by
  obtain ⟨ran, later, hrun, hlogged⟩ := perform_runPlan map plan id reloads shop
  obtain ⟨logs, hfetch, hlast⟩ := fetch_logged lists fresh short hlogged
  exact ⟨_, later, logs, hrun, rfl, hfetch, hlast, hlast.showsAll_iff⟩

theorem answer_get_snd (key : BlobKey) (blobs : MemoryStore) :
    (MemoryStore.answer (.get key) blobs).2 = blobs := rfl

def counting : Facilities MemoryStore Unit where
  store := MemoryStore.answer
  get_snd := answer_get_snd
  checkOut id := .ok (some id)
  run command _ machine := (.ok (some {
    exitCode := Int32.ofNat command.argv.length
    timedOut := false
    stdout := ByteArray.empty
    stderr := ByteArray.empty }), machine)

def apartPlan : Plan :=
  { Plan.empty with commands := [⟨["make"], StringMap.empty⟩, ⟨["make", "all"], StringMap.empty⟩] }

def sharedPlan : Plan :=
  { Plan.empty with commands :=
    [⟨["make", "a b"], StringMap.empty⟩, ⟨["make", "a", "b"], StringMap.empty⟩] }

theorem logs_show_all_of_apart :
    (∀ key, MemoryStore.startsWith (BlobKey.unitStart Archive.weekly) key.text = true →
        MemoryStore.keyValue.contents StringMap.empty key = none) ∧
      (∀ label ∈ (counting.failures apartPlan.commands ()).map Prod.fst, ∀ field,
        (BlobKey.log Archive.weekly label field).text.utf8ByteSize ≤ BlobKey.maxBytes) ∧
      ∃ outcome later logs,
        (Sequence.runPlan apartPlan (FailureSink.archive Archive.weekly) 0).perform
            counting.restless ([], ⟨StringMap.empty, ()⟩) = ((outcome, 0), [], later) ∧
          (MemoryStore.answer.run (fetchLogs Archive.weekly).run later.store).1 = .ok logs ∧
          ShowsAll (counting.failures apartPlan.commands ()) logs ∧ logs.length = 2 := by
  have fresh : ∀ key : BlobKey,
      MemoryStore.startsWith (BlobKey.unitStart Archive.weekly) key.text = true →
        MemoryStore.keyValue.contents StringMap.empty key = none := fun _ _ => rfl
  have short : ∀ label ∈ (counting.failures apartPlan.commands ()).map Prod.fst, ∀ field,
      (BlobKey.log Archive.weekly label field).text.utf8ByteSize ≤ BlobKey.maxBytes := by
    intro label hlabel field
    revert label
    cases field <;> decide
  have hdistinct : ((counting.failures apartPlan.commands ()).map Prod.fst).Nodup := by decide
  obtain ⟨outcome, later, logs, hrun, houtcome, hfetch, -, hiff⟩ := logs_show_all_iff
    MemoryStore.listing.lists apartPlan [] ⟨StringMap.empty, ()⟩ fresh short
  have hshown := hiff.2 (houtcome ▸ hdistinct)
  exact ⟨fresh, short, outcome, later, logs, hrun, hfetch, hshown, hshown.1⟩

def sharedLabel : CommandLabel := ⟨"make_a_b", by decide⟩

/-- Both commands fail and nothing fails to be archived, yet one log is found, with the record of
the second command. -/
theorem first_record_lost :
    ∃ outcome later log,
      (Sequence.runPlan sharedPlan (FailureSink.archive Archive.weekly) 0).perform
          counting.restless ([], ⟨StringMap.empty, ()⟩) = ((outcome, 0), [], later) ∧
        outcome.failures = [sharedLabel, sharedLabel] ∧
        (MemoryStore.answer.run (fetchLogs Archive.weekly).run later.store).1 = .ok [log] ∧
        (log.toRecord?.map fun record => record.exitCode) = some 3 ∧
        ¬ShowsAll (counting.failures sharedPlan.commands ()) [log] := by
  have hshort : ∀ label ∈ (counting.failures sharedPlan.commands ()).map Prod.fst, ∀ field,
      (BlobKey.log Archive.weekly label field).text.utf8ByteSize ≤ BlobKey.maxBytes := by
    intro label hlabel field
    revert label
    cases field <;> decide
  have hlabels : (counting.failures sharedPlan.commands ()).map Prod.fst =
      [sharedLabel, sharedLabel] := by decide
  let map : KeyValue counting.store := MemoryStore.keyValue
  obtain ⟨ran, later, hrun, hlogged⟩ :=
    perform_runPlan map sharedPlan Archive.weekly [] ⟨StringMap.empty, ()⟩
  obtain ⟨logs, hfetch, hlast⟩ := fetch_logged MemoryStore.listing.lists
    (fun _ _ => rfl) hshort hlogged
  have hone : logs.length = 1 := by
    have hlength := hlast.perm.length_eq
    rw [List.length_map, hlabels] at hlength
    exact hlength.trans (by decide)
  obtain ⟨log, rfl⟩ := List.length_eq_one_iff.1 hone
  have hlabel : log.label = sharedLabel := by
    obtain ⟨other, hother, hname⟩ := (hlast.labels sharedLabel).2 (by rw [hlabels]; simp)
    rwa [List.mem_singleton.1 hother] at hname
  refine ⟨_, later, log, hrun, hlabels, hfetch, ?_, fun hall => ?_⟩
  · rw [hlast.records log List.mem_cons_self, hlabel]
    decide
  · have hdistinct := hlast.showsAll_iff.1 hall
    rw [hlabels] at hdistinct
    exact absurd hdistinct (by decide)

end Facilities

end Handoff
