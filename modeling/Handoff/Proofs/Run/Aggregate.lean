import Handoff.Host.Agent
import Handoff.Proofs.Performance
import Handoff.Proofs.Round.Grounds
/-!
# What a sequence of commands comes to

Every command of a sequence that is not empty gets its trial, in order and whatever came of those
before it.  What is handed to the sink, how much of that is refused and what the cleanup comes to
have no part in the aggregate.
-/

namespace Handoff

open Program

/-- No command that is not empty ends without a record and without a fault. -/
def Surroundings.RunsAll {σ : Type} (answer : Surroundings Work σ) : Prop :=
  ∀ (command : Command) (s : σ), command.isEmpty = false →
    (answer (WorkRequest.run command none) s).1 ≠ .ok none

theorem Agent.runsAll : Surroundings.RunsAll Agent.answer := by
  rintro ⟨argv, env⟩ agent hsome hnone
  cases argv with
  | nil => cases hsome
  | cons program arguments =>
      simp only [Agent.answer, Runner.run, Runner.attempt] at hnone
      generalize FileTree.makeDir _ _ _ = made at hnone
      cases made with
      | error fault => cases hnone
      | ok files =>
          dsimp only at hnone
          generalize Runner.runCaptured _ _ _ _ _ = captured at hnone
          obtain ⟨_ | _ | _, _⟩ := captured <;> cases hnone

namespace Sequence

def recordOf : Except RunFault ExecutionRecord → ExecutionRecord
  | .ok record => record
  | .error fault => runnerFailure fault

/-- A command that was run, what came of it, and what the sink said while it took the record. -/
structure Trial where
  command : Command
  label : CommandLabel
  labelled : command.label = some label
  outcome : Except RunFault ExecutionRecord
  handed : Work.Talk

namespace Trial

def failed (trial : Trial) : Bool :=
  match trial.outcome with
  | .ok record => record.exitCode != 0 || record.timedOut
  | .error _ => true

def record (trial : Trial) : ExecutionRecord :=
  recordOf trial.outcome

/-- What was said from the start of the command until the sink had its record. -/
def talk (trial : Trial) : Work.Talk :=
  ⟨.run trial.command none, trial.outcome.map some⟩ :: trial.handed

theorem failed_record (trial : Trial) : trial.record.failed = trial.failed := by
  rw [record, failed]
  cases trial.outcome with
  | ok record => rfl
  | error fault => rfl

def refuses : Sigma WorkRequest.Answer → Bool
  | ⟨.store (.put _ _), .error _⟩ => true
  | _ => false

def refused (trial : Trial) : Bool :=
  trial.handed.any refuses

end Trial

/-- The sink takes the records of the failed trials, each once and in order, and says nothing
else. -/
inductive Handed {τ : Type} (sink : FailureSink τ) : τ → List Trial → τ → Prop
  | nil (state : τ) : Handed sink state [] state
  | passed {trial : Trial} {rest : List Trial} {state last : τ} (passed : trial.failed = false)
      (silent : trial.handed = []) (later : Handed sink state rest last) :
      Handed sink state (trial :: rest) last
  | failed {trial : Trial} {rest : List Trial} {state next last : τ}
      (failed : trial.failed = true)
      (taken : (sink.accept state trial.label trial.command trial.record).Converses trial.handed
        (done next))
      (later : Handed sink next rest last) : Handed sink state (trial :: rest) last

inductive CleanedUp (limit : Duration) : Option Command → Work.Talk → Prop
  | none : CleanedUp limit none []
  | some (command : Command) (answer : Except RunFault (Option ExecutionRecord)) :
      CleanedUp limit (some command) [⟨.run command (some limit), answer⟩]

/-- What is said during a sequence, and what it comes to. -/
structure Aggregates {τ : Type} (commands : List Command) (cleanup : Option Command)
    (limit : Duration) (sink : FailureSink τ) (state : τ) (talk : Work.Talk)
    (result : SequenceOutcome × τ) (trials : List Trial) : Prop where
  /-- Every command that is not empty has been run, in order. -/
  reached : trials.map Trial.command = commands.filter fun command => !command.isEmpty
  /-- Nothing else was said, but for the cleanup at the end. -/
  told : ∃ tail, CleanedUp limit cleanup tail ∧ talk = trials.flatMap Trial.talk ++ tail
  handed : Handed sink state trials result.2
  recorded : ∀ trial ∈ trials, ∀ fault, trial.outcome = .error fault → trial.record.exitCode = 125
  ran : result.1.ran = (commands.filter fun command => !command.isEmpty).length
  failures : result.1.failures = (trials.filter Trial.failed).map Trial.label
  failed : result.1.failed = true ↔ ∃ trial ∈ trials, trial.failed = true

/-! ## Running the commands -/

section Runs

variable {σ τ : Type} {answer : Surroundings Work σ} (sink : FailureSink τ)

theorem exists_outcome (hruns : Surroundings.RunsAll answer) {command : Command}
    (hsome : command.isEmpty = false) (s : σ) : ∃ outcome : Except RunFault ExecutionRecord,
      (answer (WorkRequest.run command none) s).1 = outcome.map some := by
  have hreal := hruns command s hsome
  generalize (answer (WorkRequest.run command none) s).1 = reply at hreal ⊢
  match reply, hreal with
  | .ok none, hreal => exact absurd rfl hreal
  | .ok (some record), _ => exact ⟨.ok record, rfl⟩
  | .error fault, _ => exact ⟨.error fault, rfl⟩

theorem perform_record {command : Command} {outcome : Except RunFault ExecutionRecord} {s : σ}
    (h : (answer (WorkRequest.run command none) s).1 = outcome.map some) :
    (record command).perform answer s =
        (some (recordOf outcome), (answer (WorkRequest.run command none) s).2) ∧
      (record command).talk answer s = [⟨.run command none, outcome.map some⟩] := by
  have hperform : (Work.run command none).perform answer s =
      (outcome.map some, (answer (WorkRequest.run command none) s).2) := Prod.ext h rfl
  have htalk : (Work.run command none).talk answer s = [⟨.run command none, outcome.map some⟩] := by
    rw [← h]
    rfl
  rw [record, perform_bind, talk_bind, hperform, htalk]
  cases outcome with
  | ok record => exact ⟨rfl, rfl⟩
  | error fault => exact ⟨rfl, rfl⟩

section Step

variable {command : Command} {label : CommandLabel} {s : σ}
  {found : Except RunFault ExecutionRecord} (rest : List Command) (outcome : SequenceOutcome) (state : τ)

theorem perform_runCommands_failed (hlabel : command.label = some label)
    (hfound : (answer (WorkRequest.run command none) s).1 = found.map some)
    (hfailed : (recordOf found).failed = true) {next : τ} {t : σ}
    (htaken : (sink.accept state label command (recordOf found)).perform answer
      (answer (WorkRequest.run command none) s).2 = (next, t)) :
    (runCommands sink (command :: rest) outcome state).perform answer s =
        (runCommands sink rest ⟨outcome.ran + 1, outcome.failures ++ [label]⟩ next).perform
          answer t ∧
      (runCommands sink (command :: rest) outcome state).talk answer s =
        ⟨.run command none, found.map some⟩ ::
          ((sink.accept state label command (recordOf found)).talk answer
              (answer (WorkRequest.run command none) s).2 ++
            (runCommands sink rest ⟨outcome.ran + 1, outcome.failures ++ [label]⟩ next).talk
              answer t) := by
  obtain ⟨hrecord, hsaid⟩ := perform_record hfound
  rw [runCommands, hlabel]
  dsimp only
  rw [perform_bind, talk_bind, hrecord, hsaid]
  dsimp only
  rw [if_pos hfailed, perform_bind, talk_bind, htaken]
  exact ⟨rfl, rfl⟩

theorem perform_runCommands_passed (hlabel : command.label = some label)
    (hfound : (answer (WorkRequest.run command none) s).1 = found.map some)
    (hpassed : (recordOf found).failed = false) :
    (runCommands sink (command :: rest) outcome state).perform answer s =
        (runCommands sink rest ⟨outcome.ran + 1, outcome.failures⟩ state).perform answer
          (answer (WorkRequest.run command none) s).2 ∧
      (runCommands sink (command :: rest) outcome state).talk answer s =
        ⟨.run command none, found.map some⟩ ::
          (runCommands sink rest ⟨outcome.ran + 1, outcome.failures⟩ state).talk answer
            (answer (WorkRequest.run command none) s).2 := by
  obtain ⟨hrecord, hsaid⟩ := perform_record hfound
  rw [runCommands, hlabel]
  dsimp only
  rw [perform_bind, talk_bind, hrecord, hsaid]
  dsimp only
  rw [if_neg (Bool.eq_false_iff.1 hpassed)]
  exact ⟨rfl, rfl⟩

end Step

theorem exists_trials (hruns : Surroundings.RunsAll answer) (commands : List Command)
    (outcome : SequenceOutcome) (state : τ) (s : σ) :
    ∃ trials last t,
      (runCommands sink commands outcome state).perform answer s =
          ((⟨outcome.ran + trials.length,
            outcome.failures ++ (trials.filter Trial.failed).map Trial.label⟩, last), t) ∧
        (runCommands sink commands outcome state).talk answer s = trials.flatMap Trial.talk ∧
        trials.map Trial.command = (commands.filter fun command => !command.isEmpty) ∧
        Handed sink state trials last := by
  induction commands generalizing outcome state s with
  | nil => exact ⟨[], state, s, by simp [runCommands], rfl, rfl, .nil state⟩
  | cons command rest ih =>
      cases hlabel : command.label with
      | none =>
          have hempty := Command.label_eq_none_iff.1 hlabel
          rw [runCommands, hlabel, List.filter_cons_of_neg (by simp [hempty])]
          exact ih outcome state s
      | some label =>
          have hsome := Command.isEmpty_of_label hlabel
          rw [List.filter_cons_of_pos (by simp [hsome])]
          obtain ⟨found, hfound⟩ := exists_outcome hruns hsome s
          cases hfailed : (recordOf found).failed with
          | true =>
              let taking := sink.accept state label command (recordOf found)
              let started := (answer (WorkRequest.run command none) s).2
              let trial : Trial := ⟨command, label, hlabel, found, taking.talk answer started⟩
              have htrial : trial.failed = true := trial.failed_record ▸ hfailed
              have hsays : taking.Converses trial.handed (done (taking.perform answer started).1) :=
                converses_talk taking started
              rcases htaken : taking.perform answer started with ⟨next, after⟩
              rw [htaken] at hsays
              obtain ⟨hperform, htalk⟩ :=
                perform_runCommands_failed sink rest outcome state hlabel hfound hfailed htaken
              obtain ⟨trials, last, t, hlater, hsaid, hreached, hhanded⟩ :=
                ih ⟨outcome.ran + 1, outcome.failures ++ [label]⟩ next after
              refine ⟨trial :: trials, last, t, ?_, ?_, ?_, .failed htrial hsays hhanded⟩
              · rw [hperform, hlater]
                simp [htrial, trial, Nat.add_right_comm, Nat.add_assoc]
              · rw [htalk, hsaid]
                rfl
              · rw [List.map_cons, hreached]
          | false =>
              let trial : Trial := ⟨command, label, hlabel, found, []⟩
              have htrial : trial.failed = false := trial.failed_record ▸ hfailed
              obtain ⟨hperform, htalk⟩ :=
                perform_runCommands_passed sink rest outcome state hlabel hfound hfailed
              obtain ⟨trials, last, t, hlater, hsaid, hreached, hhanded⟩ :=
                ih ⟨outcome.ran + 1, outcome.failures⟩ state
                  (answer (WorkRequest.run command none) s).2
              refine ⟨trial :: trials, last, t, ?_, ?_, ?_, .passed htrial rfl hhanded⟩
              · rw [hperform, hlater]
                simp [htrial, Nat.add_right_comm, Nat.add_assoc]
              · rw [htalk, hsaid]
                rfl
              · rw [List.map_cons, hreached]

theorem talk_runCleanup (cleanup : Option Command) (limit : Duration) (s : σ) :
    CleanedUp limit cleanup ((runCleanup cleanup limit).talk answer s) := by
  cases cleanup with
  | none => exact .none
  | some command => exact .some command _

/-- A sequence is run to its end, and comes to the aggregate of the trials of its commands. -/
theorem exists_aggregates (hruns : Surroundings.RunsAll answer) (commands : List Command)
    (cleanup : Option Command) (limit : Duration) (state : τ) (s : σ) :
    ∃ trials, Aggregates commands cleanup limit sink state
      ((runAll commands cleanup limit sink state).talk answer s)
      ((runAll commands cleanup limit sink state).perform answer s).1 trials := by
  obtain ⟨trials, last, t, hperform, htalk, hreached, hhanded⟩ :=
    exists_trials sink hruns commands ⟨0, []⟩ state s
  have hresult : ((runAll commands cleanup limit sink state).perform answer s).1 =
      (⟨trials.length, (trials.filter Trial.failed).map Trial.label⟩, last) := by
    rw [runAll, perform_bind, hperform, perform_bind]
    simp
  have hcleanup : CleanedUp limit cleanup ((runCleanup cleanup limit).talk answer t) :=
    talk_runCleanup cleanup limit t
  refine ⟨trials, hreached, ⟨_, hcleanup, ?_⟩, ?_, ?_, ?_, ?_, ?_⟩
  · rw [runAll, talk_bind, htalk, hperform, talk_bind]
    exact congrArg _ (List.append_nil _)
  · rw [hresult]
    exact hhanded
  · intro trial _ fault hfault
    rw [Trial.record, hfault]
    rfl
  · rw [hresult, ← hreached, List.length_map]
  · rw [hresult]
  · rw [hresult]
    simp [SequenceOutcome.failed]

end Runs

/-! ## The archive as a sink -/

theorem refused_of_putFields {id : WorkUnitId} {label : CommandLabel} {record : ExecutionRecord}
    {fields : List LogField} {talk : Work.Talk} {result : Except StoreFault Unit}
    (h : (Work.ofStorage (Archive.putFields id label record fields).run).Converses talk
      (done result)) : talk.any Trial.refuses = true ↔ ∃ fault, result = .error fault := by
  induction fields generalizing talk with
  | nil =>
      obtain ⟨rfl, hdone⟩ := converses_done.1 h
      cases hdone
      exact ⟨nofun, nofun⟩
  | cons field rest ih =>
      rw [Archive.putFields, ExceptT.run_bind, Work.ofStorage_bind] at h
      rcases h.bind_cases with ⟨_, _, -, hrest⟩ | ⟨reply, first, second, rfl, hfirst, hsecond⟩
      · cases hrest
      have hput : (Program.request (I := Work) (.store (.put (BlobKey.log id label field)
          (Archive.fieldContent record field)))).Converses first (done reply) := hfirst
      rcases converses_request hput with ⟨-, hdone⟩ | ⟨answer, rfl, hdone⟩
      · cases hdone
      cases hdone
      cases reply with
      | ok _ =>
          have hlater : second.any Trial.refuses = true ↔ ∃ fault, result = .error fault :=
            ih hsecond
          exact hlater
      | error fault =>
          obtain ⟨rfl, hdone⟩ := converses_done.1 hsecond
          cases hdone
          exact ⟨fun _ => ⟨fault, rfl⟩, fun _ => rfl⟩

/-- The archive counts a record when one of its puts is refused. -/
theorem errors_of_taken {id : WorkUnitId} {label : CommandLabel} {command : Command}
    {record : ExecutionRecord} {errors next : Nat} {talk : Work.Talk}
    (h : ((FailureSink.archive id).accept errors label command record).Converses talk
      (done next)) : next = errors + if talk.any Trial.refuses then 1 else 0 := by
  rcases h.bind_cases with ⟨_, _, -, hrest⟩ | ⟨result, first, second, rfl, hfirst, hsecond⟩
  · cases hrest
  have hrefused := refused_of_putFields hfirst
  cases result with
  | ok _ =>
      obtain ⟨rfl, hdone⟩ := converses_done.1 hsecond
      cases hdone
      have hnone : ¬first.any Trial.refuses = true := fun hany => by
        obtain ⟨fault, hfault⟩ := hrefused.1 hany
        cases hfault
      rw [List.append_nil, if_neg hnone, Nat.add_zero]
  | error fault =>
      obtain ⟨rfl, hdone⟩ := converses_done.1 hsecond
      cases hdone
      rw [List.append_nil, if_pos (hrefused.2 ⟨fault, rfl⟩)]

theorem errors_of_handed {id : WorkUnitId} {errors last : Nat} {trials : List Trial}
    (h : Handed (FailureSink.archive id) errors trials last) :
    last = errors + trials.countP fun trial => trial.failed && trial.refused := by
  induction h with
  | nil state => simp
  | @passed trial rest state last passed silent later ih =>
      rw [ih, List.countP_cons_of_neg (by simp [passed])]
  | @failed trial rest state next last failed taken later ih =>
      rw [ih, errors_of_taken taken, List.countP_cons, failed, Bool.true_and, Trial.refused]
      omega

/-! ## The aggregate -/

theorem failedLabels_eq {trials others : List Trial}
    (hcommands : trials.map Trial.command = others.map Trial.command)
    (houtcomes : trials.map Trial.outcome = others.map Trial.outcome) :
    (trials.filter Trial.failed).map Trial.label =
      (others.filter Trial.failed).map Trial.label := by
  induction trials generalizing others with
  | nil =>
      obtain rfl : others = [] := by simpa using hcommands.symm
      rfl
  | cons trial rest ih =>
      cases others with
      | nil => cases hcommands
      | cons other more =>
          obtain ⟨hcommand, hcommands⟩ := List.cons.inj hcommands
          obtain ⟨houtcome, houtcomes⟩ := List.cons.inj houtcomes
          have hlabel : trial.label = other.label :=
            Option.some.inj (trial.labelled.symm.trans ((congrArg _ hcommand).trans other.labelled))
          have hfailed : trial.failed = other.failed := by rw [Trial.failed, houtcome]; rfl
          rw [List.filter_cons, List.filter_cons, hfailed]
          split
          · rw [List.map_cons, List.map_cons, hlabel, ih hcommands houtcomes]
          · exact ih hcommands houtcomes

theorem Aggregates.outcome_eq {τ ρ : Type} {commands : List Command}
    {cleanup other : Option Command}
    {limit span : Duration} {sink : FailureSink τ} {drain : FailureSink ρ} {state : τ} {level : ρ}
    {talk chat : Work.Talk} {result : SequenceOutcome × τ} {found : SequenceOutcome × ρ}
    {trials others : List Trial}
    (h : Aggregates commands cleanup limit sink state talk result trials)
    (hother : Aggregates commands other span drain level chat found others)
    (hsame : trials.map Trial.outcome = others.map Trial.outcome) : result.1 = found.1 := by
  have hran : result.1.ran = found.1.ran := h.ran.trans hother.ran.symm
  have hfailures : result.1.failures = found.1.failures := by
    rw [h.failures, hother.failures]
    exact failedLabels_eq (h.reached.trans hother.reached.symm) hsame
  exact congrArg₂ SequenceOutcome.mk hran hfailures

/-- Run any commands and a cleanup in surroundings whose runner gives a record or a fault for every
command that is not empty.  For every sink, the sequence is run to its end: every such command is
run, in order and whatever came before; the number of commands that ran and the labels of those
that failed, timed out or could not be supervised (which is recorded as exit code 125) are exact;
and the sink takes the records of these, each once and in order.  The archive counts those of which
a put was refused.  Nothing of the aggregate depends on the sink, its state or the cleanup. -/
theorem aggregate_exact {σ : Type} {answer : Surroundings Work σ}
    (hruns : Surroundings.RunsAll answer) (commands : List Command) (cleanup : Option Command)
    (limit : Duration) (s : σ) :
    (∀ {τ : Type} (sink : FailureSink τ) (state : τ),
      ∃ trials, Aggregates commands cleanup limit sink state
        ((runAll commands cleanup limit sink state).talk answer s)
        ((runAll commands cleanup limit sink state).perform answer s).1 trials) ∧
      (∀ id errors talk result trials,
        Aggregates commands cleanup limit (FailureSink.archive id) errors talk result trials →
          result.2 = errors + trials.countP fun trial => trial.failed && trial.refused) ∧
      ∀ {τ ρ : Type} (sink : FailureSink τ) (drain : FailureSink ρ) (state : τ) (level : ρ)
        (other : Option Command) (span : Duration) (talk chat : Work.Talk)
        (result : SequenceOutcome × τ) (found : SequenceOutcome × ρ) (trials others : List Trial),
        Aggregates commands cleanup limit sink state talk result trials →
        Aggregates commands other span drain level chat found others →
        trials.map Trial.outcome = others.map Trial.outcome → result.1 = found.1 :=
  ⟨fun sink state => exists_aggregates sink hruns commands cleanup limit state s,
    fun _ _ _ _ _ h => errors_of_handed h.handed,
    fun _ _ _ _ _ _ _ _ _ _ _ _ h hother hsame => h.outcome_eq hother hsame⟩

def mixedOutcome (command : Command) : Except RunFault ExecutionRecord :=
  if command.argv = ["true"] then .ok { Interleaving.brokenBuild with exitCode := 0 }
  else if command.argv = ["lost"] then .error (.wait "lost" .notFound)
  else .ok Interleaving.brokenBuild

/-- Surroundings in which the second put is refused; the state counts the puts. -/
def flakyArchive : Surroundings Work Nat
  | .store (.put _ _), puts => (if puts = 1 then .error .poisoned else .ok (), puts + 1)
  | .store _, puts => (.error .poisoned, puts)
  | .checkOut _, puts => (.ok none, puts)
  | .reloadWanted, puts => (false, puts)
  | .run command _, puts => ((mixedOutcome command).map some, puts)
  | .print _, puts => ((), puts)
  | .now, puts => ((0 : Nat), puts)
  | .sleep _, puts => ((), puts)

theorem runsAll_flakyArchive : Surroundings.RunsAll flakyArchive := by
  intro command puts _
  rw [flakyArchive]
  cases mixedOutcome command <;> nofun

def batch : WorkUnitId := ⟨"batch", by decide⟩

def mixedCommands : List Command :=
  [["compile"], [], ["true"], ["lost"]].map fun argv => ⟨argv, StringMap.empty⟩

def compileLabel : CommandLabel := ⟨"compile", by decide⟩
def lostLabel : CommandLabel := ⟨"lost", by decide⟩

def mixedRun : Program Work (SequenceOutcome × Nat) :=
  runAll mixedCommands (some ⟨["clean"], StringMap.empty⟩) (Duration.ofSecs 1)
    (FailureSink.archive batch) 0

/-- Two of three commands fail, and a put of the first is refused. -/
theorem aggregate_exact_on_mixed :
    Surroundings.RunsAll flakyArchive ∧
      (mixedRun.perform flakyArchive 0).1.1.ran = 3 ∧
      (mixedRun.perform flakyArchive 0).1.1.failures = [compileLabel, lostLabel] ∧
      (mixedRun.perform flakyArchive 0).1.2 = 1 ∧
      ∃ trials, Aggregates mixedCommands (some ⟨["clean"], StringMap.empty⟩) (Duration.ofSecs 1)
          (FailureSink.archive batch) 0 (mixedRun.talk flakyArchive 0)
          (mixedRun.perform flakyArchive 0).1 trials ∧
        (trials.countP fun trial => trial.failed && trial.refused) = 1 := by
  obtain ⟨hexists, herrors, -⟩ := aggregate_exact runsAll_flakyArchive mixedCommands
    (some ⟨["clean"], StringMap.empty⟩) (Duration.ofSecs 1) 0
  obtain ⟨trials, htrials⟩ := hexists (FailureSink.archive batch) 0
  have hcount := herrors _ _ _ _ _ htrials
  have hone : (mixedRun.perform flakyArchive 0).1.2 = 1 := by decide +kernel
  refine ⟨runsAll_flakyArchive, by decide +kernel, by decide +kernel, hone, trials, htrials, ?_⟩
  rw [Nat.zero_add] at hcount
  exact hcount.symm.trans hone

end Sequence

end Handoff
