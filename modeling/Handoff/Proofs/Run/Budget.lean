import Handoff.Proofs.Plan.Timeout
import Handoff.Proofs.Round.Waiting
import Handoff.Proofs.Run.Aggregate
import Handoff.Round.Consumer
import Mathlib.Algebra.GroupWithZero.Nat
/-!
# The budget of a run

How long the run of a plan can take when every command is stopped a grace period after its limit at
the latest, and what that means for a producer that waits for it.  The wait is one limit for each
command, empty ones included; grace periods and the cleanup are not counted.
-/

namespace Handoff

open Program

/-! ## Programs that take time -/

def WorkRequest.lasts : WorkRequest → Bool
  | .run _ _ => true
  | .sleep _ => true
  | _ => false

def FailureSink.Instant {τ : Type} (sink : FailureSink τ) : Prop :=
  ∀ state label command record, (sink.accept state label command record).Within
    (fun request : WorkRequest => request.lasts = false) fun _ => True

theorem FailureSink.archive_instant (id : WorkUnitId) : (FailureSink.archive id).Instant := by
  intro errors label command record
  refine Program.within_bind.2
    ((Work.within_ofStorage (fun _ => rfl) (Archive.putRecord id label record).run).mono ?_)
  intro result _
  cases result with
  | ok _ => trivial
  | error fault => trivial

namespace Program

variable {α β σ : Type} {answer : Surroundings Work σ} {clock : σ → Nat}

/-- How long a program takes at least and at most. -/
def Takes (answer : Surroundings Work σ) (clock : σ → Nat) (least most : Nat)
    (program : Program Work α) : Prop :=
  ∀ s, clock s + least ≤ clock (program.perform answer s).2 ∧
    clock (program.perform answer s).2 ≤ clock s + most

theorem takes_done (value : α) : (done value : Program Work α).Takes answer clock 0 0 :=
  fun s => ⟨Nat.le_refl (clock s), Nat.le_refl (clock s)⟩

theorem Takes.bind {program : Program Work α} {next : α → Program Work β}
    {least most later latest : Nat} (h : program.Takes answer clock least most)
    (hnext : ∀ value, (next value).Takes answer clock later latest) :
    (program >>= next).Takes answer clock (least + later) (most + latest) := by
  intro s
  have hfirst := h s
  have hsecond := hnext (program.perform answer s).1 (program.perform answer s).2
  rw [perform_bind]
  omega

theorem Takes.bind_instant {program : Program Work α} {next : α → Program Work β}
    {least most : Nat} (h : program.Takes answer clock least most)
    (hnext : ∀ value, (next value).Takes answer clock 0 0) :
    (program >>= next).Takes answer clock least most :=
  h.bind hnext

theorem Takes.instant_bind {program : Program Work α} {next : α → Program Work β}
    {least most : Nat} (h : program.Takes answer clock 0 0)
    (hnext : ∀ value, (next value).Takes answer clock least most) :
    (program >>= next).Takes answer clock least most := by
  have hboth := h.bind hnext
  rwa [Nat.zero_add, Nat.zero_add] at hboth

theorem Within.takes {fit : α → Prop} {program : Program Work α}
    (h : program.Within (fun request : WorkRequest => request.lasts = false) fit)
    (hinstant : ∀ (request : WorkRequest) s, request.lasts = false →
      clock (answer request s).2 = clock s) :
    program.Takes answer clock 0 0 := by
  induction program with
  | done value => exact takes_done value
  | ask request next ih =>
      intro s
      obtain ⟨hrequest, hnext⟩ := within_ask.1 h (answer request s).1
      have hlater := ih _ hnext (answer request s).2
      rw [hinstant request s hrequest] at hlater
      exact hlater

end Program

namespace Sequence

/-! ## Time in commands -/

/-- Surroundings in which time passes in commands and in sleeps only.  A command takes the time
between two bounds, told by the limit of its own, and does not end without a record or a fault
unless it is empty. -/
structure Passes {σ : Type} (answer : Surroundings Work σ) (clock : σ → Nat)
    (least most : Option Duration → Command → Nat) : Prop where
  instant : ∀ (request : WorkRequest) s, request.lasts = false →
    clock (answer request s).2 = clock s
  sleep : ∀ span s, clock (answer (.sleep span) s).2 = clock s + span.toNanos
  run : ∀ own command s,
    clock s + least own command ≤ clock (answer (.run command own) s).2 ∧
      clock (answer (.run command own) s).2 ≤ clock s + most own command
  answered : Surroundings.RunsAll answer

/-- The time until a command is stopped for good: its own limit, or that of all commands, and then
the grace period.  There is nothing to stop in an empty command. -/
def span (limit grace : Duration) (own : Option Duration) (command : Command) : Nat :=
  if command.isEmpty then 0 else (own.getD limit).toNanos + grace.toNanos

/-- Surroundings that stop every command a grace period after its limit at the latest. -/
def Paced {σ : Type} (answer : Surroundings Work σ) (clock : σ → Nat)
    (limit grace : Duration) : Prop :=
  Passes answer clock (fun _ _ => 0) (span limit grace)

def total (time : Option Duration → Command → Nat) (plan : Plan) : Nat :=
  ((plan.commands.filter fun command => !command.isEmpty).map (time none)).sum +
    (plan.cleanup.map (time (some plan.cleanupTimeout))).getD 0

def longest (plan : Plan) (limit grace : Duration) : Nat :=
  (plan.commands.countP fun command => !command.isEmpty) * (limit.toNanos + grace.toNanos) +
    (plan.cleanup.map (span limit grace (some plan.cleanupTimeout))).getD 0

theorem total_span (plan : Plan) (limit grace : Duration) :
    total (span limit grace) plan = longest plan limit grace := by
  have hspan : ∀ command ∈ plan.commands.filter fun command => !command.isEmpty,
      span limit grace none command = limit.toNanos + grace.toNanos := by
    intro command hcommand
    have hsome : command.isEmpty = false := by simpa using (List.mem_filter.1 hcommand).2
    rw [span, hsome]
    rfl
  rw [total, longest, List.map_congr_left hspan, List.map_const',
    List.sum_replicate_nat, ← List.countP_eq_length_filter]

section Course

variable {σ τ : Type} {answer : Surroundings Work σ} {clock : σ → Nat}
  {least most : Option Duration → Command → Nat} {sink : FailureSink τ}

theorem Passes.takes_record (h : Passes answer clock least most) (command : Command) :
    (record command).Takes answer clock (least none command) (most none command) := by
  have hrun : (Work.run command none).Takes answer clock (least none command)
      (most none command) := h.run none command
  refine hrun.bind_instant fun result => ?_
  cases result with
  | ok record => exact takes_done record
  | error fault => exact takes_done (some (runnerFailure fault))

theorem Passes.takes_runCommands (h : Passes answer clock least most) (hsink : sink.Instant)
    (commands : List Command) (outcome : SequenceOutcome) (state : τ) :
    (runCommands sink commands outcome state).Takes answer clock
      ((commands.filter fun command => !command.isEmpty).map (least none)).sum
      ((commands.filter fun command => !command.isEmpty).map (most none)).sum := by
  induction commands generalizing outcome state with
  | nil => exact takes_done (outcome, state)
  | cons command rest ih =>
      cases hlabel : command.label with
      | none =>
          have hempty := Command.label_eq_none_iff.1 hlabel
          rw [runCommands, hlabel, List.filter_cons_of_neg (by simp [hempty])]
          exact ih outcome state
      | some label =>
          have hsome := Command.isEmpty_of_label hlabel
          rw [runCommands, hlabel, List.filter_cons_of_pos (by simp [hsome]), List.map_cons,
            List.map_cons, List.sum_cons, List.sum_cons]
          refine (h.takes_record command).bind fun found => ?_
          cases found with
          | none => exact ih outcome state
          | some record =>
              dsimp only
              split
              · have htaken := (hsink state label command record).takes h.instant
                exact htaken.instant_bind fun next => ih _ next
              · exact ih _ state

theorem Passes.takes_runCleanup (h : Passes answer clock least most) (cleanup : Option Command)
    (limit : Duration) : (runCleanup cleanup limit).Takes answer clock
      ((cleanup.map (least (some limit))).getD 0) ((cleanup.map (most (some limit))).getD 0) := by
  cases cleanup with
  | none => exact takes_done ()
  | some command =>
      have hrun : (Work.run command (some limit)).Takes answer clock (least (some limit) command)
          (most (some limit) command) := h.run (some limit) command
      exact hrun.bind_instant fun _ => takes_done ()

theorem Passes.takes_runPlan (h : Passes answer clock least most) (hsink : sink.Instant)
    (plan : Plan) (state : τ) :
    (runPlan plan sink state).Takes answer clock (total least plan) (total most plan) := by
  refine (h.takes_runCommands hsink plan.commands ⟨0, []⟩ state).bind fun result => ?_
  exact (h.takes_runCleanup plan.cleanup plan.cleanupTimeout).bind_instant fun _ =>
    takes_done result

end Course

/-! ## Commands that are stopped -/

def Stopped (talk : Work.Talk) : Prop :=
  ∃ command record, ⟨.run command none, .ok (some record)⟩ ∈ talk ∧ record.timedOut = true

section Failures

variable {σ τ : Type} {answer : Surroundings Work σ} {sink : FailureSink τ}

theorem handed_instant (hsink : sink.Instant) {state last : τ} {trials : List Trial}
    (h : Handed sink state trials last) :
    ∀ trial ∈ trials, ∀ said ∈ trial.handed, said.1.lasts = false := by
  induction h with
  | nil state => exact nofun
  | passed passed silent later ih =>
      refine List.forall_mem_cons.2 ⟨?_, ih⟩
      rw [silent]
      exact nofun
  | failed failed taken later ih =>
      exact List.forall_mem_cons.2 ⟨(hsink _ _ _ _).forall_talk taken, ih⟩

theorem failed_of_stopped (hruns : Surroundings.RunsAll answer) (hsink : sink.Instant)
    (plan : Plan) (state : τ) (s : σ) (h : Stopped ((runPlan plan sink state).talk answer s)) :
    ((runPlan plan sink state).perform answer s).1.1.failed = true := by
  obtain ⟨command, record, hsaid, htimedOut⟩ := h
  obtain ⟨trials, haggregates⟩ :=
    exists_aggregates sink hruns plan.commands plan.cleanup plan.cleanupTimeout state s
  obtain ⟨tail, hcleanup, htalk⟩ := haggregates.told
  rw [runPlan, htalk] at hsaid
  rcases List.mem_append.1 hsaid with htrials | htail
  · obtain ⟨trial, htrial, hspoken⟩ := List.mem_flatMap.1 htrials
    refine haggregates.failed.2 ⟨trial, htrial, ?_⟩
    rcases List.mem_cons.1 hspoken with hrun | hhanded
    · obtain ⟨hrequest, hreply⟩ := Sigma.mk.inj hrun
      obtain ⟨rfl, -⟩ := WorkRequest.run.inj hrequest
      have houtcome := eq_of_heq hreply
      unfold Trial.failed
      cases hfound : trial.outcome with
      | error fault => simp [hfound, Except.map] at houtcome
      | ok found =>
          rw [hfound] at houtcome
          obtain rfl : record = found := Option.some.inj (Except.ok.inj houtcome)
          simp [htimedOut]
    · have hinstant := handed_instant hsink haggregates.handed trial htrial _ hhanded
      cases hinstant
  · generalize plan.cleanup = cleanup at hcleanup
    cases hcleanup with
    | none => cases htail
    | some cleanup answer =>
        obtain ⟨hrequest, -⟩ := Sigma.mk.inj (List.mem_singleton.1 htail)
        cases hrequest

end Failures

def killed : ExecutionRecord where
  exitCode := -9
  timedOut := true
  stdout := ByteArray.empty
  stderr := ByteArray.empty

/-- Surroundings with a store and a clock.  They stop every command, and only the grace period
brings it to its end. -/
def stopping {ρ : Type} (model : StoreModel ρ) (limit grace : Duration) :
    Surroundings Work (ρ × Nat)
  | .store call, (store, clock) =>
      let (reply, store) := model call store
      (reply, (store, clock))
  | .checkOut id, state => (.ok (some id), state)
  | .reloadWanted, state => (false, state)
  | .run command own, (store, clock) =>
      (.ok (if command.isEmpty then none else some killed),
        (store, clock + span limit grace own command))
  | .print _, state => ((), state)
  | .now, (store, clock) => (clock, (store, clock))
  | .sleep span, (store, clock) => ((), (store, clock + span.toNanos))

section Worst

variable {ρ τ : Type} (model : StoreModel ρ) (limit grace : Duration)

theorem passes_stopping : Passes (stopping model limit grace) Prod.snd (span limit grace)
    (span limit grace) where
  instant request s h := by
    cases request with
    | run command own => cases h
    | sleep span => cases h
    | _ => rfl
  sleep _ _ := rfl
  run _ _ s := ⟨Nat.le_refl _, Nat.le_refl _⟩
  answered command s hsome hnone := by
    rw [stopping, hsome] at hnone
    cases hnone

theorem paced_stopping : Paced (stopping model limit grace) Prod.snd limit grace :=
  { passes_stopping model limit grace with
    run := fun own command s =>
      ⟨Nat.le_add_right _ _, ((passes_stopping model limit grace).run own command s).2⟩ }

variable {sink : FailureSink τ}

/-- In surroundings that stop every command a run takes the longest time. -/
theorem clock_runPlan_stopping (hsink : sink.Instant) (plan : Plan) (state : τ) (s : ρ × Nat) :
    ((runPlan plan sink state).perform (stopping model limit grace) s).2.2 =
      s.2 + longest plan limit grace := by
  have htakes := (passes_stopping model limit grace).takes_runPlan hsink plan state s
  rw [total_span] at htakes
  exact Nat.le_antisymm htakes.2 htakes.1

theorem stopped_runPlan_stopping {plan : Plan} {command : Command}
    (hcommand : command ∈ plan.commands) (hsome : command.isEmpty = false) (state : τ)
    (s : ρ × Nat) :
    Stopped ((runPlan plan sink state).talk (stopping model limit grace) s) := by
  obtain ⟨trials, haggregates⟩ := exists_aggregates sink (paced_stopping model limit grace).answered
    plan.commands plan.cleanup plan.cleanupTimeout state s
  have hreached : command ∈ trials.map Trial.command := by
    rw [haggregates.reached]
    exact List.mem_filter.2 ⟨hcommand, by simp [hsome]⟩
  obtain ⟨trial, htrial, rfl⟩ := List.mem_map.1 hreached
  obtain ⟨tail, -, htalk⟩ := haggregates.told
  have hsaid : ⟨.run trial.command none, trial.outcome.map some⟩ ∈
      (runPlan plan sink state).talk (stopping model limit grace) s := by
    rw [runPlan, htalk]
    exact List.mem_append_left _ (List.mem_flatMap_of_mem htrial List.mem_cons_self)
  obtain ⟨t, hreply⟩ := exists_answer _ _ _ hsaid
  have hkilled : trial.outcome.map some = .ok (some killed) := by
    refine hreply.trans ?_
    rw [stopping, hsome]
    rfl
  rw [hkilled] at hsaid
  exact ⟨trial.command, killed, hsaid, rfl⟩

end Worst

/-! ## The producer -/

section Wait

variable {σ ρ : Type} {answer : Surroundings Work σ} {clock : σ → Nat} {limit grace : Duration}
  {model : StoreModel ρ} {map : KeyValue model} {id : WorkUnitId} {status : Status}

/-- The tester takes the offer when it is made, and its report is what the run comes to, as soon as
that is done. -/
structure Reports (answer : Surroundings Work σ) (clock : σ → Nat) (s : σ) (consumer : Consumer)
    (tester : Tester map id status) : Prop where
  status_eq : ((consumer.execute id).perform answer s).1 = status
  clock_eq : clock ((consumer.execute id).perform answer s).2 = clock s + tester.delay

theorem perform_execute (consumer : Consumer) (s : σ) :
    (consumer.execute id).perform answer s =
      (Status.ofFailed ((runPlan consumer.plan (FailureSink.archive id) 0).perform answer
          s).1.1.failed,
        ((runPlan consumer.plan (FailureSink.archive id) 0).perform answer s).2) := by
  unfold Consumer.execute
  rw [perform_bind]
  rfl

theorem talk_execute (consumer : Consumer) (s : σ) :
    (consumer.execute id).talk answer s =
      (runPlan consumer.plan (FailureSink.archive id) 0).talk answer s := by
  unfold Consumer.execute
  rw [talk_bind]
  exact List.append_nil _

variable {s : σ} {consumer : Consumer} {tester : Tester map id status}

theorem Reports.delay_le (h : Reports answer clock s consumer tester)
    (hpaced : Paced answer clock limit grace) :
    tester.delay ≤ longest consumer.plan limit grace := by
  have hclock := h.clock_eq
  have hmost := (hpaced.takes_runPlan (FailureSink.archive_instant id) consumer.plan 0 s).2
  rw [perform_execute] at hclock
  rw [total_span] at hmost
  exact Nat.le_of_add_le_add_left (Nat.le_trans (Nat.le_of_eq hclock.symm) hmost)

theorem Reports.status_of_stopped (h : Reports answer clock s consumer tester)
    (hruns : Surroundings.RunsAll answer)
    (hstopped : Stopped ((consumer.execute id).talk answer s)) : status = .failed := by
  rw [talk_execute] at hstopped
  have hfailed :=
    failed_of_stopped hruns (FailureSink.archive_instant id) consumer.plan 0 s hstopped
  rw [← h.status_eq, perform_execute, hfailed]
  rfl

theorem reports_stopping {tester : Tester map id .failed} {command : Command}
    (hcommand : command ∈ consumer.plan.commands) (hsome : command.isEmpty = false)
    (hdelay : tester.delay = longest consumer.plan limit grace) (s : ρ × Nat) :
    Reports (stopping model limit grace) Prod.snd s consumer tester := by
  have hinstant := FailureSink.archive_instant id
  have hstopped : Stopped ((runPlan consumer.plan (FailureSink.archive id) 0).talk
      (stopping model limit grace) s) :=
    stopped_runPlan_stopping model limit grace hcommand hsome 0 s
  have hfailed := failed_of_stopped (paced_stopping model limit grace).answered hinstant
    consumer.plan 0 s hstopped
  refine ⟨?_, ?_⟩
  · rw [perform_execute, hfailed]
    rfl
  · rw [perform_execute, hdelay]
    exact clock_runPlan_stopping model limit grace hinstant consumer.plan 0 s

end Wait

theorem producerTimeout_toNanos (plan : Plan) (limit : Duration) :
    (plan.producerTimeout limit).toNanos =
      min (limit.toNanos * min (max plan.commands.length 1) Plan.slotMax)
        Duration.max.toNanos := by
  rw [plan.toNanos_producerTimeout, plan.toNat_slots]

/-- A plan without empty commands is covered only where nothing is left over for grace periods and
the cleanup. -/
theorem no_grace_of_covered {plan : Plan} {limit grace : Duration}
    (hsome : ∀ command ∈ plan.commands, command.isEmpty = false) (hplan : plan.commands ≠ [])
    (hcovered : longest plan limit grace ≤ (plan.producerTimeout limit).toNanos) :
    grace.toNanos = 0 ∧
      (plan.cleanup.map (span limit grace (some plan.cleanupTimeout))).getD 0 = 0 := by
  have hpositive : 0 < plan.commands.length := List.length_pos_iff.2 hplan
  have hcount : (plan.commands.countP fun command => !command.isEmpty) = plan.commands.length :=
    List.countP_eq_length.2 fun command hcommand => by simp [hsome command hcommand]
  have hslots : min (max plan.commands.length 1) Plan.slotMax ≤ plan.commands.length := by omega
  have hwait : (plan.producerTimeout limit).toNanos ≤ plan.commands.length * limit.toNanos := by
    rw [producerTimeout_toNanos, Nat.mul_comm plan.commands.length]
    exact Nat.le_trans (Nat.min_le_left _ _) (Nat.mul_le_mul_left _ hslots)
  rw [longest, hcount, Nat.mul_add] at hcovered
  have hspare : plan.commands.length * grace.toNanos = 0 := by omega
  refine ⟨(Nat.mul_eq_zero.1 hspare).resolve_left (Nat.ne_of_gt hpositive), by omega⟩

def awaiting (plan : Plan) (limit poll : Duration) : Producer where
  pollInterval := poll
  timeout := plan.producerTimeout limit

/-- No run of a plan takes longer than the one in which everything is stopped, and the producer
waits for the limit times the number of commands.  When the longest run is over by the last look of
the producer, every run in which a command was stopped is reported as a failure; what comes of a run
that takes longer than the wait the producer does not learn. -/
theorem longest_run_against_wait (plan : Plan) (limit grace : Duration) :
    (∀ {σ τ : Type} {answer : Surroundings Work σ} {clock : σ → Nat} {sink : FailureSink τ},
      Paced answer clock limit grace → sink.Instant → ∀ state s,
        clock ((runPlan plan sink state).perform answer s).2 ≤
          clock s + longest plan limit grace) ∧
    (∀ {ρ τ : Type} (model : StoreModel ρ) {sink : FailureSink τ}, sink.Instant → ∀ state s,
      Paced (stopping model limit grace) Prod.snd limit grace ∧
        ((runPlan plan sink state).perform (stopping model limit grace) s).2.2 =
          s.2 + longest plan limit grace ∧
        ∀ command ∈ plan.commands, command.isEmpty = false →
          Stopped ((runPlan plan sink state).talk (stopping model limit grace) s)) ∧
    (plan.producerTimeout limit).toNanos =
      min (limit.toNanos * min (max plan.commands.length 1) Plan.slotMax) Duration.max.toNanos ∧
    ∀ {σ ρ : Type} {answer : Surroundings Work σ} {clock : σ → Nat} {model : StoreModel ρ}
      {map : KeyValue model} {id : WorkUnitId} {status : Status} {tester : Tester map id status}
      {consumer : Consumer} {s : σ},
      Paced answer clock limit grace → consumer.plan = plan →
      Reports answer clock s consumer tester → ∀ (poll : Duration) (polls : Nat) store now,
      0 < poll.toNanos → (plan.producerTimeout limit).toNanos / poll.toNanos + 1 < polls →
      (longest plan limit grace ≤ (awaiting plan limit poll).lastLook →
        Stopped ((consumer.execute id).talk answer s) →
        (((awaiting plan limit poll).offerAndWait polls id).run.perform tester.surroundings
          ⟨store, now, none⟩).1 = .ok (some .failed)) ∧
      ((plan.producerTimeout limit).toNanos < tester.delay →
        ∃ waited, (((awaiting plan limit poll).offerAndWait polls id).run.perform
          tester.surroundings ⟨store, now, none⟩).1 = .error (.timeout id waited)) := by
  refine ⟨fun hpaced hsink state s => ?_, fun model _ hsink state s => ?_,
    producerTimeout_toNanos plan limit,
    fun hpaced hplan hreports poll polls store now hpoll hpolls =>
      ⟨fun hcovered hstopped => ?_, fun hlate => ?_⟩⟩
  · rw [← total_span]
    exact (hpaced.takes_runPlan hsink plan state s).2
  · have hclock := clock_runPlan_stopping model limit grace hsink plan state s
    exact ⟨paced_stopping model limit grace, hclock, fun command hcommand hsome =>
      stopped_runPlan_stopping model limit grace hcommand hsome state s⟩
  · subst hplan
    obtain rfl := hreports.status_of_stopped hpaced.answered hstopped
    have hdelay := Nat.le_trans (hreports.delay_le hpaced) hcovered
    exact Tester.perform_offerAndWait_ok store now hdelay (Nat.lt_of_succ_lt hpolls)
  · have hmissed : (awaiting plan limit poll).lastLook < _ :=
      Nat.lt_of_le_of_lt (Nat.div_mul_le_self _ _) hlate
    exact ⟨_, Tester.perform_offerAndWait_error store now hpoll hmissed hpolls⟩

def tenSecs : Duration := Duration.ofSecs 10

def build : Command := ⟨["build"], StringMap.empty⟩

def singlePlan : Plan := { Plan.empty with commands := [build] }

def paddedPlan : Plan := { Plan.empty with commands := [build, ⟨[], StringMap.empty⟩] }

def patientTester (plan : Plan) : Tester MemoryStore.keyValue Tester.trial .failed :=
  Tester.punctual MemoryStore.keyValue Tester.trial .failed (longest plan tenSecs tenSecs)

def stoppedTalk (plan : Plan) : Work.Talk :=
  ((⟨plan, .fresh, tenSecs⟩ : Consumer).execute Tester.trial).talk
    (stopping MemoryStore.answer tenSecs tenSecs) (StringMap.empty, 0)

theorem stopped_stoppedTalk {plan : Plan} (hcommand : build ∈ plan.commands) :
    Stopped (stoppedTalk plan) := by
  unfold stoppedTalk
  rw [talk_execute]
  exact stopped_runPlan_stopping _ _ _ hcommand rfl 0 _

def keen (plan : Plan) : Producer := awaiting plan tenSecs (Duration.ofSecs 1)

def awaited (plan : Plan) (polls : Nat) : Except RoundFault (Option Status) :=
  (((keen plan).offerAndWait polls Tester.trial).run.perform (patientTester plan).surroundings
    ⟨StringMap.empty, 0, none⟩).1

/-- Two commands of which one is empty are waited for as long as it takes to stop the other. -/
theorem longest_run_against_wait_on_padded :
    ((runPlan paddedPlan (FailureSink.archive Tester.trial) 0).perform
        (stopping MemoryStore.answer tenSecs tenSecs) (StringMap.empty, 5)).2.2 ≤
          5 + longest paddedPlan tenSecs tenSecs ∧
      longest paddedPlan tenSecs tenSecs ≤ (paddedPlan.producerTimeout tenSecs).toNanos ∧
      Stopped (stoppedTalk paddedPlan) ∧ awaited paddedPlan 22 = .ok (some .failed) := by
  have hcommand : build ∈ paddedPlan.commands := List.mem_cons_self
  have hreports : Reports (stopping MemoryStore.answer tenSecs tenSecs) Prod.snd
      (StringMap.empty, 0) ⟨paddedPlan, .fresh, tenSecs⟩ (patientTester paddedPlan) :=
    reports_stopping hcommand rfl rfl _
  have hstopped := stopped_stoppedTalk hcommand
  have hpaced := paced_stopping MemoryStore.answer tenSecs tenSecs
  have hinstant := FailureSink.archive_instant Tester.trial
  obtain ⟨hmost, -, -, hwait⟩ := longest_run_against_wait paddedPlan tenSecs tenSecs
  exact ⟨hmost hpaced hinstant 0 _, by decide, hstopped, (hwait hpaced rfl hreports
    (Duration.ofSecs 1) 22 _ 0 (by decide) (by decide)).1 (by decide) hstopped⟩

/-- A command that is stopped after ten seconds and goes on for another ten outlasts a producer
that waits for ten seconds. -/
theorem run_outlasts_wait :
    Paced (stopping MemoryStore.answer tenSecs tenSecs) Prod.snd tenSecs tenSecs ∧
      Stopped (stoppedTalk singlePlan) ∧
      Reports (stopping MemoryStore.answer tenSecs tenSecs) Prod.snd (StringMap.empty, 0)
        ⟨singlePlan, .fresh, tenSecs⟩ (patientTester singlePlan) ∧
      (singlePlan.producerTimeout tenSecs).toNanos < longest singlePlan tenSecs tenSecs ∧
      awaited singlePlan 12 = .error (.timeout Tester.trial (Duration.ofSecs 11)) := by
  have hcommand : build ∈ singlePlan.commands := List.mem_cons_self
  have hwaited : Duration.ofNanos ((keen singlePlan).lastLook +
      (keen singlePlan).pollInterval.toNanos) = Duration.ofSecs 11 := by decide
  refine ⟨paced_stopping _ _ _, stopped_stoppedTalk hcommand, reports_stopping hcommand rfl rfl _,
    by decide, ?_⟩
  rw [← hwaited]
  exact Tester.perform_offerAndWait_error _ 0 (by decide) (by decide) (by decide)

end Sequence

end Handoff
