import Handoff.Proofs.Commands
import Handoff.Proofs.Run.Aggregate
import Mathlib.Order.MinMax
/-!
# One verdict, printed or archived

A run of a plan passes when every command that is not empty has passed, whether what failed is
printed or archived.  In the archive the verdict is written last of all; what was refused before
that changes nothing, and a run of which the verdict was refused does not pass.  There is no verdict
when a panic of the clock breaks the run off.
-/

namespace Handoff

open Program WorkRequest Sequence

def StoreFault.IsLater (fault : StoreFault) : Prop :=
  ∀ text, fault ≠ .invalidSpec text

/-- The store is open: no put is refused over how the store was named. -/
def Surroundings.IsOpen {σ : Type} (answer : Surroundings Work σ) : Prop :=
  ∀ (key : BlobKey) (value : ByteArray) (s : σ) (fault : StoreFault),
    (answer (WorkRequest.store (.put key value)) s).1 = .error fault → fault.IsLater

/-! ## Open stores -/

namespace DirectoryStore

theorem within_discard (temporary : Path) (refusal : OsFault) :
    (discard temporary refusal).Within (fun _ => True) fun result =>
      ∀ fault, result = .error fault → fault.IsLater := by
  refine within_bind.2 ((within_of_forall (fun _ => trivial) _).mono fun _ _ => ?_)
  rintro fault ⟨⟩
  exact nofun

theorem within_put (root : Path) (stamp : WriterStamp) (key : BlobKey) (value : ByteArray) :
    (put root stamp key value).Within (fun _ => True) fun result =>
      ∀ fault, result = .error fault → fault.IsLater := by
  have hany {α : Type} (program : Program Files α) :
      program.Within (fun _ => True) fun _ => True := within_of_forall (fun _ => trivial) program
  unfold put
  dsimp only
  split
  · rintro fault ⟨⟩
    exact nofun
  · next parent hparent =>
    refine within_bind.2 ((hany _).mono fun made _ => ?_)
    cases made with
    | error refusal =>
        rintro fault ⟨⟩
        exact nofun
    | ok _ =>
        refine within_bind.2 ((hany _).mono fun written _ => ?_)
        cases written with
        | error refusal => exact within_discard _ refusal
        | ok _ =>
            refine within_bind.2 ((hany _).mono fun renamed _ => ?_)
            cases renamed with
            | error refusal => exact within_discard _ refusal
            | ok _ => exact nofun

end DirectoryStore

namespace OpenDatabase

theorem isLater_of_rowsOn {handle : OpenDatabase} {host : Host} {fault : StoreFault}
    (h : handle.rowsOn host = .error fault) : fault.IsLater := by
  unfold rowsOn at h
  split at h
  · cases h
  · split at h
    · cases h
      exact nofun
    · cases h
      exact nofun
  · cases h

theorem isLater_of_put {handle : OpenDatabase} {host : Host} {key : BlobKey} {value : ByteArray}
    {fault : StoreFault} (h : (handle.answer (.put key value) host).1 = .error fault) :
    fault.IsLater := by
  unfold answer at h
  split at h
  · next found hrows =>
    cases h
    exact isLater_of_rowsOn hrows
  · dsimp only at h
    split at h
    · cases h
      exact nofun
    · split at h
      · cases h
        exact nofun
      · cases h

end OpenDatabase

theorem Agent.isOpen : Surroundings.IsOpen Agent.answer := by
  intro key value agent fault h
  have hanswer : (agent.session.store.answer (.put key value) agent.session.host).1 =
      .error fault := h
  cases hstore : agent.session.store with
  | memory blobs =>
      rw [hstore] at hanswer
      cases hanswer
  | transient rows =>
      rw [hstore] at hanswer
      cases hanswer
  | database handle =>
      rw [hstore] at hanswer
      exact OpenDatabase.isLater_of_put hanswer
  | directory root =>
      rw [hstore] at hanswer
      have hput := DirectoryStore.within_put root agent.session.host.stamp.1 key value
      exact hput.fit_perform agent.session.host.stamp.2.files fault hanswer

/-! ## The status of a run -/

namespace Sequence

def statusOf (trials : List Trial) : Status :=
  Status.ofFailed (trials.any Trial.failed)

theorem statusOf_eq_passed_iff {trials : List Trial} :
    statusOf trials = .passed ↔ ∀ trial ∈ trials, trial.failed = false := by
  rw [statusOf, Status.ofFailed]
  split
  · next h =>
    obtain ⟨trial, hmem, hfailed⟩ := List.any_eq_true.1 h
    refine iff_of_false nofun fun hall => ?_
    rw [hall trial hmem] at hfailed
    cases hfailed
  · next h =>
    refine iff_of_true rfl fun trial hmem => ?_
    exact Bool.eq_false_iff.2 fun hfailed => h (List.any_eq_true.2 ⟨trial, hmem, hfailed⟩)

theorem statusOf_congr {trials others : List Trial}
    (h : trials.map Trial.outcome = others.map Trial.outcome) :
    statusOf trials = statusOf others := by
  have hfailed (list : List Trial) : list.any Trial.failed =
      (list.map Trial.outcome).any fun outcome => (recordOf outcome).failed := by
    rw [List.any_map]
    exact congrArg _ (funext fun trial => trial.failed_record.symm)
  rw [statusOf, statusOf, hfailed, hfailed, h]

theorem Aggregates.status_eq {τ : Type} {commands : List Command} {cleanup : Option Command}
    {limit : Duration} {sink : FailureSink τ} {state : τ} {talk : Work.Talk}
    {result : SequenceOutcome × τ} {trials : List Trial}
    (h : Aggregates commands cleanup limit sink state talk result trials) :
    Status.ofFailed result.1.failed = statusOf trials := by
  rw [statusOf, Bool.eq_iff_iff.2 (h.failed.trans List.any_eq_true.symm)]

end Sequence

namespace Commands

/-! ## The two runs -/

section Runs

variable {σ : Type} {answer : Surroundings Work σ}

def printedCode (result : SequenceOutcome × Unit) : UInt8 :=
  codeOf (Status.ofFailed result.1.failed)

def archivedCode : Except RoundFault Status → UInt8
  | .ok status => codeOf status
  | .error fault => (runOnce.fault fault).exitCode

def concluded (status : Status) : Except StoreFault Unit → Except RoundFault Status
  | .ok _ => .ok status
  | .error fault => .error (.store fault)

/-- What a printed run of a plan comes to, which exits with `code`. -/
structure Printed (answer : Surroundings Work σ) (plan : Plan) (s : σ) (trials : List Trial)
    (code : UInt8) : Prop where
  /-- Every command that is not empty has its trial. -/
  aggregates : Aggregates plan.commands plan.cleanup plan.cleanupTimeout FailureSink.stdout ()
    ((printedRun plan).talk answer s) ((printedRun plan).perform answer s).1 trials
  passed : code = 0 ↔ ∀ trial ∈ trials, trial.failed = false
  failed : code = 1 ↔ ∃ trial ∈ trials, trial.failed = true

/-- What an archived run of a plan comes to, which exits with `code`: at the end the status is
written, with the given reply. -/
structure Archived (answer : Surroundings Work σ) (plan : Plan) (id : WorkUnitId) (s : σ)
    (trials : List Trial) (reply : Except StoreFault Unit) (code : UInt8) : Prop where
  /-- Every command that is not empty has its trial, and the status is written after that. -/
  aggregates : ∃ talk result,
    Aggregates plan.commands plan.cleanup plan.cleanupTimeout (FailureSink.archive id) 0 talk result
        trials ∧
      (archivedRun plan id).run.talk answer s = talk ++ [⟨report id (statusOf trials), reply⟩]
  passed : code = 0 ↔ reply = .ok () ∧ ∀ trial ∈ trials, trial.failed = false
  failed : code = 1 ↔ reply ≠ .ok () ∨ ∃ trial ∈ trials, trial.failed = true
  /-- When the status was taken, what is stored tells whether the run has passed. -/
  stored : reply = .ok () → ∀ held : σ → Option ByteArray,
    (∀ value t, (answer (.store (.put (BlobKey.status id) value)) t).1 = .ok () →
      held (answer (.store (.put (BlobKey.status id) value)) t).2 = some value) →
    (held ((archivedRun plan id).run.perform answer s).2 = some "0".toUTF8 ↔ code = 0)

theorem codeOf_eq_one_iff {status : Status} : codeOf status = 1 ↔ ¬status = .passed := by
  cases status <;> decide

theorem not_passed_iff {trials : List Trial} :
    ¬statusOf trials = .passed ↔ ∃ trial ∈ trials, trial.failed = true := by
  simp only [statusOf_eq_passed_iff, Classical.not_forall, exists_prop, Bool.not_eq_false]

theorem archivedCode_refused {fault : StoreFault} (h : fault.IsLater) :
    archivedCode (.error (.store fault)) = 1 := by
  cases fault with
  | invalidSpec text => exact absurd rfl (h text)
  | _ => rfl

theorem payload_eq_zero_iff {status : Status} :
    some status.payload = some "0".toUTF8 ↔ status = .passed := by
  cases status with
  | passed => exact iff_of_true rfl rfl
  | failed => exact iff_of_false (by decide) nofun

variable (plan : Plan) (id : WorkUnitId) (s : σ)

theorem perform_archivedRun {status : Status} {result : SequenceOutcome × Nat} {t : σ}
    (hrun : (runPlan plan (FailureSink.archive id) 0).perform answer s = (result, t))
    (hstatus : Status.ofFailed result.1.failed = status) :
    (archivedRun plan id).run.perform answer s =
        (concluded status (answer (report id status) t).1, (answer (report id status) t).2) ∧
      (archivedRun plan id).run.talk answer s =
        (runPlan plan (FailureSink.archive id) 0).talk answer s ++
          [⟨report id status, (answer (report id status) t).1⟩] := by
  subst hstatus
  rw [archivedRun, WorkM.perform_lift_bind hrun, WorkM.talk_lift_bind hrun]
  dsimp only
  rw [ExceptT.run_bind, perform_bind, talk_bind, Archive.writeStatus, (Work.perform_call _ t).1,
    (Work.perform_call _ t).2]
  cases (answer (report id (Status.ofFailed result.1.failed)) t).1 with
  | ok _ => exact ⟨rfl, rfl⟩
  | error fault => exact ⟨rfl, rfl⟩

theorem exists_printed (hruns : Surroundings.RunsAll answer) :
    ∃ trials, Printed answer plan s trials
      (printedCode ((printedRun plan).perform answer s).1) := by
  obtain ⟨trials, htrials⟩ := exists_aggregates FailureSink.stdout hruns plan.commands plan.cleanup
    plan.cleanupTimeout () s
  have hcode : printedCode ((printedRun plan).perform answer s).1 = codeOf (statusOf trials) :=
    congrArg codeOf htrials.status_eq
  refine ⟨trials, htrials, ?_, ?_⟩
  · rw [hcode, codeOf_eq_zero_iff, statusOf_eq_passed_iff]
  · rw [hcode, codeOf_eq_one_iff, not_passed_iff]

theorem exists_archived (hruns : Surroundings.RunsAll answer)
    (hopen : Surroundings.IsOpen answer) :
    ∃ trials reply, Archived answer plan id s trials reply
      (archivedCode ((archivedRun plan id).run.perform answer s).1) := by
  obtain ⟨trials, htrials⟩ := exists_aggregates (FailureSink.archive id) hruns plan.commands
    plan.cleanup plan.cleanupTimeout 0 s
  rcases hrun : (runPlan plan (FailureSink.archive id) 0).perform answer s with ⟨result, t⟩
  have hstatus : Status.ofFailed result.1.failed = statusOf trials := by
    have hran := htrials.status_eq
    rwa [← runPlan, hrun] at hran
  obtain ⟨hperform, htalk⟩ := perform_archivedRun plan id s hrun hstatus
  rcases hput : answer (report id (statusOf trials)) t with ⟨reply, u⟩
  rw [hput] at hperform htalk
  have hcode : archivedCode ((archivedRun plan id).run.perform answer s).1 =
      archivedCode (concluded (statusOf trials) reply) := by rw [hperform]
  rw [hcode]
  refine ⟨trials, reply, ⟨_, _, htrials, htalk⟩, ?_, ?_, ?_⟩
  · cases reply with
    | ok _ =>
        rw [← statusOf_eq_passed_iff, ← codeOf_eq_zero_iff]
        exact ⟨fun h => ⟨rfl, h⟩, And.right⟩
    | error fault =>
        have hlater : fault.IsLater := hopen _ _ t fault (congrArg Prod.fst hput)
        rw [concluded, archivedCode_refused hlater]
        exact iff_of_false (by decide) fun h => nomatch h.1
  · cases reply with
    | ok _ =>
        rw [← not_passed_iff, ← codeOf_eq_one_iff]
        exact ⟨.inr, fun h => h.resolve_left fun hrefused => hrefused rfl⟩
    | error fault =>
        have hlater : fault.IsLater := hopen _ _ t fault (congrArg Prod.fst hput)
        rw [concluded, archivedCode_refused hlater]
        exact iff_of_true rfl (.inl nofun)
  · rintro rfl held hheld
    have hlast : held u = some (statusOf trials).payload := by
      have htaken := hheld (statusOf trials).payload t (congrArg Prod.fst hput)
      rwa [show answer (.store (.put (BlobKey.status id) (statusOf trials).payload)) t = (.ok (), u)
        from hput] at htaken
    rw [hperform, hlast, payload_eq_zero_iff]
    exact codeOf_eq_zero_iff.symm

variable {plan id s}

/-- Both runs exit alike when the same came of each command and the status was taken. -/
theorem Printed.code_eq {τ : Type} {other : Surroundings Work τ} {t : τ}
    {trials others : List Trial} {code found : UInt8} (hprinted : Printed answer plan s trials code)
    (harchived : Archived other plan id t others (.ok ()) found)
    (hsame : trials.map Trial.outcome = others.map Trial.outcome) : code = found := by
  have hstatus : statusOf trials = statusOf others := statusOf_congr hsame
  by_cases hpassed : statusOf trials = .passed
  · have hcode : code = 0 := hprinted.passed.2 (statusOf_eq_passed_iff.1 hpassed)
    have hfound : found = 0 :=
      harchived.passed.2 ⟨rfl, statusOf_eq_passed_iff.1 (hstatus ▸ hpassed)⟩
    rw [hcode, hfound]
  · have hcode : code = 1 := hprinted.failed.2 (not_passed_iff.1 hpassed)
    have hfound : found = 1 := harchived.failed.2 (.inr (not_passed_iff.1 (hstatus ▸ hpassed)))
    rw [hcode, hfound]

end Runs

/-! ## The time that is given -/

section Times

variable {τ : Type} {limit : Duration}

/-- A command is run under the common limit, or under this one. -/
def KeepsTo (limit : Duration) : WorkRequest → Prop
  | .run _ own => own = none ∨ own = some limit
  | _ => True

theorem within_runCommands {sink : FailureSink τ}
    (hsink : ∀ state label command record,
      (sink.accept state label command record).Within (KeepsTo limit) fun _ => True)
    (commands : List Command) (outcome : SequenceOutcome) (state : τ) :
    (runCommands sink commands outcome state).Within (KeepsTo limit) fun _ => True := by
  induction commands generalizing outcome state with
  | nil => trivial
  | cons command rest ih =>
      rw [runCommands]
      split
      · exact ih outcome state
      next label hlabel =>
      have hrecord : (record command).Within (KeepsTo limit) fun _ => True :=
        within_ask.2 fun reply => ⟨.inl rfl, by cases reply <;> trivial⟩
      refine within_bind.2 (hrecord.mono fun found _ => ?_)
      split
      · exact ih outcome state
      · dsimp only
        split
        · exact within_bind.2 ((hsink _ _ _ _).mono fun next _ => ih _ next)
        · exact ih _ state

/-- A plan is run under the common limit, but for the cleanup, which has its own. -/
theorem within_runPlan {sink : FailureSink τ} (plan : Plan)
    (hsink : ∀ state label command record, (sink.accept state label command record).Within
      (KeepsTo plan.cleanupTimeout) fun _ => True) (state : τ) :
    (runPlan plan sink state).Within (KeepsTo plan.cleanupTimeout) fun _ => True := by
  refine within_bind.2 ((within_runCommands hsink _ _ _).mono fun result _ => ?_)
  have hcleanup : (runCleanup plan.cleanup plan.cleanupTimeout).Within
      (KeepsTo plan.cleanupTimeout) fun _ => True := by
    cases plan.cleanup with
    | none => trivial
    | some command => exact within_ask.2 fun _ => ⟨.inr rfl, trivial⟩
  exact within_bind.2 (hcleanup.mono fun _ _ => trivial)

theorem within_printedRun (plan : Plan) :
    (printedRun plan).Within (KeepsTo plan.cleanupTimeout) fun _ => True := by
  have hprint (text : ByteArray) :
      (Work.print text).Within (KeepsTo plan.cleanupTimeout) fun _ => True :=
    within_ask.2 fun _ => ⟨trivial, trivial⟩
  exact within_runPlan plan (fun _ _ _ _ => hprint _) ()

theorem within_archivedRun (plan : Plan) (id : WorkUnitId) :
    (archivedRun plan id).run.Within (KeepsTo plan.cleanupTimeout) fun _ => True := by
  have hsink : ∀ errors label command record,
      ((FailureSink.archive id).accept errors label command record).Within
        (KeepsTo plan.cleanupTimeout) fun _ => True := by
    intro errors label command record
    refine within_bind.2 ((Work.within_ofStorage (fun _ => trivial) _).mono fun result _ => ?_)
    cases result <;> trivial
  have hrun : (ExceptT.lift (runPlan plan (FailureSink.archive id) 0) :
      WorkM (SequenceOutcome × Nat)).run.Within (KeepsTo plan.cleanupTimeout) fun _ => True :=
    within_bind.2 ((within_runPlan plan hsink 0).mono fun _ _ => trivial)
  refine WorkM.within_bind (hrun.mono fun _ _ found _ => ?_) fun _ => trivial
  refine WorkM.within_bind (Within.mono (Work.within_store (fun _ => trivial) _) ?_)
    fun _ => trivial
  exact fun _ _ _ _ => trivial

def longestTime (setting : Setting) (plan : Plan) : Nat :=
  max (max (commandTimeout setting plan).toNanos plan.cleanupTimeout.toNanos)
    RunnerSettings.standard.killGrace.toNanos

variable {setting : Setting} {plan : Plan} {store : OpenStore} {terminal : Terminal}

theorem longest_le_of_keepsTo {command : Command} {own : Option Duration}
    (h : KeepsTo plan.cleanupTimeout (.run command own)) :
    ((agentOf setting plan store SourceWatch.empty terminal).settingsFor own).longest ≤
      longestTime setting plan := by
  rcases h with rfl | rfl
  · exact max_le_max (Nat.le_max_left _ _) (Nat.le_refl _)
  · exact max_le_max (Nat.le_max_right _ _) (Nat.le_refl _)

end Times

/-! ## The commands -/

/-- A run on a host that gets to its end has its verdict.  One that breaks off has given a command a
time that goes on for longer than the clock, and exits with a code of its own. -/
structure Concludes {α : Type} (agent : Agent) (program : Program Work α) (longest : Nat)
    (code : UInt8) (verdict : Prop) : Prop where
  ended : ∀ value after, agent.work program = (.ok value, after) → verdict
  brokenOff : ∀ panic after, agent.work program = (.error panic, after) →
    code = 101 ∧ Supervision.clockEnd ≤ after.session.host.kernel.clock + longest

section Once

variable {setting : Setting} {id : Option String} {plan : Plan} {terminal : Terminal}

/-- How a run ends that was made by an agent, when `ending` tells how it ends by what it came to. -/
def endOf {α : Type} (ending : α → Except CommandFault CommandEnd) :
    Except Panic α → Except CommandFault CommandEnd
  | .ok value => ending value
  | .error panic => .error (.panicked panic)

theorem run_runOnce_printed {loaded : Terminal}
    (h : (loadPlan setting true).run.run terminal = (.ok plan, loaded)) :
    ((runOnce setting false id).run.run terminal).1 =
      endOf (fun result => .ok (.exited (printedCode result)))
        ((agentOf setting plan (.memory StringMap.empty) SourceWatch.empty loaded).work
          (printedRun plan)).1 := by
  rw [runOnce, CommandM.run_bind_of_ok h, if_neg Bool.false_ne_true]
  rcases hwork : (agentOf setting plan (.memory StringMap.empty) SourceWatch.empty loaded).work
    (printedRun plan) with ⟨panic | result, agent⟩
  · rw [CommandM.run_bind_of_error (run_asAgent_of_error hwork)]
    rfl
  · rw [CommandM.run_bind_of_ok (run_asAgent_of_ok hwork)]
    rfl

def archivedEnd : Except RoundFault Status → Except CommandFault CommandEnd
  | .ok status => .ok (.exited (codeOf status))
  | .error fault => .error (runOnce.fault fault)

theorem exitOf_archivedEnd (result : Except RoundFault Status) :
    exitOf (archivedEnd result) = archivedCode result := by
  cases result <;> rfl

theorem archivedEnd_ne_relaunch (result : Except RoundFault Status) :
    archivedEnd result ≠ .ok .relaunch := by
  cases result <;> nofun

theorem run_runOnce_archived {store : OpenStore} {unit : WorkUnitId} {started : Terminal}
    (h : (ready setting true id).run.run terminal = (.ok (plan, store, unit), started)) :
    ((runOnce setting true id).run.run terminal).1 =
      endOf archivedEnd ((agentOf setting plan store SourceWatch.empty started).work
        (archivedRun plan unit).run).1 := by
  obtain ⟨loaded, opened, hplan, hstore, hunit⟩ := run_ready_eq_ok_iff.1 h
  rw [runOnce, CommandM.run_bind_of_ok hplan, if_pos rfl, CommandM.run_bind_of_ok hstore,
    CommandM.run_bind_of_ok hunit]
  rcases hwork : (agentOf setting plan store SourceWatch.empty started).work
    (archivedRun plan unit).run with ⟨panic | fault | status, agent⟩
  · rw [CommandM.run_bind_of_error (run_asAgent_of_error hwork)]
    rfl
  · rw [CommandM.run_bind_of_ok (run_asAgent_of_ok hwork)]
    rfl
  · rw [CommandM.run_bind_of_ok (run_asAgent_of_ok hwork)]
    rfl

/-- A run that ends at all has had its plan, and in the archive mode its store and its unit. -/
theorem ready_of_run_runOnce {archive : Bool} {ending : CommandEnd} {after : Terminal}
    (h : (runOnce setting archive id).run.run terminal = (.ok ending, after)) :
    ∃ plan loaded, (loadPlan setting true).run.run terminal = (.ok plan, loaded) ∧
      (archive = true → ∃ store unit started,
        (ready setting true id).run.run terminal = (.ok (plan, store, unit), started)) := by
  obtain ⟨plan, loaded, hplan, h⟩ := CommandM.run_bind_eq_ok_iff.1 h
  refine ⟨plan, loaded, hplan, ?_⟩
  rintro rfl
  rw [if_pos rfl] at h
  obtain ⟨store, opened, hstore, h⟩ := CommandM.run_bind_eq_ok_iff.1 h
  obtain ⟨unit, started, hunit, h⟩ := CommandM.run_bind_eq_ok_iff.1 h
  exact ⟨store, unit, started, run_ready_eq_ok_iff.2 ⟨loaded, opened, hplan, hstore, hunit⟩⟩

theorem carryOut_runOnce {options : CommandOptions} {archive : Bool} {set : Terminal}
    (honce : options.subcommand = .runOnce archive id)
    (hset : (settingOf options).run.run terminal = (.ok setting, set)) :
    (carryOut options).run.run terminal = (runOnce setting archive id).run.run set := by
  rw [carryOut, CommandM.run_bind_of_ok hset, honce]

section ExitCode

variable {arguments : List String} {relaunches : Nat} {options : CommandOptions} {set : Terminal}
  (hread : CommandLine.read terminal.host.env arguments = some (.command options))
include hread

/-- A printed run on a host exits by its status, or breaks off. -/
theorem concludes_printed {loaded : Terminal} (honce : options.subcommand = .runOnce false id)
    (hset : (settingOf options).run.run terminal = (.ok setting, set))
    (hplan : (loadPlan setting true).run.run set = (.ok plan, loaded)) :
    Concludes (agentOf setting plan (.memory StringMap.empty) SourceWatch.empty loaded)
      (printedRun plan) (longestTime setting plan) (run arguments relaunches terminal).1.exitCode
      (∃ trials, Printed Agent.answer plan
        (agentOf setting plan (.memory StringMap.empty) SourceWatch.empty loaded) trials
        (run arguments relaunches terminal).1.exitCode) := by
  have hrun := (congrArg Prod.fst (carryOut_runOnce honce hset)).trans (run_runOnce_printed hplan)
  refine ⟨fun result after hwork => ?_, fun panic after hwork => ⟨?_, ?_⟩⟩
  · rw [hwork] at hrun
    have hcode : (run arguments relaunches terminal).1.exitCode = printedCode result :=
      exitCode_run hread hrun nofun
    obtain ⟨trials, hprinted⟩ := exists_printed plan
      (agentOf setting plan (.memory StringMap.empty) SourceWatch.empty loaded) Agent.runsAll
    have hresult := congrArg Prod.fst (Agent.perform_of_work hwork)
    exact ⟨trials, hcode.trans (congrArg printedCode hresult.symm) ▸ hprinted⟩
  · rw [hwork] at hrun
    exact exitCode_run hread hrun nofun
  · exact Agent.clockEnd_le_of_work (within_printedRun plan)
      (fun _ _ => longest_le_of_keepsTo) hwork

/-- An archived run on a host exits by its status, or breaks off. -/
theorem concludes_archived {store : OpenStore} {unit : WorkUnitId} {started : Terminal}
    (honce : options.subcommand = .runOnce true id)
    (hset : (settingOf options).run.run terminal = (.ok setting, set))
    (hready : (ready setting true id).run.run set = (.ok (plan, store, unit), started)) :
    Concludes (agentOf setting plan store SourceWatch.empty started) (archivedRun plan unit).run
      (longestTime setting plan) (run arguments relaunches terminal).1.exitCode
      (∃ trials reply, Archived Agent.answer plan unit
        (agentOf setting plan store SourceWatch.empty started) trials reply
        (run arguments relaunches terminal).1.exitCode) := by
  have hrun := (congrArg Prod.fst (carryOut_runOnce honce hset)).trans
    (run_runOnce_archived hready)
  refine ⟨fun result after hwork => ?_, fun panic after hwork => ⟨?_, ?_⟩⟩
  · rw [hwork] at hrun
    have hcode : (run arguments relaunches terminal).1.exitCode = archivedCode result :=
      (exitCode_run hread hrun (archivedEnd_ne_relaunch _)).trans (exitOf_archivedEnd _)
    obtain ⟨trials, reply, harchived⟩ := exists_archived plan unit
      (agentOf setting plan store SourceWatch.empty started) Agent.runsAll Agent.isOpen
    have hresult := congrArg Prod.fst (Agent.perform_of_work hwork)
    exact ⟨trials, reply, hcode.trans (congrArg archivedCode hresult.symm) ▸ harchived⟩
  · rw [hwork] at hrun
    exact exitCode_run hread hrun nofun
  · exact Agent.clockEnd_le_of_work (within_archivedRun plan unit)
      (fun _ _ => longest_le_of_keepsTo) hwork

/-- The program exits with 0 only when the plan was read, and in the archive mode the store was
opened and the unit found. -/
theorem ready_of_exitCode_eq_zero {archive : Bool}
    (honce : options.subcommand = .runOnce archive id)
    (hexit : (run arguments relaunches terminal).1.exitCode = 0) :
    ∃ setting set plan loaded, (settingOf options).run.run terminal = (.ok setting, set) ∧
      (loadPlan setting true).run.run set = (.ok plan, loaded) ∧
      (archive = true → ∃ store unit started,
        (ready setting true id).run.run set = (.ok (plan, store, unit), started)) := by
  rcases hcarried : (carryOut options).run.run terminal with ⟨fault | ending, after⟩
  · rw [exitCode_run hread (congrArg Prod.fst hcarried) nofun] at hexit
    exact absurd hexit fault.exitCode_ne_zero
  · obtain ⟨setting, set, hset, hending⟩ := CommandM.run_bind_eq_ok_iff.1 hcarried
    rw [honce] at hending
    obtain ⟨plan, loaded, hplan, hready⟩ := ready_of_run_runOnce hending
    exact ⟨setting, set, plan, loaded, hset, hplan, hready⟩

end ExitCode

end Once

/-- Take any plan, and any surroundings whose runner gives a record or a fault for every command
that is not empty.  A run of the plan that is printed exits with 0 when every such command has
passed, and with 1 when one has failed, was timed out or could not be supervised.  So does a run
that is archived, whatever puts are refused, when the write of its status is taken; then what is
stored is `0` exactly when it exits with 0.  When that write is refused it exits with 1.  Both runs
exit alike when the same came of each command and the status was taken.  On a host the program does
the one or the other once it has its plan, its store and its unit, and exits with 0 in no other
case; but there the run breaks off, with an exit code that is none of these, when a command is seen
running whose time goes on for longer than the clock. -/
theorem one_verdict (plan : Plan) :
    (∀ {σ : Type} {answer : Surroundings Work σ}, Surroundings.RunsAll answer →
      ∀ s : σ, ∃ trials,
        Printed answer plan s trials (printedCode ((printedRun plan).perform answer s).1)) ∧
    (∀ {σ : Type} {answer : Surroundings Work σ}, Surroundings.RunsAll answer →
      Surroundings.IsOpen answer → ∀ (id : WorkUnitId) (s : σ), ∃ trials reply,
        Archived answer plan id s trials reply
          (archivedCode ((archivedRun plan id).run.perform answer s).1)) ∧
    (∀ {σ τ : Type} {answer : Surroundings Work σ} {other : Surroundings Work τ}
      {id : WorkUnitId} {s : σ} {t : τ} {trials others : List Trial} {code found : UInt8},
      Printed answer plan s trials code → Archived other plan id t others (.ok ()) found →
        trials.map Trial.outcome = others.map Trial.outcome → code = found) ∧
    ∀ (arguments : List String) (relaunches : Nat) (terminal : Terminal)
      (options : CommandOptions) (archive : Bool) (id : Option String),
      CommandLine.read terminal.host.env arguments = some (.command options) →
      options.subcommand = .runOnce archive id →
        (∀ setting set loaded, (settingOf options).run.run terminal = (.ok setting, set) →
          archive = false → (loadPlan setting true).run.run set = (.ok plan, loaded) →
            Concludes (agentOf setting plan (.memory StringMap.empty) SourceWatch.empty loaded)
              (printedRun plan) (longestTime setting plan)
              (run arguments relaunches terminal).1.exitCode
              (∃ trials, Printed Agent.answer plan
                (agentOf setting plan (.memory StringMap.empty) SourceWatch.empty loaded) trials
                (run arguments relaunches terminal).1.exitCode)) ∧
        (∀ setting set store unit started,
          (settingOf options).run.run terminal = (.ok setting, set) → archive = true →
          (ready setting true id).run.run set = (.ok (plan, store, unit), started) →
            Concludes (agentOf setting plan store SourceWatch.empty started)
              (archivedRun plan unit).run (longestTime setting plan)
              (run arguments relaunches terminal).1.exitCode
              (∃ trials reply, Archived Agent.answer plan unit
                (agentOf setting plan store SourceWatch.empty started) trials reply
                (run arguments relaunches terminal).1.exitCode)) ∧
        ((run arguments relaunches terminal).1.exitCode = 0 →
          ∃ setting set found loaded, (settingOf options).run.run terminal = (.ok setting, set) ∧
            (loadPlan setting true).run.run set = (.ok found, loaded) ∧
            (archive = true → ∃ store unit started,
              (ready setting true id).run.run set = (.ok (found, store, unit), started))) := by
  refine ⟨?_, ?_, ?_, ?_⟩
  · exact fun hruns s => exists_printed plan s hruns
  · exact fun hruns hopen id s => exists_archived plan id s hruns hopen
  · exact fun hprinted harchived hsame => hprinted.code_eq harchived hsame
  · intro arguments relaunches terminal options archive id hread honce
    refine ⟨?_, ?_, ?_⟩
    · rintro setting set loaded hset rfl hplan
      exact concludes_printed hread honce hset hplan
    · rintro setting set store unit started hset rfl hready
      exact concludes_archived hread honce hset hready
    · intro hexit
      exact ready_of_exitCode_eq_zero hread honce hexit

def mixedPlan : Plan := { Plan.empty with commands := mixedCommands }
def passingPlan : Plan :=
  { Plan.empty with commands := [["true"], []].map fun argv => ⟨argv, StringMap.empty⟩ }

theorem isOpen_flakyArchive : Surroundings.IsOpen flakyArchive := by
  intro key value puts fault h
  have hreply : (if puts = 1 then .error .poisoned else .ok () : Except StoreFault Unit) =
      .error fault := h
  split at hreply
  · cases hreply
    exact nofun
  · cases hreply

theorem map_some_injective {outcome other : Except RunFault ExecutionRecord}
    (h : outcome.map some = other.map some) : outcome = other := by
  cases outcome with
  | ok record =>
      cases other with
      | ok found =>
        cases h
        rfl
      | error fault => cases h
  | error fault =>
      cases other with
      | ok found => cases h
      | error found =>
        cases h
        rfl

theorem outcomes_on_flakyArchive {τ : Type} {commands : List Command} {cleanup : Option Command}
    {limit : Duration} {sink : FailureSink τ} {state : τ} {talk : Work.Talk}
    {result : SequenceOutcome × τ} {trials : List Trial}
    (h : Aggregates commands cleanup limit sink state talk result trials)
    (hsaid : ∀ said ∈ talk, ∃ puts, said.2 = (flakyArchive said.1 puts).1) :
    trials.map Trial.outcome =
      (commands.filter fun command => !command.isEmpty).map mixedOutcome := by
  have houtcome : ∀ trial ∈ trials, trial.outcome = mixedOutcome trial.command := by
    intro trial hmem
    obtain ⟨tail, -, htalk⟩ := h.told
    have hrun : ⟨.run trial.command none, trial.outcome.map some⟩ ∈ talk := by
      rw [htalk]
      exact List.mem_append_left _ (List.mem_flatMap.2 ⟨trial, hmem, List.mem_cons_self⟩)
    obtain ⟨puts, hanswer⟩ := hsaid _ hrun
    exact map_some_injective hanswer
  rw [← h.reached, List.map_map]
  exact List.map_congr_left houtcome

def replyToPut : Sigma WorkRequest.Answer → Option (Except StoreFault Unit)
  | ⟨.store (.put _ _), reply⟩ => some reply
  | _ => none

theorem Archived.reply_eq {σ : Type} {answer : Surroundings Work σ} {plan : Plan}
    {id : WorkUnitId} {s : σ} {trials : List Trial} {reply : Except StoreFault Unit} {code : UInt8}
    (h : Archived answer plan id s trials reply code) :
    ((archivedRun plan id).run.talk answer s).getLast?.bind replyToPut = some reply := by
  obtain ⟨talk, result, -, htalk⟩ := h.aggregates
  rw [htalk, List.getLast?_concat]
  rfl

theorem Concludes.verdict {α : Type} {agent : Agent} {program : Program Work α} {longest : Nat}
    {code : UInt8} {verdict : Prop} (h : Concludes agent program longest code verdict)
    (hcode : code ≠ 101) : verdict := by
  rcases hwork : agent.work program with ⟨panic | value, after⟩
  · exact absurd (h.brokenOff panic after hwork).1 hcode
  · exact h.ended value after hwork

def bench (plan : String) : Terminal where
  host :=
    { kernel :=
        { files :=
            { entries := [([.named "true"], .tool "true"), ([.named "false"], .tool "false"),
                ([.named "sleep"], .tool "sleep"), ([.named "tmp"], .directory),
                ([.named "plan.json"], .file 0 plan.toUTF8 FileTree.plainMode)]
              nextId := 1 }
          clock := 0, streams := [], pipes := [], nameless := [], tasks := [Task.outer 1000 []]
          nextProcess := 1001, nextStream := 1 }
      cwd := [], process := 1000, serial := 0, tag := "1", env := StringMap.empty }
  git := { installed := false, home := [], replies := [], calls := [] }
  printed := ByteArray.empty

def onceArguments : List String := ["run-once", "--repo", "/", "--plan", "/plan.json"]
def archiveArguments : List String :=
  onceArguments ++ ["--archive", "--id", "batch", "--store", "dir:/d"]

def onceOptions : CommandOptions where
  store := none
  plan := some ⟨"/plan.json"⟩
  repo := some ⟨"/"⟩
  branch := "master"
  pollSecs := 30
  commandTimeoutSecs := none
  watch := []
  subcommand := .runOnce false none
def archiveOptions : CommandOptions :=
  { onceOptions with store := some "dir:/d", subcommand := .runOnce true (some "batch") }

/-- The texts of a plan with a command that passes, of one with another that fails, and of one with
a command that has all the time of the clock. -/
def passingText : String := "\x7b\"commands\":[[\"/true\"],[]]\x7d"
def failingText : String := "\x7b\"commands\":[[\"/true\"],[\"/false\"]]\x7d"
def boundlessText : String :=
  "\x7b\"commands\":[[\"/sleep\",\"1\"]],\"command_timeout_s\":9223372036854775808\x7d"

theorem read_onceArguments (plan : String) :
    CommandLine.read (bench plan).host.env onceArguments = some (.command onceOptions) := by
  change CommandLine.read StringMap.empty onceArguments = _
  decide +kernel

theorem read_archiveArguments (plan : String) :
    CommandLine.read (bench plan).host.env archiveArguments = some (.command archiveOptions) := by
  change CommandLine.read StringMap.empty archiveArguments = _
  decide +kernel

def loading (options : CommandOptions) : CommandM Plan := do
  loadPlan (← settingOf options) true

theorem exists_loaded (options : CommandOptions) (terminal : Terminal)
    (h : ((loading options).run.run terminal).1.toOption.isSome = true) :
    ∃ setting set plan loaded, (settingOf options).run.run terminal = (.ok setting, set) ∧
      (loadPlan setting true).run.run set = (.ok plan, loaded) := by
  rcases hloading : (loading options).run.run terminal with ⟨fault | plan, loaded⟩
  · rw [hloading] at h
    cases h
  · obtain ⟨setting, set, hset, hplan⟩ := CommandM.run_bind_eq_ok_iff.1 hloading
    exact ⟨setting, set, plan, loaded, hset, hplan⟩

/-- Two of three commands fail, and both runs exit with 1, though a log could not be archived.  A
run that passes exits with 0, unless its status is refused.  On a host, too, a run that is printed
fails with one of its commands, and one that is archived passes. -/
theorem one_verdict_on_mixed :
    (∃ trials others code, Printed flakyArchive mixedPlan 0 trials code ∧
      Archived flakyArchive mixedPlan batch 0 others (.ok ()) code ∧ code = 1) ∧
    (∃ trials, Archived flakyArchive passingPlan batch 0 trials (.ok ()) 0) ∧
    (∃ trials, Archived flakyArchive passingPlan batch 1 trials (.error .poisoned) 1) ∧
    (∃ plan agent trials, Printed Agent.answer plan agent trials 1 ∧
      (run onceArguments 0 (bench failingText)).1.exitCode = 1) ∧
    ∃ plan agent unit trials reply, Archived Agent.answer plan unit agent trials reply 0 ∧
      (run archiveArguments 0 (bench passingText)).1.exitCode = 0 := by
  obtain ⟨hprinted, harchived, hsame, -⟩ := one_verdict mixedPlan
  obtain ⟨-, hpassing, -, -⟩ := one_verdict passingPlan
  refine ⟨?_, ?_, ?_, ?_, ?_⟩
  · obtain ⟨trials, hprinted⟩ := hprinted runsAll_flakyArchive 0
    obtain ⟨others, reply, harchived⟩ :=
      harchived runsAll_flakyArchive isOpen_flakyArchive batch 0
    have hreply : ((archivedRun mixedPlan batch).run.talk flakyArchive 0).getLast?.bind
        replyToPut = some (.ok ()) := rfl
    obtain rfl : reply = .ok () := Option.some.inj (harchived.reply_eq.symm.trans hreply)
    obtain ⟨talk, result, hran, htalk⟩ := harchived.aggregates
    have houtcomes : trials.map Trial.outcome = others.map Trial.outcome := by
      rw [outcomes_on_flakyArchive hprinted.aggregates (exists_answer _ _),
        outcomes_on_flakyArchive hran fun said hmem => exists_answer _ _ said
          (htalk ▸ List.mem_append_left _ hmem)]
    rw [hsame hprinted harchived houtcomes] at hprinted
    refine ⟨trials, others, _, hprinted, harchived, ?_⟩
    decide +kernel
  · obtain ⟨trials, reply, h⟩ := hpassing runsAll_flakyArchive isOpen_flakyArchive batch 0
    have hreply : ((archivedRun passingPlan batch).run.talk flakyArchive 0).getLast?.bind
        replyToPut = some (.ok ()) := rfl
    have hcode : archivedCode ((archivedRun passingPlan batch).run.perform flakyArchive 0).1 = 0 := by
      decide +kernel
    obtain rfl : reply = .ok () := Option.some.inj (h.reply_eq.symm.trans hreply)
    exact ⟨trials, hcode ▸ h⟩
  · obtain ⟨trials, reply, h⟩ := hpassing runsAll_flakyArchive isOpen_flakyArchive batch 1
    have hreply : ((archivedRun passingPlan batch).run.talk flakyArchive 1).getLast?.bind
        replyToPut = some (.error .poisoned) := rfl
    have hcode : archivedCode ((archivedRun passingPlan batch).run.perform flakyArchive 1).1 = 1 := by
      decide +kernel
    obtain rfl : reply = .error .poisoned := Option.some.inj (h.reply_eq.symm.trans hreply)
    exact ⟨trials, hcode ▸ h⟩
  · have hexit : (run onceArguments 0 (bench failingText)).1.exitCode = 1 := by decide +kernel
    obtain ⟨setting, set, plan, loaded, hset, hplan⟩ :=
      exists_loaded onceOptions (bench failingText) (by decide +kernel)
    obtain ⟨-, -, -, hhost⟩ := one_verdict plan
    have hconcludes := (hhost onceArguments 0 (bench failingText) onceOptions false none
      (read_onceArguments _) rfl).1 setting set loaded hset rfl hplan
    obtain ⟨trials, h⟩ := hconcludes.verdict (by rw [hexit]; decide)
    exact ⟨plan, _, trials, hexit ▸ h, hexit⟩
  · have hexit : (run archiveArguments 0 (bench passingText)).1.exitCode = 0 := by decide +kernel
    obtain ⟨-, -, -, hhost⟩ := one_verdict passingPlan
    obtain ⟨-, -, hzero⟩ := hhost archiveArguments 0 (bench passingText) archiveOptions true
      (some "batch") (read_archiveArguments _) rfl
    obtain ⟨setting, set, plan, loaded, hset, -, hstarted⟩ := hzero hexit
    obtain ⟨store, unit, started, hstarted⟩ := hstarted rfl
    obtain ⟨-, -, -, hhost⟩ := one_verdict plan
    have hconcludes := (hhost archiveArguments 0 (bench passingText) archiveOptions true
      (some "batch") (read_archiveArguments _) rfl).2.1 setting set store unit started hset rfl hstarted
    obtain ⟨trials, reply, h⟩ := hconcludes.verdict (by rw [hexit]; decide)
    exact ⟨_, _, _, trials, reply, hexit ▸ h, hexit⟩

/-- A plan that loads gives no verdict when the time of its command goes on for as long as the
clock: the run exits with neither 0 nor 1, though the command would pass. -/
theorem verdict_lost_in_overflow :
    ∃ setting set plan loaded,
      (settingOf onceOptions).run.run (bench boundlessText) = (.ok setting, set) ∧
      (loadPlan setting true).run.run set = (.ok plan, loaded) ∧
      (run onceArguments 0 (bench boundlessText)).1.exitCode = 101 := by
  obtain ⟨setting, set, plan, loaded, hset, hplan⟩ :=
    exists_loaded onceOptions (bench boundlessText) (by decide +kernel)
  exact ⟨setting, set, plan, loaded, hset, hplan, by decide +kernel⟩

end Commands

end Handoff
