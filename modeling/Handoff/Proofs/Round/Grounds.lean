import Handoff.Proofs.Conversation
import Handoff.Proofs.Round.Visibility
/-!
# The grounds of a verdict

What the exchanges of a poll say at each of its stages: which checkout it asked for, which
commands of the plan it has run, and that a status is written only when one or the other
bears it out.
-/

namespace Handoff

open WorkRequest

structure CommandRun where
  command : Command
  answer : Except RunFault (Option ExecutionRecord)

def CommandRun.failed (run : CommandRun) : Bool :=
  Exchange.isFailedRun ⟨.run run.command none, run.answer⟩

namespace Exchange

/-- The run of a command of the plan.  The cleanup has a limit of its own. -/
def planRun? : Exchange → Option CommandRun
  | ⟨.run command none, answer⟩ => some ⟨command, answer⟩
  | _ => none

def checkOut? : Exchange → Option (WorkUnitId × Except VcsFault (Option WorkUnitId))
  | ⟨.checkOut id, answer⟩ => some (id, answer)
  | _ => none

theorem isFailedRun_eq (x : Exchange) : x.isFailedRun = x.planRun?.any CommandRun.failed := by
  obtain ⟨request, answer⟩ := x
  cases request with
  | run command limit => cases limit <;> rfl
  | _ => rfl

end Exchange

def planRuns (record : List Exchange) : List CommandRun :=
  (record.filterMap Exchange.planRun?).reverse

def checkOuts (record : List Exchange) :
    List (WorkUnitId × Except VcsFault (Option WorkUnitId)) :=
  record.filterMap Exchange.checkOut?

def Unrun (record : List Exchange) : Prop :=
  ∀ x ∈ record, ∀ command limit, x.request ≠ .run command limit

def Unchanged (record : List Exchange) : Prop :=
  ∀ x ∈ record, ∀ key, ¬x.request.writes key

def Reports (id : WorkUnitId) (status : Status) (record : List Exchange) : Prop :=
  ∀ x ∈ record, ∀ other shown, x.request = report other shown → other = id ∧ shown = status

def Unreported (record : List Exchange) : Prop :=
  ∀ x ∈ record, ∀ id status, x.request ≠ report id status

section Cons

variable {record : List Exchange} {x : Exchange}

theorem planRuns_cons_run {command : Command} {answer : Except RunFault (Option ExecutionRecord)} :
    planRuns (⟨.run command none, answer⟩ :: record) = planRuns record ++ [⟨command, answer⟩] := by
  have hrun : (⟨.run command none, answer⟩ : Exchange).planRun? = some ⟨command, answer⟩ := rfl
  rw [planRuns, List.filterMap_cons_some hrun, List.reverse_cons, planRuns]

theorem checkOuts_cons_of_none (h : x.checkOut? = none) :
    checkOuts (x :: record) = checkOuts record :=
  List.filterMap_cons_none h

theorem any_isFailedRun (record : List Exchange) :
    record.any Exchange.isFailedRun = (planRuns record).any CommandRun.failed := by
  rw [planRuns, List.any_reverse]
  induction record with
  | nil => rfl
  | cons x past ih =>
      rw [List.any_cons, ih, Exchange.isFailedRun_eq]
      cases hrun : x.planRun? with
      | none => rw [List.filterMap_cons_none hrun, Option.any_none, Bool.false_or]
      | some run => rw [List.filterMap_cons_some hrun, List.any_cons, Option.any_some]

theorem Unrun.cons (h : Unrun record) (hx : ∀ command limit, x.request ≠ .run command limit) :
    Unrun (x :: record) :=
  List.forall_mem_cons.2 ⟨hx, h⟩

theorem Unchanged.cons (h : Unchanged record) (hx : ∀ key, ¬x.request.writes key) :
    Unchanged (x :: record) :=
  List.forall_mem_cons.2 ⟨hx, h⟩

theorem Unreported.cons (h : Unreported record) (hx : ∀ id status, x.request ≠ report id status) :
    Unreported (x :: record) :=
  List.forall_mem_cons.2 ⟨hx, h⟩

theorem Unchanged.unreported (h : Unchanged record) : Unreported record :=
  fun x hx id status heq => h x hx (BlobKey.status id) (by rw [heq]; rfl)

theorem Unreported.reports (h : Unreported record) (id : WorkUnitId) (status : Status) :
    Reports id status record :=
  fun x hx other shown heq => absurd heq (h x hx other shown)

theorem Reports.cons {id : WorkUnitId} {status : Status} (h : Reports id status record)
    (hx : ∀ other shown, x.request = report other shown → other = id ∧ shown = status) :
    Reports id status (x :: record) :=
  List.forall_mem_cons.2 ⟨hx, h⟩

end Cons

theorem report_injective {id other : WorkUnitId} {status shown : Status}
    (h : report id status = report other shown) : id = other ∧ status = shown := by
  obtain ⟨hkey, hvalue⟩ := StoreCall.put.inj (WorkRequest.store.inj h)
  refine ⟨BlobKey.status_injective hkey, ?_⟩
  rw [← Status.ofText_payload status, hvalue, Status.ofText_payload]

/-! ## The stages of a poll -/

inductive PollStage where
  /-- It has only looked around. -/
  | looking
  /-- It takes signals down because the offer cannot be read. -/
  | clearing
  /-- It has asked for the checkout of `id`. -/
  | asked (id : WorkUnitId) (answer : Except VcsFault (Option WorkUnitId))
  /-- It reports a unit that cannot be checked out. -/
  | skipping (id : WorkUnitId)
  /-- It works on a unit; the commands `left` are still to be run. -/
  | working (id : WorkUnitId) (left : List Command)

/-- What the exchanges of a poll say at a stage, when the plan consists of `commands`. -/
def Tells (commands : List Command) (record : List Exchange) : PollStage → Prop
  | .looking => checkOuts record = [] ∧ Unrun record ∧ Unchanged record
  | .clearing =>
      checkOuts record = [] ∧ Unrun record ∧ Unreported record ∧ unitRead record = none
  | .asked id answer =>
      checkOuts record = [(id, answer)] ∧ Unrun record ∧ Unchanged record ∧
        unitRead record = some id
  | .skipping id =>
      checkOuts record = [(id, .ok none)] ∧ Unrun record ∧ Reports id .passed record ∧
        unitRead record = some id
  | .working id left =>
      checkOuts record = [(id, .ok (some id))] ∧
        (planRuns record).map CommandRun.command ++ left = commands ∧
        (Unreported record ∨ left = [] ∧ Reports id (verdict record) record) ∧
        unitRead record = some id

namespace Tells

variable {commands : List Command} {record : List Exchange} {id : WorkUnitId}
  {left : List Command}

theorem start : Tells commands [] .looking :=
  ⟨rfl, fun _ hx => absurd hx List.not_mem_nil, fun _ hx => absurd hx List.not_mem_nil⟩

theorem look_around {x : Exchange} (h : Tells commands record .looking)
    (hcheckOut : x.checkOut? = none)
    (hrun : ∀ command limit, x.request ≠ .run command limit)
    (hwrites : ∀ key, ¬x.request.writes key) : Tells commands (x :: record) .looking :=
  ⟨(checkOuts_cons_of_none hcheckOut).trans h.1, h.2.1.cons hrun, h.2.2.cons hwrites⟩

theorem ask (h : Tells commands record .looking) (hread : unitRead record = some id)
    (answer : Except VcsFault (Option WorkUnitId)) :
    Tells commands (⟨.checkOut id, answer⟩ :: record) (.asked id answer) := by
  refine ⟨?_, h.2.1.cons nofun, h.2.2.cons fun _ hwrites => hwrites, ?_⟩
  · have hask : (⟨.checkOut id, answer⟩ : Exchange).checkOut? = some (id, answer) := rfl
    rw [checkOuts, List.filterMap_cons_some hask]
    exact congrArg _ h.1
  · exact (unitRead_cons_of_ne_look (by nofun)).trans hread

theorem reloadCheck {answer : Except VcsFault (Option WorkUnitId)}
    (h : Tells commands record (.asked id answer)) (wanted : Bool) :
    Tells commands (⟨.reloadWanted, wanted⟩ :: record) (.asked id answer) :=
  ⟨h.1, h.2.1.cons nofun, h.2.2.1.cons fun _ hwrites => hwrites, h.2.2.2⟩

theorem skip {call : StoreCall} {answer : Except StoreFault call.Result}
    (h : Tells commands record (.skipping id))
    (hreport : ∀ other shown, .store call = report other shown → other = id ∧ shown = .passed)
    (hlook : .store call ≠ look .offered) :
    Tells commands (⟨.store call, answer⟩ :: record) (.skipping id) :=
  ⟨h.1, h.2.1.cons nofun, h.2.2.1.cons hreport, (unitRead_cons_of_ne_look hlook).trans h.2.2.2⟩

theorem write {call : StoreCall} {answer : Except StoreFault call.Result}
    (h : Tells commands record (.working id left))
    (hreport : ∀ other shown, .store call ≠ report other shown)
    (hlook : .store call ≠ look .offered) :
    Tells commands (⟨.store call, answer⟩ :: record) (.working id left) := by
  refine ⟨h.1, h.2.1, ?_, (unitRead_cons_of_ne_look hlook).trans h.2.2.2⟩
  rcases h.2.2.1 with hnone | ⟨hleft, hreports⟩
  · exact .inl (hnone.cons hreport)
  · refine .inr ⟨hleft, ?_⟩
    rw [verdict_cons_of_not rfl]
    exact hreports.cons fun other shown heq => absurd heq (hreport other shown)

theorem run {command : Command} (h : Tells commands record (.working id (command :: left)))
    (answer : Except RunFault (Option ExecutionRecord)) :
    Tells commands (⟨.run command none, answer⟩ :: record) (.working id left) := by
  obtain ⟨hcheckOuts, hruns, hreported, hread⟩ := h
  refine ⟨hcheckOuts, ?_, ?_, (unitRead_cons_of_ne_look (by nofun)).trans hread⟩
  · rw [planRuns_cons_run, List.map_append, List.append_assoc]
    exact hruns
  · rcases hreported with hnone | ⟨hleft, -⟩
    · exact .inl (hnone.cons nofun)
    · cases hleft

theorem cleanUp (h : Tells commands record (.working id left)) (command : Command)
    (limit : Duration) (answer : Except RunFault (Option ExecutionRecord)) :
    Tells commands (⟨.run command (some limit), answer⟩ :: record) (.working id left) := by
  refine ⟨h.1, h.2.1, ?_, (unitRead_cons_of_ne_look (by nofun)).trans h.2.2.2⟩
  rcases h.2.2.1 with hnone | ⟨hleft, hreports⟩
  · exact .inl (hnone.cons nofun)
  · refine .inr ⟨hleft, ?_⟩
    rw [verdict_cons_of_not rfl]
    exact hreports.cons nofun

theorem clear {call : StoreCall} {answer : Except StoreFault call.Result}
    (h : Tells commands record .clearing)
    (hreport : ∀ other shown, .store call ≠ report other shown)
    (hlook : .store call ≠ look .offered) :
    Tells commands (⟨.store call, answer⟩ :: record) .clearing :=
  ⟨h.1, h.2.1.cons nofun, h.2.2.1.cons hreport, (unitRead_cons_of_ne_look hlook).trans h.2.2.2⟩

theorem judge (h : Tells commands record (.working id []))
    (answer : Except StoreFault Unit) :
    Tells commands (⟨report id (verdict record), answer⟩ :: record) (.working id []) := by
  refine ⟨h.1, h.2.1, .inr ⟨rfl, ?_⟩, (unitRead_cons_of_ne_look (by nofun)).trans h.2.2.2⟩
  rw [verdict_cons_of_not rfl]
  have hsame : Reports id (verdict record) record := by
    rcases h.2.2.1 with hnone | ⟨-, hreports⟩
    · exact hnone.reports id _
    · exact hreports
  refine hsame.cons fun other shown heq => ?_
  obtain ⟨rfl, rfl⟩ := report_injective heq
  exact ⟨rfl, rfl⟩

theorem giveUp (h : Tells commands record .looking) (hread : unitRead record = none) :
    Tells commands record .clearing :=
  ⟨h.1, h.2.1, h.2.2.unreported, hread⟩

theorem skipping (h : Tells commands record (.asked id (.ok none))) :
    Tells commands record (.skipping id) :=
  ⟨h.1, h.2.1, h.2.2.1.unreported.reports id _, h.2.2.2⟩

theorem working (h : Tells commands record (.asked id (.ok (some id)))) :
    Tells commands record (.working id commands) := by
  refine ⟨h.1, ?_, .inl h.2.2.1.unreported, h.2.2.2⟩
  have hruns : planRuns record = [] := by
    rw [planRuns, List.reverse_eq_nil_iff, List.filterMap_eq_nil_iff]
    intro x hx
    obtain ⟨request, answer⟩ := x
    cases request with
    | run command limit => exact absurd rfl (h.2.1 _ hx command limit)
    | _ => rfl
  rw [hruns]
  rfl

theorem fresh (h : Tells commands record (.working id commands)) :
    record.any Exchange.isFailedRun = false := by
  have hruns : planRuns record = [] := List.map_eq_nil_iff.1 (List.append_left_eq_self.1 h.2.1)
  rw [any_isFailedRun, hruns]
  rfl

end Tells

/-! ## A poll goes from stage to stage -/

/-- Every exchange leaves the poll at some stage. -/
def Telling (commands : List Command) : Conduct Work (List Exchange) :=
  fun past request answer after =>
    after = ⟨request, answer⟩ :: past ∧ ∃ stage, Tells commands after stage

def Plan.work (plan : Plan) : List Command :=
  plan.commands.filter fun command => !command.isEmpty

theorem Command.label_eq_none_iff {command : Command} :
    command.label = none ↔ command.isEmpty = true := by
  rw [Command.label, Command.isEmpty]
  cases command.argv with
  | nil => exact ⟨fun _ => rfl, fun _ => rfl⟩
  | cons word rest => exact ⟨nofun, nofun⟩

theorem Command.isEmpty_of_label {command : Command} {label : CommandLabel}
    (h : command.label = some label) : command.isEmpty = false := by
  cases hempty : command.isEmpty with
  | false => rfl
  | true =>
      rw [Command.label_eq_none_iff.2 hempty] at h
      cases h

namespace Consumer

open Program

variable {commands : List Command} {record : List Exchange} {id : WorkUnitId}

theorem tells_observe (signals : List Signal) (h : Tells commands record .looking) :
    (Work.ofStorage (SignalBoard.observe signals)).Follows (Telling commands)
      (fun _ record => Tells commands record .looking) record := by
  induction signals generalizing record with
  | nil => exact h
  | cons signal rest ih =>
      intro answer
      have hlook := h.look_around (x := ⟨WorkRequest.look signal, answer⟩) rfl nofun
        fun _ hwrites => hwrites
      exact ⟨_, ⟨rfl, _, hlook⟩, ih hlook⟩

theorem tells_clear (signals : List Signal) (h : Tells commands record .clearing) :
    (Work.ofStorage (SignalBoard.clear signals).run).Follows (Telling commands)
      (fun _ record => Tells commands record .clearing) record := by
  induction signals generalizing record with
  | nil => exact h
  | cons signal rest ih =>
      refine Work.follows_bind fun answer => ?_
      have hprobe : Tells commands (⟨probe signal, answer⟩ :: record) .clearing :=
        h.clear nofun nofun
      refine ⟨_, ⟨rfl, _, hprobe⟩, ?_⟩
      rcases answer with fault | _ | _
      · exact hprobe
      · exact ih hprobe
      · refine Work.follows_bind fun answer => ?_
        have hlower : Tells commands (⟨lower signal, answer⟩ :: _) .clearing :=
          hprobe.clear nofun nofun
        refine ⟨_, ⟨rfl, _, hlower⟩, ?_⟩
        cases answer with
        | error fault => exact hlower
        | ok _ =>
            refine Work.follows_bind ((ih hlower).mono fun result record hresult => ?_)
            cases result with
            | error fault => exact hresult
            | ok cleared => exact hresult

/-- When a unit is offered, a poll has only looked around. -/
def Offers (commands : List Command) (result : Except RoundFault (Option WorkUnitId))
    (record : List Exchange) : Prop :=
  ∀ id, result = .ok (some id) →
    Tells commands record .looking ∧ unitRead record = some id

theorem tells_readOffer (h : Tells commands record .looking) :
    readOffer.run.Follows (Telling commands) (Offers commands) record := by
  have hread : (Work.ofStorage (SignalBoard.read .offered).run).Follows (Telling commands)
      (fun result record => Tells commands record .looking ∧
        unitRead record = (PollPhase.looking result).unit?) record := by
    rw [SignalBoard.run_read]
    intro answer
    have hlook := h.look_around (x := ⟨WorkRequest.look .offered, answer⟩) rfl nofun
      fun _ hwrites => hwrites
    exact ⟨_, ⟨rfl, _, hlook⟩, hlook, unitRead_cons_look⟩
  refine Program.follows_bind.2 (hread.mono ?_)
  rintro result record ⟨hlook, hunit⟩
  have hclear : unitRead record = none →
      readOffer.clear.Follows (Telling commands) (Offers commands) record := by
    intro hnone
    have hends := tells_clear Signal.all (hlook.giveUp hnone)
    refine Program.follows_bind.2 (Work.follows_store (hends.mono ?_))
    intro result record hrecord
    cases result with
    | ok cleared => exact nofun
    | error fault => exact nofun
  match result with
  | .ok none => exact nofun
  | .ok (some id) =>
      rintro other heq
      cases heq
      exact ⟨hlook, hunit⟩
  | .error (.notUtf8 key) => exact hclear hunit
  | .error (.invalidPayload key fault) => exact hclear hunit
  | .error (.os fault) => exact nofun
  | .error (.sql text) => exact nofun
  | .error (.invalidKey fault) => exact nofun
  | .error (.invalidSpec spec) => exact nofun
  | .error .poisoned => exact nofun

/-! ### The commands -/

/-- The poll works on `id`, with `left` still to be run, and `failed` tells whether a
command did not pass. -/
def Works (commands : List Command) (id : WorkUnitId) (left : List Command) (failed : Bool)
    (record : List Exchange) : Prop :=
  Tells commands record (.working id left) ∧ record.any Exchange.isFailedRun = failed

theorem Works.write {left : List Command} {failed : Bool} {call : StoreCall}
    {answer : Except StoreFault call.Result} (h : Works commands id left failed record)
    (hreport : ∀ other shown, .store call ≠ report other shown)
    (hlook : .store call ≠ look .offered) :
    Works commands id left failed (⟨.store call, answer⟩ :: record) :=
  ⟨h.1.write hreport hlook, h.2⟩

theorem Works.run {command : Command} {left : List Command} {failed : Bool}
    (h : Works commands id (command :: left) failed record)
    (answer : Except RunFault (Option ExecutionRecord)) :
    Works commands id left (failed || Exchange.isFailedRun ⟨.run command none, answer⟩)
      (⟨.run command none, answer⟩ :: record) := by
  refine ⟨h.1.run answer, ?_⟩
  rw [List.any_cons, h.2, Bool.or_comm]

theorem works_putFields {label : CommandLabel} {outcome : ExecutionRecord}
    {left : List Command} {failed : Bool} (fields : List LogField)
    (h : Works commands id left failed record) :
    (Work.ofStorage (Archive.putFields id label outcome fields).run).Follows (Telling commands)
      (fun _ record => Works commands id left failed record) record := by
  induction fields generalizing record with
  | nil => exact h
  | cons field rest ih =>
      refine Work.follows_bind fun answer => ?_
      have hput : Works commands id left failed
          (⟨.store (.put (BlobKey.log id label field) (Archive.fieldContent outcome field)),
            answer⟩ :: record) :=
        h.write (fun other shown heq => BlobKey.log_ne_status _ _ _ _
          (StoreCall.put.inj (WorkRequest.store.inj heq)).1) nofun
      refine ⟨_, ⟨rfl, _, hput.1⟩, ?_⟩
      cases answer with
      | ok _ => exact ih hput
      | error fault => exact hput

theorem works_accept {label : CommandLabel} {command : Command} {outcome : ExecutionRecord}
    {errors : Nat} {left : List Command} {failed : Bool}
    (h : Works commands id left failed record) :
    ((FailureSink.archive id).accept errors label command outcome).Follows (Telling commands)
      (fun _ record => Works commands id left failed record) record := by
  refine Program.follows_bind.2 ((works_putFields _ h).mono ?_)
  intro result record hrecord
  cases result with
  | ok _ => exact hrecord
  | error fault => exact hrecord

theorem works_record {command : Command} {left : List Command} {failed : Bool}
    (h : Works commands id (command :: left) failed record) :
    (Sequence.record command).Follows (Telling commands)
      (fun result record =>
        Works commands id left (failed || result.any ExecutionRecord.failed) record) record := by
  intro answer
  have hrun := h.run answer
  refine ⟨_, ⟨rfl, _, hrun.1⟩, ?_⟩
  rcases answer with fault | _ | outcome
  · exact hrun
  · exact hrun
  · exact hrun

/-- The commands of a plan are run in their order, those that are empty left out. -/
theorem works_runCommands (planned : List Command) (outcome : SequenceOutcome) {errors : Nat}
    (h : Works commands id (planned.filter fun command => !command.isEmpty) outcome.failed
      record) :
    (Sequence.runCommands (FailureSink.archive id) planned outcome errors).Follows
      (Telling commands) (fun result record => Works commands id [] result.1.failed record)
      record := by
  induction planned generalizing outcome errors record with
  | nil => exact h
  | cons command rest ih =>
      unfold Sequence.runCommands
      cases hlabel : command.label with
      | none =>
          rw [List.filter_cons_of_neg (by simp [Command.label_eq_none_iff.1 hlabel])] at h
          exact ih outcome h
      | some label =>
          rw [List.filter_cons_of_pos (by simp [Command.isEmpty_of_label hlabel])] at h
          refine Program.follows_bind.2 ((works_record h).mono ?_)
          intro result record hresult
          cases result with
          | none => exact ih outcome (by simpa using hresult)
          | some found =>
              cases hfailed : found.failed with
              | false =>
                  simp only [Option.any_some, hfailed, Bool.or_false, Bool.false_eq_true,
                    if_false] at hresult ⊢
                  exact ih { outcome with ran := outcome.ran + 1 } hresult
              | true =>
                  simp only [Option.any_some, hfailed, Bool.or_true, if_true] at hresult ⊢
                  refine Program.follows_bind.2 ((works_accept hresult).mono ?_)
                  intro errors record haccept
                  rw [← failed_append outcome (outcome.ran + 1) label] at haccept
                  exact ih _ haccept

theorem works_runCleanup {cleanup : Option Command} {limit : Duration} {left : List Command}
    {failed : Bool} (h : Works commands id left failed record) :
    (Sequence.runCleanup cleanup limit).Follows (Telling commands)
      (fun _ record => Works commands id left failed record) record := by
  cases cleanup with
  | none => exact h
  | some command =>
      intro answer
      have hcleanUp := h.1.cleanUp command limit answer
      exact ⟨_, ⟨rfl, _, hcleanUp⟩, hcleanUp, h.2⟩

theorem works_execute {consumer : Consumer}
    (h : Works commands id consumer.plan.work false record) :
    (consumer.execute id).Follows (Telling commands)
      (fun status record => Tells commands record (.working id []) ∧ status = verdict record)
      record := by
  unfold execute Sequence.runPlan Sequence.runAll
  refine Program.follows_bind.2 (Program.follows_bind.2
    ((works_runCommands consumer.plan.commands { ran := 0, failures := [] } h).mono ?_))
  rintro ⟨outcome, errors⟩ record hrun
  refine Program.follows_bind.2 ((works_runCleanup hrun).mono ?_)
  intro _ record hclean
  exact ⟨hclean.1, congrArg Status.ofFailed hclean.2.symm⟩

/-! ### The whole poll -/

theorem tells_write {β : Type} {call : StoreCall} {next : call.Result → WorkM β}
    {stage : PollStage}
    (h : ∀ answer : Except StoreFault call.Result,
      Tells commands (⟨.store call, answer⟩ :: record) stage)
    (hnext : ∀ record, Tells commands record stage → ∀ result,
      (next result).run.Follows (Telling commands) (fun _ _ => True) record) :
    (Work.store (storeCall call) >>= next).run.Follows (Telling commands) (fun _ _ => True)
      record := by
  refine WorkM.follows_bind (Work.follows_call fun answer => ⟨_, ⟨rfl, _, h answer⟩, ?_⟩)
  cases answer with
  | ok result => exact hnext _ (h (.ok result)) result
  | error fault => trivial

theorem tells_skip (h : Tells commands record (.skipping id)) :
    (skip id).run.Follows (Telling commands) (fun _ _ => True) record := by
  refine tells_write (fun answer => h.skip (fun other shown heq => ?_) nofun) fun record h _ => ?_
  · obtain ⟨rfl, rfl⟩ := report_injective heq
    exact ⟨rfl, rfl⟩
  refine tells_write (fun answer => h.skip (fun other shown heq => ?_) nofun) fun record h _ => ?_
  · exact absurd heq.symm (report_ne_raise other id shown .finished)
  refine tells_write (fun answer => h.skip nofun nofun) fun record h _ => ?_
  trivial

theorem tells_process {consumer : Consumer} (hcommands : commands = consumer.plan.work)
    (h : Tells commands record (.asked id (.ok (some id)))) :
    (consumer.process id).run.Follows (Telling commands) (fun _ _ => True) record := by
  subst hcommands
  have hraise (signal : Signal) (other : WorkUnitId) (shown : Status) :
      raise signal id ≠ report other shown :=
    fun heq => report_ne_raise other id shown signal heq.symm
  refine tells_write (fun _ => h.working.write (hraise .claimed) nofun) fun record h _ => ?_
  refine tells_write (fun _ => h.write nofun nofun) fun record h _ => ?_
  refine WorkM.follows_bind (WorkM.follows_lift ((works_execute ⟨h, h.fresh⟩).mono ?_))
  rintro _ record ⟨h, rfl⟩
  refine tells_write h.judge fun record h _ => ?_
  refine tells_write (fun _ => h.write (hraise .finished) nofun) fun record h _ => ?_
  refine tells_write (fun _ => h.write nofun nofun) fun record h _ => ?_
  trivial

/-- A poll goes from stage to stage, whatever it is answered. -/
theorem tells_poll (consumer : Consumer) :
    consumer.poll.run.Follows (Telling consumer.plan.work) (fun _ _ => True) [] := by
  unfold poll
  refine WorkM.follows_bind (WorkM.follows_lift fun wanted => ?_)
  have hstart : Tells consumer.plan.work [⟨.reloadWanted, wanted⟩] .looking :=
    Tells.start.look_around rfl nofun fun _ hwrites => hwrites
  refine ⟨_, ⟨rfl, _, hstart⟩, ?_⟩
  cases wanted with
  | true => trivial
  | false =>
      refine WorkM.follows_bind (WorkM.follows_lift ((tells_observe _ hstart).mono ?_))
      intro _ record hrecord
      refine WorkM.follows_bind ((tells_readOffer hrecord).mono ?_)
      intro result record hoffers
      rcases result with fault | _ | id
      · trivial
      · trivial
      · obtain ⟨hlooking, hread⟩ := hoffers id rfl
        refine WorkM.follows_bind fun answer => ?_
        have hasked := hlooking.ask hread answer
        refine ⟨_, ⟨rfl, _, hasked⟩, ?_⟩
        rcases answer with fault | _ | found
        · trivial
        · exact tells_skip hasked.skipping
        · refine WorkM.follows_bind (WorkM.follows_lift fun wanted => ?_)
          have hchecked := hasked.reloadCheck wanted
          refine ⟨_, ⟨rfl, _, hchecked⟩, ?_⟩
          cases wanted with
          | true => trivial
          | false =>
              by_cases hfound : found = id
              · subst hfound
                simp only [ne_eq, not_true_eq_false, if_false]
                exact tells_process rfl hchecked
              · simp only [ne_eq, hfound, not_false_eq_true, if_true]
                trivial

end Consumer

end Handoff
