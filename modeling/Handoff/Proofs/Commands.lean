import Handoff.Commands
import Handoff.Proofs.Run.BreakingOff
/-!
# How commands go

A command that succeeds has gone through all its parts, each on the terminal that the one before
it has left.  What the agent of a command comes to is what its program performs, unless a panic
breaks it off.
-/

namespace Handoff

theorem CommandFault.exitCode_ne_zero (fault : CommandFault) : fault.exitCode ≠ 0 := by
  unfold exitCode
  split <;> decide

namespace CommandM

variable {α β : Type} {command : CommandM α} {next : α → CommandM β} {terminal after : Terminal}

theorem run_bind_of_ok {value : α} {between : Terminal}
    (h : command.run.run terminal = (.ok value, between)) :
    (command >>= next).run.run terminal = (next value).run.run between := by
  rw [ExceptT.run_bind, StateT.run_bind, h]
  rfl

theorem run_bind_of_error {fault : CommandFault}
    (h : command.run.run terminal = (.error fault, after)) :
    (command >>= next).run.run terminal = (.error fault, after) := by
  rw [ExceptT.run_bind, StateT.run_bind, h]
  rfl

theorem run_bind_eq_ok_iff {value : β} :
    (command >>= next).run.run terminal = (.ok value, after) ↔
      ∃ found between, command.run.run terminal = (.ok found, between) ∧
        (next found).run.run between = (.ok value, after) := by
  constructor
  · intro h
    rcases hcommand : command.run.run terminal with ⟨fault | found, between⟩
    · rw [run_bind_of_error hcommand] at h
      cases h
    · rw [run_bind_of_ok hcommand] at h
      exact ⟨found, between, rfl, h⟩
  · rintro ⟨found, between, hcommand, hnext⟩
    rw [run_bind_of_ok hcommand, hnext]

end CommandM

namespace Commands

variable {α ε : Type} {terminal : Terminal}

theorem run_orFault_eq_ok_iff {fault : ε → CommandFault} {result : Except ε α} {value : α}
    {after : Terminal} :
    (orFault fault result).run.run terminal = (.ok value, after) ↔
      result = .ok value ∧ after = terminal := by
  cases result with
  | ok found =>
      constructor
      · intro h
        cases h
        exact ⟨rfl, rfl⟩
      · rintro ⟨⟨⟩, rfl⟩
        rfl
  | error found =>
      constructor
      · intro h
        cases h
      · rintro ⟨⟨⟩, -⟩

section Agents

variable {setting : Setting} {plan : Plan} {store : OpenStore} {watch : SourceWatch}
  {program : Program Work α} {agent : Agent}

theorem run_asAgent_of_ok {value : α}
    (h : (agentOf setting plan store watch terminal).work program = (.ok value, agent)) :
    (asAgent setting plan store watch program).run.run terminal = (.ok value, leaving agent) := by
  change (orFault .panicked ((agentOf setting plan store watch terminal).work program).1).run.run
    (leaving ((agentOf setting plan store watch terminal).work program).2) = _
  rw [h]
  rfl

theorem run_asAgent_of_error {panic : Panic}
    (h : (agentOf setting plan store watch terminal).work program = (.error panic, agent)) :
    (asAgent setting plan store watch program).run.run terminal =
      (.error (.panicked panic), leaving agent) := by
  change (orFault .panicked ((agentOf setting plan store watch terminal).work program).1).run.run
    (leaving ((agentOf setting plan store watch terminal).work program).2) = _
  rw [h]
  rfl

theorem perform_of_run_asAgent {value : α} {after : Terminal}
    (h : (asAgent setting plan store watch program).run.run terminal = (.ok value, after)) :
    (program.perform Agent.answer (agentOf setting plan store watch terminal)).1 = value := by
  rcases hwork : (agentOf setting plan store watch terminal).work program with
    ⟨panic | found, agent⟩
  · rw [run_asAgent_of_error hwork] at h
    cases h
  · rw [run_asAgent_of_ok hwork] at h
    cases h
    rw [Agent.perform_of_work hwork]

end Agents

/-! ## Getting ready -/

/-- Gets ready what a command that is about one unit works with: the plan, the store and the
unit. -/
def ready (setting : Setting) (required : Bool) (id : Option String) :
    CommandM (Plan × OpenStore × WorkUnitId) := do
  let plan ← loadPlan setting required
  let store ← openStore setting
  let id ← resolveId setting id
  return (plan, store, id)

variable {setting : Setting} {required : Bool} {id : Option String} {plan : Plan}
  {store : OpenStore} {unit : WorkUnitId} {after started : Terminal}

theorem run_ready_eq_ok_iff :
    (ready setting required id).run.run terminal = (.ok (plan, store, unit), started) ↔
      ∃ loaded opened, (loadPlan setting required).run.run terminal = (.ok plan, loaded) ∧
        (openStore setting).run.run loaded = (.ok store, opened) ∧
        (resolveId setting id).run.run opened = (.ok unit, started) := by
  constructor
  · intro h
    obtain ⟨plan', loaded, hplan, h⟩ := CommandM.run_bind_eq_ok_iff.1 h
    obtain ⟨store', opened, hstore, h⟩ := CommandM.run_bind_eq_ok_iff.1 h
    obtain ⟨unit', started', hunit, h⟩ := CommandM.run_bind_eq_ok_iff.1 h
    cases h
    exact ⟨loaded, opened, hplan, hstore, hunit⟩
  · rintro ⟨loaded, opened, hplan, hstore, hunit⟩
    rw [ready, CommandM.run_bind_of_ok hplan, CommandM.run_bind_of_ok hstore,
      CommandM.run_bind_of_ok hunit]
    rfl

/-! ## The bot -/

theorem codeOf_eq_zero_iff {status : Status} : codeOf status = 0 ↔ status = .passed := by
  cases status <;> decide

def offered (setting : Setting) (plan : Plan) (store : OpenStore) (unit : WorkUnitId)
    (started : Terminal) : Except RoundFault (Option Status) :=
  (((producerOf setting plan).offerAndWait polls unit).run.perform Agent.answer
    (agentOf setting plan store SourceWatch.empty started)).1

/-- A bot that ends well has got a status, and reports it with its exit code. -/
theorem exited_of_run_bot {ending : CommandEnd}
    (h : (bot setting id).run.run terminal = (.ok ending, after)) :
    ∃ plan store unit started status,
      (ready setting false id).run.run terminal = (.ok (plan, store, unit), started) ∧
        offered setting plan store unit started = .ok (some status) ∧
        ending = .exited (codeOf status) := by
  obtain ⟨plan, loaded, hplan, h⟩ := CommandM.run_bind_eq_ok_iff.1 h
  obtain ⟨store, opened, hstore, h⟩ := CommandM.run_bind_eq_ok_iff.1 h
  obtain ⟨unit, started, hunit, h⟩ := CommandM.run_bind_eq_ok_iff.1 h
  have hready := run_ready_eq_ok_iff.2 ⟨loaded, opened, hplan, hstore, hunit⟩
  obtain ⟨result, done, hresult, h⟩ := CommandM.run_bind_eq_ok_iff.1 h
  have hoffered : offered setting plan store unit started = result :=
    perform_of_run_asAgent hresult
  obtain ⟨reply, done', hreply, h⟩ := CommandM.run_bind_eq_ok_iff.1 h
  obtain ⟨rfl, rfl⟩ := run_orFault_eq_ok_iff.1 hreply
  cases reply with
  | none => cases h
  | some status =>
      refine ⟨plan, store, unit, started, status, hready, hoffered, ?_⟩
      cases status with
      | passed =>
        cases h
        rfl
      | failed =>
        cases h
        rfl

/-! ## The exit code -/

section ExitCode

variable {arguments : List String} {options : CommandOptions} {relaunches : Nat}

def exitOf : Except CommandFault CommandEnd → UInt8
  | .ok (.exited code) => code
  | .ok .relaunch => reloadExit
  | .error fault => fault.exitCode

/-- The program exits as its command does, unless that wants to be started afresh. -/
theorem exitCode_run {ending : Except CommandFault CommandEnd}
    (hread : CommandLine.read terminal.host.env arguments = some (.command options))
    (h : ((carryOut options).run.run terminal).1 = ending) (hends : ending ≠ .ok .relaunch) :
    (run arguments relaunches terminal).1.exitCode = exitOf ending := by
  rcases hcarried : (carryOut options).run.run terminal with ⟨found, after⟩
  rw [hcarried] at h
  subst h
  unfold run
  rw [hread]
  dsimp only
  rw [hcarried]
  match found, hends with
  | .error fault, _ => exact Outcome.exitCode_ofFault fault
  | .ok (.exited code), _ => rfl
  | .ok .relaunch, hends => exact absurd rfl hends

theorem bot_of_exitCode_eq_zero
    (hread : CommandLine.read terminal.host.env arguments = some (.command options))
    (hbot : options.subcommand = .bot id)
    (h : (run arguments relaunches terminal).1.exitCode = 0) :
    ∃ setting set after, (settingOf options).run.run terminal = (.ok setting, set) ∧
      (bot setting id).run.run set = (.ok (.exited 0), after) := by
  rcases hcarried : (carryOut options).run.run terminal with ⟨fault | ending, after⟩
  · rw [exitCode_run hread (congrArg Prod.fst hcarried) nofun] at h
    exact absurd h fault.exitCode_ne_zero
  · obtain ⟨setting, set, hsetting, hending⟩ := CommandM.run_bind_eq_ok_iff.1 hcarried
    rw [hbot] at hending
    obtain ⟨plan, store, unit, started, status, -, -, rfl⟩ := exited_of_run_bot hending
    rw [exitCode_run hread (congrArg Prod.fst hcarried) nofun] at h
    have hcode : codeOf status = 0 := h
    exact ⟨setting, set, after, hsetting, hcode ▸ hending⟩

end ExitCode

end Commands

end Handoff
