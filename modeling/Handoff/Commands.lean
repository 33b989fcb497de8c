import Handoff.CommandLine
import Handoff.Host.Agent
import Handoff.Plan.Reader
import Handoff.Report
import Handoff.Repository
import Handoff.Round.Consumer
import Handoff.Round.Producer
/-!
# The commands of the program

What each command does on a host, what it prints and the code it exits with.
-/

namespace Handoff

inductive CommandFault where
  | usage (text : String)
  | id (fault : IdFault)
  | plan (fault : PlanFault)
  | store (fault : StoreFault)
  | vcs (fault : VcsFault)
  | round (fault : RoundFault)
  | panicked (panic : Panic)

namespace CommandFault

def message : CommandFault → String
  | usage text => text
  | id fault => "invalid work unit id: " ++ fault.message
  | plan fault => fault.message
  | store fault => fault.message
  | vcs fault => fault.message
  | round fault => fault.message
  | panicked panic => panic.message

/-- Two for mistakes in use and configuration, one for what went wrong later, and a code of its
own for a panic. -/
def exitCode : CommandFault → UInt8
  | usage _ => 2
  | id _ => 2
  | plan _ => 2
  | store (.invalidSpec _) => 2
  | panicked _ => 101
  | _ => 1

end CommandFault

structure Terminal where
  host : Host
  git : GitScript
  printed : ByteArray

abbrev CommandM (α : Type) := ExceptT CommandFault (StateM Terminal) α

/-- How a command ended: with an exit code, or with the wish to be started afresh. -/
inductive CommandEnd where
  | exited (code : UInt8)
  | relaunch

structure Setting where
  repo : Path
  branch : String
  store : Option String
  planPath : Path
  /-- Whether the plan was named. -/
  planGiven : Bool
  poll : Duration
  commandTimeout : Option Duration
  watch : List Path

namespace Commands

def print (bytes : ByteArray) : CommandM Unit :=
  modify fun terminal => { terminal with printed := terminal.printed ++ bytes }

def printLine (line : String) : CommandM Unit :=
  print (line ++ "\n").toUTF8

def onFiles {α : Type} (program : Program Files α) : CommandM α := do
  let terminal ← get
  let (value, host) := terminal.host.runFiles program
  set { terminal with host }
  return value

def orFault {ε α : Type} (fault : ε → CommandFault) : Except ε α → CommandM α
  | .ok value => return value
  | .error found => throw (fault found)

def settingOf (options : CommandOptions) : CommandM Setting := do
  if options.pollSecs = 0 then throw (.usage "--poll-secs must be positive")
  if options.commandTimeoutSecs = some 0 then
    throw (.usage "--command-timeout-secs must be positive")
  let terminal ← get
  let repo ← match options.repo with
    | some repo => pure repo
    | none => onFiles (Repository.defaultRoot ⟨terminal.host.cwd.text⟩)
  return {
    repo
    branch := options.branch
    store := options.store
    planPath := options.plan.getD (Repository.planOf repo)
    planGiven := options.plan.isSome
    poll := Duration.ofSecs options.pollSecs
    commandTimeout := options.commandTimeoutSecs.map Duration.ofSecs
    watch := options.watch }

def openStore (setting : Setting) : CommandM OpenStore := do
  let spec ← match setting.store with
    | some raw => orFault .store (StoreSpec.ofText raw)
    | none => pure (.directory (Repository.storeOf setting.repo))
  let terminal ← get
  let (opened, host) := OpenStore.ofSpec spec terminal.host
  set { terminal with host }
  orFault .store opened

/-- Loads the plan.  Where none is required, the default one may be missing and is then
empty. -/
def loadPlan (setting : Setting) (required : Bool) : CommandM Plan := do
  if !required && !setting.planGiven then
    unless ← onFiles (Files.isThere setting.planPath) do return Plan.empty
  orFault .plan (← onFiles (Plan.load setting.planPath))

def clientOf (setting : Setting) : GitClient where
  repo := setting.repo
  branch := setting.branch

def resolveId (setting : Setting) : Option String → CommandM WorkUnitId
  | some raw => orFault .id (WorkUnitId.ofText raw)
  | none => do
      let terminal ← get
      let (head, git, host) := terminal.git.run (clientOf setting).head.run terminal.host
      set { terminal with git, host }
      orFault .vcs head

def commandTimeout (setting : Setting) (plan : Plan) : Duration :=
  setting.commandTimeout.getD plan.commandTimeout

def runnerSettings (setting : Setting) (plan : Plan) : RunnerSettings :=
  { RunnerSettings.standard with
    timeout := commandTimeout setting plan, cwd := some setting.repo }

def agentOf (setting : Setting) (plan : Plan) (store : OpenStore) (watch : SourceWatch)
    (terminal : Terminal) : Agent where
  session := { host := terminal.host, store }
  git := terminal.git
  client := clientOf setting
  watch
  settings := runnerSettings setting plan
  printed := terminal.printed

def leaving (agent : Agent) : Terminal where
  host := agent.session.host
  git := agent.git
  printed := agent.printed

def asAgent {α : Type} (setting : Setting) (plan : Plan) (store : OpenStore)
    (watch : SourceWatch) (program : Program Work α) : CommandM α := do
  let terminal ← get
  let (result, agent) := (agentOf setting plan store watch terminal).work program
  set (leaving agent)
  orFault .panicked result

def codeOf : Status → UInt8
  | .passed => 0
  | .failed => 1

def archivedRun (plan : Plan) (id : WorkUnitId) : WorkM Status := do
  let (outcome, _) ← ExceptT.lift (Sequence.runPlan plan (FailureSink.archive id) 0)
  let status := Status.ofFailed outcome.failed
  Work.store (Archive.writeStatus id status)
  return status

def printedRun (plan : Plan) : Program Work (SequenceOutcome × Unit) :=
  Sequence.runPlan plan FailureSink.stdout ()

def runOnce (setting : Setting) (archive : Bool) (id : Option String) :
    CommandM CommandEnd := do
  let plan ← loadPlan setting true
  if archive then
    let store ← openStore setting
    let id ← resolveId setting id
    let result ← asAgent setting plan store SourceWatch.empty (archivedRun plan id).run
    let status ← orFault fault result
    return .exited (codeOf status)
  else
    let (outcome, ()) ← asAgent setting plan (.memory StringMap.empty) SourceWatch.empty
      (printedRun plan)
    return .exited (codeOf (Status.ofFailed outcome.failed))
where
  /-- A fault of the store is reported as such. -/
  fault : RoundFault → CommandFault
    | .store fault => .store fault
    | fault => .round fault

def polls : Nat := 1000000000

def producerOf (setting : Setting) (plan : Plan) : Producer where
  pollInterval := setting.poll
  timeout := plan.producerTimeout (commandTimeout setting plan)

def bot (setting : Setting) (id : Option String) : CommandM CommandEnd := do
  let plan ← loadPlan setting false
  let store ← openStore setting
  let id ← resolveId setting id
  let producer := producerOf setting plan
  let result ← asAgent setting plan store SourceWatch.empty
    (producer.offerAndWait polls id).run
  match ← orFault .round result with
  | none => throw (.round (.timeout id producer.timeout))
  | some status => do
      if status.isFailed then
        printLine "Tests failed, you can print the logs by running:"
        printLine ("  ho_runner print-logs " ++ id.text)
      return .exited (codeOf status)

def reloadedVariable : String := "HANDOFF_RELOADED"

def startMode (env : StringMap String) : StartMode :=
  match env.get? reloadedVariable with
  | some text => if text = "" then .fresh else .reloaded
  | none => .fresh

def tester (setting : Setting) (once : Bool) : CommandM CommandEnd := do
  let plan ← loadPlan setting true
  let store ← openStore setting
  let { host, .. } ← get
  let watch ← onFiles (SourceWatch.capture
    (host.executable.toList ++ setting.planPath :: setting.watch))
  let consumer : Consumer :=
    { plan, start := startMode host.env, pollInterval := setting.poll }
  let result ← asAgent setting plan store watch (consumer.run once polls).run
  match ← orFault .round result with
  | some .reload => return .relaunch
  | _ => return .exited 0

def printLogs (setting : Setting) (rawId : String) : CommandM CommandEnd := do
  let id ← orFault .id (WorkUnitId.ofText rawId)
  let plan ← loadPlan setting false
  let store ← openStore setting
  let terminal ← get
  let (result, session) := Session.run (Report.logs id).run { host := terminal.host, store }
  set { terminal with host := session.host }
  let (found, text) ← orFault .store result
  print text
  if found = 0 then printLine ("No failure logs archived for " ++ id.text)
  match plan.reportFor id with
  | none => pure ()
  | some command => do
      let terminal ← get
      let (report, host) := Runner.report command setting.repo terminal.host
      set { terminal with host }
      match report with
      | .ok (_, printed) => print printed
      | .error _ => pure ()
  return .exited 0

def state (setting : Setting) : CommandM CommandEnd := do
  let store ← openStore setting
  let terminal ← get
  let ((text, fault), session) := Session.run Report.state { host := terminal.host, store }
  set { terminal with host := session.host }
  print text.toUTF8
  match fault with
  | some fault => throw (.store fault)
  | none => return .exited 0

def carryOut (options : CommandOptions) : CommandM CommandEnd := do
  let setting ← settingOf options
  match options.subcommand with
  | .runOnce archive id => runOnce setting archive id
  | .bot id => bot setting id
  | .tester once => tester setting once
  | .printLogs id => printLogs setting id
  | .state => state setting

structure Outcome where
  exitCode : UInt8
  /-- The diagnostic of the program itself; a mistake in use has none. -/
  diagnostic : Option CommandFault
  /-- The panic that broke the program off. -/
  panic : Option Panic := none

def Outcome.ofFault (fault : CommandFault) : Outcome :=
  match fault with
  | .panicked panic => { exitCode := fault.exitCode, diagnostic := none, panic }
  | _ => { exitCode := fault.exitCode, diagnostic := some fault }

theorem Outcome.exitCode_ofFault (fault : CommandFault) :
    (Outcome.ofFault fault).exitCode = fault.exitCode := by
  unfold ofFault
  split <;> rfl

/-- The exit code that asks for a fresh start from outside. -/
def reloadExit : UInt8 := 75

def versionLine : String := "ho_runner 0.1.0\n"

/-- Runs the program, which may start itself afresh `relaunches` times. -/
def run (arguments : List String) : Nat → Terminal → Outcome × Terminal
  | relaunches, terminal =>
      match CommandLine.read terminal.host.env arguments with
      | none => ({ exitCode := 2, diagnostic := none }, terminal)
      | some .version =>
          ({ exitCode := 0, diagnostic := none },
            { terminal with printed := terminal.printed ++ versionLine.toUTF8 })
      | some (.command options) =>
          match (carryOut options).run.run terminal with
          | (.error fault, terminal) => (Outcome.ofFault fault, terminal)
          | (.ok (.exited code), terminal) => ({ exitCode := code, diagnostic := none }, terminal)
          | (.ok .relaunch, terminal) =>
              match relaunches with
              | 0 => ({ exitCode := reloadExit, diagnostic := none }, terminal)
              | relaunches + 1 =>
                  let env := terminal.host.env.insert reloadedVariable "1"
                  run arguments relaunches
                    { terminal with host := { terminal.host with env } }

def diagnosticLine (fault : CommandFault) : String :=
  "ho_runner: " ++ fault.message ++ "\n"

end Commands

end Handoff
