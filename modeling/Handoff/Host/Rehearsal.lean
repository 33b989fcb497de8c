import Handoff.Host.OpenStore
import Handoff.Host.Runner
import Handoff.Round.Consumer
import Handoff.Round.Producer
/-!
# Rehearsals

Rounds of a handoff on a host, with a store that is watched: every call is written
down, and hooks let other things happen just before chosen calls, such as a tester
that steps in or a fault of the store.
-/

namespace Handoff

inductive StoreCallKind where
  | get
  | put
  | delete
  | has
  | list
  deriving DecidableEq, Repr

namespace StoreCall

def kind : StoreCall → StoreCallKind
  | get _ => .get
  | put _ _ => .put
  | delete _ => .delete
  | has _ => .has
  | list _ => .list

def subject : StoreCall → String
  | get key => key.text
  | put key _ => key.text
  | delete key => key.text
  | has key => key.text
  | list start => start

end StoreCall

inductive CheckoutReply where
  | target
  | unreachable
  | landsOn (head : String)
  | refuses (fault : VcsFault)

def CheckoutReply.outcome (id : WorkUnitId) :
    CheckoutReply → Except VcsFault (Option WorkUnitId)
  | target => .ok (some id)
  | unreachable => .ok none
  | landsOn head =>
      match WorkUnitId.ofText head with
      | .ok found => .ok (some found)
      | .error fault => .error (.invalidHead fault)
  | refuses fault => .error fault

inductive TesterCall where
  | recover
  | poll
  | runOnce
  | runForever
  deriving DecidableEq, Repr

inductive TesterResult where
  | recovered (cleared : List Signal)
  | polled (outcome : PollOutcome)
  | left (exit : ConsumerExit)
  /-- The tester was still polling when the rehearsal ended. -/
  | polling
  | failed (fault : RoundFault)

structure TesterPart where
  consumer : Consumer
  settings : RunnerSettings
  /-- What the checkout does each time; afterwards it always reaches its target. -/
  checkouts : List CheckoutReply
  /-- The answers to the reload check; afterwards it is always refused. -/
  reloads : List Bool
  calls : List TesterCall

structure TesterReport where
  results : List TesterResult
  /-- The units that the checkout was asked for. -/
  synced : List WorkUnitId

inductive HookAction where
  /-- Calls that go to the store unwatched; their faults do not count. -/
  | onStore (program : Program Storage Unit)
  | tester (part : Except PlanFault TesterPart)

/-- Something that happens once, before the `nth` call of a kind on a key. -/
structure Hook where
  kind : StoreCallKind
  key : String
  nth : Nat
  /-- How many such calls there have been. -/
  seen : Nat
  actions : List HookAction
  /-- The fault with which the call fails. -/
  fault : Option StoreFault

namespace Hook

def isAbout (hook : Hook) (call : StoreCall) : Bool :=
  hook.kind == call.kind && hook.key == call.subject

def count (call : StoreCall) (hook : Hook) : Hook :=
  if hook.isAbout call then { hook with seen := hook.seen + 1 } else hook

def isDue (call : StoreCall) (hook : Hook) : Bool :=
  hook.isAbout call && hook.seen == hook.nth

end Hook

structure Rehearsal where
  session : Session
  hooks : List Hook
  /-- The calls on the store so far, in order. -/
  trace : List StoreCall
  /-- What became of the testers that stepped in. -/
  nested : List (Except PlanFault TesterReport)

structure TesterStage where
  rehearsal : Rehearsal
  settings : RunnerSettings
  checkouts : List CheckoutReply
  reloads : List Bool
  synced : List WorkUnitId

namespace Rehearsal

def polls : Nat := 1000000

def withHost (rehearsal : Rehearsal) (host : Host) : Rehearsal :=
  { rehearsal with session := { rehearsal.session with host } }

def now (rehearsal : Rehearsal) : Nat × Rehearsal :=
  let (clock, host) := rehearsal.session.host.look
  (clock, rehearsal.withHost host)

def sleep (span : Duration) (rehearsal : Rehearsal) : Rehearsal :=
  rehearsal.withHost (rehearsal.session.host.sleep span.toNanos)

def runCommand (settings : RunnerSettings) (command : Command) (limit : Option Duration)
    (rehearsal : Rehearsal) : Except RunFault (Option ExecutionRecord) × Rehearsal :=
  let settings := { settings with timeout := limit.getD settings.timeout }
  let (result, host) := Runner.run settings command rehearsal.session.host
  (result, rehearsal.withHost host)

def testerProgram (consumer : Consumer) : TesterCall → Program Work TesterResult
  | .recover => do
      match ← consumer.recover.run with
      | .ok cleared => return .recovered cleared
      | .error fault => return .failed fault
  | .poll => do
      match ← consumer.poll.run with
      | .ok outcome => return .polled outcome
      | .error fault => return .failed fault
  | .runOnce => ran true
  | .runForever => ran false
where
  ran (once : Bool) : Program Work TesterResult := do
    match ← (consumer.run once polls).run with
    | .ok (some exit) => return .left exit
    | .ok none => return .polling
    | .error fault => return .failed fault

def testerPrograms (consumer : Consumer) : List TesterCall → Program Work (List TesterResult)
  | [] => return []
  | call :: rest => do
      let result ← testerProgram consumer call
      return result :: (← testerPrograms consumer rest)

mutual

/-- Answers a store call: it is written down, the hooks whose moment has come act, and
it is carried out unless one of them makes it fail.  `depth` bounds how many testers
step in within each other. -/
def storeAnswer : Nat → (call : StoreCall) → Rehearsal →
    Except StoreFault call.Result × Rehearsal
  | depth, call, rehearsal =>
      let hooks := rehearsal.hooks.map (Hook.count call)
      let rehearsal := { rehearsal with trace := rehearsal.trace ++ [call], hooks }
      let (fault, rehearsal) := fire depth (hooks.filter (Hook.isDue call)) rehearsal
      match fault with
      | some fault => (.error fault, rehearsal)
      | none =>
          let (result, session) := Session.answer call rehearsal.session
          (result, { rehearsal with session })
  termination_by depth => (depth, 3, 0)

def fire : Nat → List Hook → Rehearsal → Option StoreFault × Rehearsal
  | _, [], rehearsal => (none, rehearsal)
  | depth, hook :: rest, rehearsal =>
      let rehearsal := act depth hook.actions rehearsal
      match hook.fault with
      | some fault => (some fault, rehearsal)
      | none => fire depth rest rehearsal
  termination_by depth hooks => (depth, 2, hooks.length)

def act : Nat → List HookAction → Rehearsal → Rehearsal
  | _, [], rehearsal => rehearsal
  | depth, .onStore program :: rest, rehearsal =>
      let ((), session) := rehearsal.session.run program
      act depth rest { rehearsal with session }
  | 0, .tester _ :: rest, rehearsal => act 0 rest rehearsal
  | depth + 1, .tester part :: rest, rehearsal =>
      let (report, rehearsal) := play depth part rehearsal
      act (depth + 1) rest { rehearsal with nested := rehearsal.nested ++ [report] }
  termination_by depth actions => (depth, 1, actions.length)

def play : Nat → Except PlanFault TesterPart → Rehearsal →
    Except PlanFault TesterReport × Rehearsal
  | _, .error fault, rehearsal => (.error fault, rehearsal)
  | depth, .ok part, rehearsal =>
      let stage : TesterStage :=
        { rehearsal, settings := part.settings, checkouts := part.checkouts,
          reloads := part.reloads, synced := [] }
      let (results, stage) := Program.run (I := Work) (m := StateM TesterStage)
        (fun request => stageAnswer depth request) (testerPrograms part.consumer part.calls)
        stage
      (.ok { results, synced := stage.synced }, stage.rehearsal)
  termination_by depth => (depth, 5, 0)

def stageAnswer : Nat → (request : WorkRequest) → TesterStage → request.Answer × TesterStage
  | depth, .store call, stage =>
      let (result, rehearsal) := storeAnswer depth call stage.rehearsal
      (result, { stage with rehearsal })
  | _, .checkOut id, stage =>
      let (reply, checkouts) := match stage.checkouts with
        | reply :: rest => (reply, rest)
        | [] => (.target, [])
      (reply.outcome id, { stage with checkouts, synced := stage.synced ++ [id] })
  | _, .reloadWanted, stage =>
      match stage.reloads with
      | wanted :: rest => (wanted, { stage with reloads := rest })
      | [] => (false, stage)
  | _, .run command limit, stage =>
      let (result, rehearsal) := runCommand stage.settings command limit stage.rehearsal
      (result, { stage with rehearsal })
  | _, .print _, stage => ((), stage)
  | _, .now, stage =>
      let (clock, rehearsal) := stage.rehearsal.now
      (clock, { stage with rehearsal })
  | _, .sleep span, stage =>
      ((), { stage with rehearsal := stage.rehearsal.sleep span })
  termination_by depth => (depth, 4, 0)

end

/-- How deep testers can step in within each other: every time, a hook is used up. -/
def depth (rehearsal : Rehearsal) : Nat :=
  rehearsal.hooks.length + 1

def tester (part : TesterPart) (rehearsal : Rehearsal) : TesterReport × Rehearsal :=
  match play (rehearsal.depth + 1) (.ok part) rehearsal with
  | (.ok report, rehearsal) => (report, rehearsal)
  | (.error _, rehearsal) => ({ results := [], synced := [] }, rehearsal)

def runStore {α : Type} (program : Program Storage α) (rehearsal : Rehearsal) :
    α × Rehearsal :=
  Program.run (I := Storage) (m := StateM Rehearsal)
    (fun call rehearsal => storeAnswer rehearsal.depth call rehearsal) program rehearsal

def producerAnswer : (request : WorkRequest) → Rehearsal → request.Answer × Rehearsal
  | .store call, rehearsal => storeAnswer rehearsal.depth call rehearsal
  | .checkOut id, rehearsal => (.ok (some id), rehearsal)
  | .reloadWanted, rehearsal => (false, rehearsal)
  | .run command limit, rehearsal =>
      runCommand RunnerSettings.standard command limit rehearsal
  | .print _, rehearsal => ((), rehearsal)
  | .now, rehearsal => rehearsal.now
  | .sleep span, rehearsal => ((), rehearsal.sleep span)

def produce (producer : Producer) (id : WorkUnitId) (rehearsal : Rehearsal) :
    Except RoundFault (Option Status) × Rehearsal :=
  Program.run (I := Work) (m := StateM Rehearsal) (fun request => producerAnswer request)
    (producer.offerAndWait polls id).run rehearsal

def content (rehearsal : Rehearsal) (program : Program Storage α) : α :=
  (rehearsal.session.run program).1

end Rehearsal

end Handoff
