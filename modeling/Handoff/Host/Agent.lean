import Handoff.Host.GitScript
import Handoff.Host.OpenStore
import Handoff.Host.Runner
import Handoff.Watch
import Handoff.Work
/-!
# Agents on a host

The surroundings of a bot or a tester that works on a host: an open store, the git
checkout, the watched files, the command runner, the terminal and the clock.
-/

namespace Handoff

structure Agent where
  session : Session
  git : GitScript
  client : GitClient
  watch : SourceWatch
  settings : RunnerSettings
  printed : ByteArray := ByteArray.empty

namespace Agent

def plain (session : Session) (settings : RunnerSettings) : Agent where
  session
  git := { installed := false, home := [], replies := [], calls := [] }
  client := { repo := ⟨""⟩, branch := "" }
  watch := SourceWatch.empty
  settings

def withHost (agent : Agent) (host : Host) : Agent :=
  { agent with session := { agent.session with host } }

def settingsFor (agent : Agent) (limit : Option Duration) : RunnerSettings :=
  { agent.settings with timeout := limit.getD agent.settings.timeout }

/-- Carries out one request; a panic is a fault of the command that was run. -/
def answer : (request : WorkRequest) → Agent → request.Answer × Agent
  | .store call, agent =>
      let (result, session) := Session.answer call agent.session
      (result, { agent with session })
  | .checkOut id, agent =>
      let (result, git, host) := agent.git.run (agent.client.syncTo id).run agent.session.host
      (result, { agent with git }.withHost host)
  | .reloadWanted, agent =>
      let (wanted, host) := agent.session.host.runFiles agent.watch.reloadWanted
      (wanted, agent.withHost host)
  | .run command limit, agent =>
      let (result, host) := Runner.run (agent.settingsFor limit) command agent.session.host
      (result, agent.withHost host)
  | .print text, agent => ((), { agent with printed := agent.printed ++ text })
  | .now, agent =>
      let (clock, host) := agent.session.host.look
      (clock, agent.withHost host)
  | .sleep span, agent => ((), agent.withHost (agent.session.host.sleep span.toNanos))

def run {α : Type} (program : Program Work α) (agent : Agent) : α × Agent :=
  Program.run (I := Work) (m := StateM Agent) (fun request => answer request) program agent

/-- Carries out one request, unless it ends in a panic. -/
def attempt : (request : WorkRequest) → Agent → Except Panic request.Answer × Agent
  | .run command limit, agent =>
      let (result, host) := Runner.attempt (agent.settingsFor limit) command agent.session.host
      (result, agent.withHost host)
  | request, agent =>
      let (result, agent) := answer request agent
      (.ok result, agent)

/-- Runs a program of the agent, which a panic breaks off. -/
def work {α : Type} (program : Program Work α) (agent : Agent) : Except Panic α × Agent :=
  Program.run (I := Work) (m := ExceptT Panic (StateM Agent)) (fun request => attempt request)
    program agent

end Agent

end Handoff
