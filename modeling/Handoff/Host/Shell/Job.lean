import Handoff.Host.Shell.State
/-!
# Jobs

The processes that a shell has started, and how it waits for them.
-/

namespace Handoff.Shell

def statusOf : ExitStatus → Nat
  | .exited code => code.toNat
  | .signalled signal => 128 + signal

def work (nanos : Nat) : ShellM Unit := do
  let caught ← call (.work nanos)
  unless caught.isEmpty do
    modify fun state =>
      { state with pending := state.pending ++ caught.filter fun s => !state.pending.contains s }

namespace Job

def note (process : Nat) (status : ExitStatus) : ShellM Unit :=
  modify fun state =>
    { state with jobs := state.jobs.map fun job =>
        { processes := job.processes.map fun e =>
            if e.1 = process then (process, some status) else e } }

def add (processes : List Nat) : ShellM Unit :=
  modify fun state =>
    { state with
      jobs := state.jobs ++ [{ processes := processes.map fun process => (process, none) }] }

def drop (processes : List Nat) : ShellM Unit :=
  modify fun state =>
    { state with jobs := state.jobs.filter fun job =>
        job.processes.map Prod.fst != processes }

def running (processes : List Nat) : ShellM (List Nat) := do
  let known := (← get).jobs.flatMap Job.processes
  return processes.filter fun process => known.lookup process == some none

/-- Says which signal ended a process, unless that is no news. -/
def announce : ExitStatus → ShellM Unit
  | .exited _ => return
  | .signalled signal =>
      if signal = SignalNumber.interrupt || signal = SignalNumber.brokenPipe then return
      else remark (signalText signal ++ "\n")

def waits : Nat := 1000000000

/-- Waits until all of the processes have ended, or a signal is caught, which is given.
Signals count only with the patience for them. -/
def awaitWith (patience : Patience) (loud : Bool) (processes : List Nat) :
    Nat → ShellM (Option Nat)
  | 0 => return none
  | fuel + 1 => do
      if (← running processes).isEmpty then return none
      else
        match ← call (.wait none patience) with
        | .ended process status => do
            note process status
            if loud && processes.contains process then announce status
            awaitWith patience loud processes fuel
        | .alone => return none
        | .nobody => do
            work 0
            return (← get).pending.getLast?

def await (processes : List Nat) : ShellM Unit := do
  let _ ← awaitWith .endless true processes waits

def awaitOrSignal (processes : List Nat) : ShellM (Option Nat) :=
  awaitWith .untilSignal true processes waits

/-- Waits for all processes without a word about them. -/
def awaitAll (processes : List Nat) : ShellM (Option Nat) :=
  awaitWith .untilSignal false processes waits

/-- The status of processes that were started together: that of the last one. -/
def statusOf (processes : List Nat) : ShellM Nat := do
  let known := (← get).jobs.flatMap Job.processes
  return match processes.getLast?.bind fun process => (known.lookup process).join with
    | some status => Shell.statusOf status
    | none => 0

def foreground (processes : List Nat) : ShellM Nat := do
  await processes
  let status ← statusOf processes
  drop processes
  return status

end Job

end Handoff.Shell
