import Handoff.Host.Kernel.Answer
/-!
# The passing of time

Lets the processes of a host go on, always the one whose next call comes first, until
the clock shows a given time or a process has ended.
-/

namespace Handoff

namespace Kernel

/-- The process goes on with `program` after `cost` nanoseconds. -/
def resume (kernel : Kernel) (process : Nat) (program : Program Machine ExitStatus)
    (cost : Nat) : Kernel :=
  { kernel with
    tasks := kernel.tasks.map fun task =>
      if task.process = process && task.ended.isNone then
        { task with program, wake := some (kernel.clock + cost), waiting := false,
                    deadline := none }
      else task }

def suspend (kernel : Kernel) (process : Nat) (wake : Option Nat) : Kernel :=
  { kernel with
    tasks := kernel.tasks.map fun task =>
      if task.process = process then { task with wake, waiting := true } else task }

def fork (kernel : Kernel) (task : Task) (next : Nat → Program Machine ExitStatus) : Kernel :=
  let child : Task :=
    { task with
      process := kernel.nextProcess, parent := task.process, program := next 0
      wake := some (kernel.clock + birthTime), waiting := false, deadline := none, caught := [] }
  { kernel with
    tasks := kernel.tasks ++ [child]
    nextProcess := kernel.nextProcess + 1 }.resume task.process (next kernel.nextProcess) forkTime

def step (kernel : Kernel) (task : Task) : Kernel :=
  match task.program with
  | .done status => kernel.finish task.process status
  | .ask (.exit status) _ => kernel.finish task.process status
  | .ask .fork next => kernel.fork task next
  | .ask (.write descriptor bytes) next =>
      match kernel.write task descriptor bytes with
      | .answered answer kernel => kernel.resume task.process (next answer) callTime
      | .partly count kernel =>
          let rest : Program Machine ExitStatus :=
            .ask (.write descriptor (bytes.extract count bytes.size)) next
          (kernel.resume task.process rest callTime).suspend task.process none
      | .broken =>
          let kernel := kernel.deliver task.process SignalNumber.brokenPipe
          kernel.resume task.process (next (.error .brokenPipe)) callTime
  | .ask call next =>
      match kernel.attempt task call with
      | .answered answer cost kernel => kernel.resume task.process (next answer) cost
      | .blocked wake kernel => kernel.suspend task.process wake

/-- Lets a process make its next call at a time that has come or is still to come.  Whatever the
call does, only time moves the clock. -/
def stepAt (kernel : Kernel) (wake : Nat) (task : Task) : Kernel :=
  let clock := max kernel.clock wake
  { { kernel with clock }.step task with clock }

/-- The process whose next call comes first. -/
def next? (kernel : Kernel) : Option (Nat × Task) :=
  kernel.tasks.foldl
    (fun first task =>
      if task.isRunning then
        match task.wake, first with
        | none, _ => first
        | some wake, none => some (wake, task)
        | some wake, some (earliest, _) => if wake < earliest then some (wake, task) else first
      else first)
    none

/-- Lets the processes go on for `steps` calls at most, until the time `limit` or until
`enough` holds. -/
def advance (limit : Option Nat) (enough : Kernel → Bool) : Nat → Kernel → Kernel
  | 0, kernel => kernel
  | steps + 1, kernel =>
      if enough kernel then kernel
      else
        match kernel.next? with
        | none => kernel
        | some (wake, task) =>
            if limit.all (wake ≤ ·) then
              advance limit enough steps (kernel.stepAt wake task)
            else kernel

theorem clock_le_advance (limit : Option Nat) (enough : Kernel → Bool) (steps : Nat)
    (kernel : Kernel) : kernel.clock ≤ (kernel.advance limit enough steps).clock := by
  induction steps generalizing kernel with
  | zero => exact Nat.le_refl _
  | succ steps ih =>
      rw [advance]
      split
      · exact Nat.le_refl _
      split
      · exact Nat.le_refl _
      split
      · exact Nat.le_trans (Nat.le_max_left _ _) (ih (kernel.stepAt _ _))
      · exact Nat.le_refl _

def steps : Nat := 1000000000000

/-- The kernel when the clock shows `time`. -/
def runUntil (kernel : Kernel) (time : Nat) : Kernel :=
  let kernel := kernel.advance (some time) (fun _ => false) steps
  { kernel with clock := max kernel.clock time }

def ending? (kernel : Kernel) (process : Nat) : Option ExitStatus :=
  (kernel.task? process).bind Task.ended

def forget (kernel : Kernel) (process : Nat) : Kernel :=
  { kernel with
    tasks := kernel.tasks.filter fun task => task.process != process || task.ended.isNone }

end Kernel

end Handoff
