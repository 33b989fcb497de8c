import Handoff.Commands
import Handoff.Host.Image
/-!
# The program

Runs a command of the command line on a fresh host and shows what it printed.
-/

namespace Handoff

def workDirectory : String := "/work"

def relaunchLimit : Nat := 1000

def freshTerminal : Terminal :=
  let host := Host.fresh workDirectory
  { host
    git := { installed := true, home := host.cwd, replies := [], calls := [] }
    printed := ByteArray.empty }

end Handoff

open Handoff in
def main (arguments : List String) : IO UInt32 := do
  let (outcome, terminal) := Commands.run arguments relaunchLimit freshTerminal
  let output ← IO.getStdout
  output.write terminal.printed
  output.flush
  match outcome.diagnostic with
  | some fault => IO.eprint (Commands.diagnosticLine fault)
  | none => pure ()
  match outcome.panic with
  | some panic => IO.eprintln panic.message
  | none => pure ()
  return outcome.exitCode.toUInt32
