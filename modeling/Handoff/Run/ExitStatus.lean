/-!
# Exit statuses

How a process ended, the number that is recorded for it and the text that reports it.
-/

namespace Handoff

inductive ExitStatus where
  | exited (code : UInt8)
  | signalled (signal : Nat)
  deriving DecidableEq, Repr

namespace ExitStatus

def success : ExitStatus → Bool
  | exited code => code == 0
  | signalled _ => false

/-- The code of a process that exited; minus the signal for one that was killed. -/
def code : ExitStatus → Int32
  | exited code => Int32.ofInt code.toNat
  | signalled signal => -Int32.ofInt signal

def signalNames : List String :=
  ["SIGHUP", "SIGINT", "SIGQUIT", "SIGILL", "SIGTRAP", "SIGABRT", "SIGBUS", "SIGFPE",
    "SIGKILL", "SIGUSR1", "SIGSEGV", "SIGUSR2", "SIGPIPE", "SIGALRM", "SIGTERM", "SIGSTKFLT",
    "SIGCHLD", "SIGCONT", "SIGSTOP", "SIGTSTP", "SIGTTIN", "SIGTTOU", "SIGURG", "SIGXCPU",
    "SIGXFSZ", "SIGVTALRM", "SIGPROF", "SIGWINCH", "SIGIO", "SIGPWR", "SIGSYS"]

def text : ExitStatus → String
  | exited code => "exit status: " ++ toString code.toNat
  | signalled signal =>
      "signal: " ++ toString signal ++
        match signalNames[signal - 1]? with
        | some name => " (" ++ name ++ ")"
        | none => ""

end ExitStatus

end Handoff
