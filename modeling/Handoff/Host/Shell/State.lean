import Handoff.Host.Launch
import Handoff.Host.Shell.Pattern
import Handoff.Host.Shell.Reader
/-!
# The state of a shell

What a shell process remembers between commands, and the ways in which a command can
leave the ones around it.  All texts are byte texts.
-/

namespace Handoff.Shell

/-- A variable; one that is only marked has no value. -/
structure Variable where
  value : Option String
  /-- Whether programs get it. -/
  exported : Bool
  readOnly : Bool

structure Job where
  processes : List (Nat × Option ExitStatus)

/-- What is passed over after a command such as `break`. -/
inductive Skip where
  /-- The rest of so many loops, of which the last one may go on. -/
  | loops (again : Bool) (count : Nat)
  /-- The rest of a function or a script; `explicit` says that a status was given. -/
  | function (explicit : Bool)
  deriving DecidableEq

/-- Why the shell ends at once. -/
inductive Leave where
  /-- With the status that it has. -/
  | ended
  /-- With the status that `exit` has laid down. -/
  | exited
  /-- Because a command failed that must not. -/
  | failed
  deriving DecidableEq

structure State where
  /-- What the shell was called as. -/
  name : String
  arguments : List String
  bindings : StringMap Variable
  /-- The functions, each with the line on which it begins. -/
  functions : List (String × Nat × Script)
  aliases : List (String × String)
  documents : List (Nat × Word)
  nextDocument : Nat
  /-- The commands to be run on signals; the signal 0 is the end of the shell. -/
  traps : List (Nat × String)
  /-- The signals that were ignored before the shell began. -/
  deaf : List Nat
  status : Nat
  /-- The status that the shell ends with, if it is laid down. -/
  final : Option Nat
  /-- The status of the last command substitution in a command. -/
  substituted : Nat
  /-- The process of the shell that was started first. -/
  shellProcess : Nat
  options : List Char
  jobs : List Job
  lastJob : Option Nat
  skip : Option Skip
  /-- How many loops are being run. -/
  loops : Nat
  /-- The variables that functions have set aside, the innermost function first. -/
  locals : List (List (String × Option Variable))
  inFunction : Bool
  line : Nat
  /-- The command that complaints come from. -/
  command : Option String
  /-- The signals that were caught and not yet answered. -/
  pending : List Nat
  /-- The argument that is read next for options, counted from one, and how far the letters
  of the one before it have been read. -/
  optionIndex : Nat
  optionOffset : Option Nat
  mask : Nat
  /-- The path of the working directory, as it was come to. -/
  directory : String
  /-- The programs that were looked up in the search path. -/
  known : List String
  /-- Whether something could not be printed. -/
  unprinted : Bool
  launch : Launcher

/-- Commands of the shell: programs over the machine that keep a state. -/
abbrev ShellM := ExceptT Leave (StateT State (Program Machine))

structure Mode where
  /-- Whether the shell ends with it. -/
  last : Bool
  /-- Whether its status is looked at, so that a failure is no reason to end. -/
  tested : Bool

def Mode.plain : Mode := ⟨false, false⟩

def machine {α : Type} (program : Program Machine α) : ShellM α :=
  ExceptT.lift (StateT.lift program)

def call (request : SystemCall) : ShellM request.Answer :=
  machine (Machine.call request)

/-- Runs a command and gives what it came to, also when the shell would end with it. -/
def attempt {α : Type} (command : ShellM α) : ShellM (Except Leave α) :=
  ExceptT.lift command.run

def setStatus (status : Nat) : ShellM Unit :=
  modify fun state => { state with status }

def printOn (descriptor : Nat) (text : String) : ShellM (Except OsFault Unit) :=
  if text.isEmpty then return .ok ()
  else call (.write descriptor (Text.bytesOf text))

def say (text : String) : ShellM Unit := do
  match ← printOn 1 text with
  | .ok () => pure ()
  | .error _ => modify fun state => { state with unprinted := true }

def remark (text : String) : ShellM Unit := do
  let _ ← printOn 2 text

def State.origin (state : State) : String :=
  let start := state.name ++ ": " ++ toString state.line ++ ": "
  match state.command with
  | some command => start ++ command ++ ": "
  | none => start

def complain (text : String) : ShellM Unit := do
  let state ← get
  remark (state.origin ++ text ++ "\n")

def failure : Nat := 2

def fail {α : Type} (text : String) : ShellM α := do
  complain text
  setStatus failure
  throw .failed

namespace State

def value? (state : State) (name : String) : Option String :=
  (state.bindings.get? name).bind Variable.value

def hasOption (state : State) (letter : Char) : Bool :=
  state.options.contains letter

def isReadOnly (state : State) (name : String) : Bool :=
  ((state.bindings.get? name).map Variable.readOnly).getD false

def settings (state : State) : StringMap String :=
  StringMap.ofList (state.bindings.entries.filterMap fun (name, entry) =>
    match entry.exported, entry.value with
    | true, some value => some (name, value)
    | _, _ => none)

def separators (state : State) : List Char :=
  match state.value? "IFS" with
  | some value => value.toList
  | none => [' ', '\t', '\n']

end State

def putVariable (name : String) (entry : Variable) : ShellM Unit :=
  modify fun state => { state with bindings := state.bindings.insert name entry }

/-- The number that a text of digits writes, if it is one of 32 bits. -/
def number? (text : String) : Option Nat :=
  if !text.isEmpty && text.toList.all Char.isDigit then
    text.toNat?.filter (· ≤ 2147483647)
  else none

def setVariable (name value : String) : ShellM Unit := do
  let state ← get
  match state.bindings.get? name with
  | some old =>
      if old.readOnly then fail (name ++ ": is read only")
      else putVariable name { old with value := some value }
  | none => putVariable name { value := some value, exported := false, readOnly := false }
  if state.hasOption 'a' then
    match (← get).bindings.get? name with
    | some entry => putVariable name { entry with exported := true }
    | none => pure ()
  if name = "PATH" then modify fun state => { state with known := [] }
  if name = "OPTIND" then
    modify fun state =>
      { state with optionIndex := max 1 ((number? value).getD 1), optionOffset := none }

def unsetVariable (name : String) : ShellM Unit := do
  if (← get).isReadOnly name then fail (name ++ ": is read only")
  modify fun state => { state with bindings := state.bindings.erase name }

def markVariable (exports : Bool) (name : String) : ShellM Unit := do
  let old := ((← get).bindings.get? name).getD
    { value := none, exported := false, readOnly := false }
  putVariable name
    { old with exported := old.exported || exports, readOnly := old.readOnly || !exports }

/-- Sets a variable aside; it comes back when the innermost function ends. -/
def setAside (name : String) : ShellM Unit :=
  modify fun state =>
    match state.locals with
    | first :: rest =>
        if first.any fun e => e.1 == name then state
        else { state with locals := ((name, state.bindings.get? name) :: first) :: rest }
    | [] => state

def bringBack : ShellM Unit :=
  modify fun state =>
    match state.locals with
    | first :: rest =>
        let bindings := first.foldl
          (fun bindings (name, old) => match old with
            | some entry => bindings.insert name entry
            | none => bindings.erase name)
          state.bindings
        { state with bindings, locals := rest }
    | [] => state

/-- The number that a text writes; it fails if there is none. -/
def number (text : String) : ShellM Nat := do
  match number? text with
  | some number => return number
  | none => fail ("Illegal number: " ++ text)

def signalNames : List String :=
  ["HUP", "INT", "QUIT", "ILL", "TRAP", "ABRT", "BUS", "FPE", "KILL", "USR1", "SEGV", "USR2",
    "PIPE", "ALRM", "TERM", "16", "CHLD", "CONT", "STOP", "TSTP", "TTIN", "TTOU", "URG",
    "XCPU", "XFSZ", "VTALRM", "PROF", "WINCH", "IO", "PWR", "SYS", "32", "33", "RTMIN",
    "RTMIN+1", "RTMIN+2", "RTMIN+3", "RTMIN+4", "RTMIN+5", "RTMIN+6", "RTMIN+7", "RTMIN+8",
    "RTMIN+9", "RTMIN+10", "RTMIN+11", "RTMIN+12", "RTMIN+13", "RTMIN+14", "RTMIN+15",
    "RTMAX-14", "RTMAX-13", "RTMAX-12", "RTMAX-11", "RTMAX-10", "RTMAX-9", "RTMAX-8",
    "RTMAX-7", "RTMAX-6", "RTMAX-5", "RTMAX-4", "RTMAX-3", "RTMAX-2", "RTMAX-1", "RTMAX"]

/-- The name of a signal; the end of the shell counts as the signal 0. -/
def signalName (signal : Nat) : String :=
  if signal = 0 then "EXIT" else (signalNames[signal - 1]?).getD (toString signal)

def signalNumber? (text : String) : Option Nat :=
  match number? text with
  | some number => if number ≤ SignalNumber.last then some number else none
  | none =>
      let upper := String.ofList (text.toList.map Char.toUpper)
      (List.range (SignalNumber.last + 1)).find? fun signal => signalName signal == upper

def signalText (signal : Nat) : String :=
  match signal with
  | 1 => "Hangup"
  | 2 => "Interrupt"
  | 3 => "Quit"
  | 4 => "Illegal instruction"
  | 5 => "Trace/breakpoint trap"
  | 6 => "Aborted"
  | 7 => "Bus error"
  | 8 => "Floating point exception"
  | 9 => "Killed"
  | 10 => "User defined signal 1"
  | 11 => "Segmentation fault"
  | 12 => "User defined signal 2"
  | 13 => "Broken pipe"
  | 14 => "Alarm clock"
  | 15 => "Terminated"
  | 16 => "Stack fault"
  | 17 => "Child exited"
  | 18 => "Continued"
  | 19 => "Stopped (signal)"
  | 20 => "Stopped"
  | 21 => "Stopped (tty input)"
  | 22 => "Stopped (tty output)"
  | 23 => "Urgent I/O condition"
  | 24 => "CPU time limit exceeded"
  | 25 => "File size limit exceeded"
  | 26 => "Virtual timer expired"
  | 27 => "Profiling timer expired"
  | 28 => "Window changed"
  | 29 => "I/O possible"
  | 30 => "Power failure"
  | 31 => "Bad system call"
  | _ =>
      if 34 ≤ signal && signal ≤ SignalNumber.last then
        "Real-time signal " ++ toString (signal - 34)
      else "Unknown signal " ++ toString signal

/-- A text in quotes: single ones, and double ones around single ones. -/
def inQuotes (text : String) : String :=
  String.ofList (go (text.length + 1) text.toList)
where
  go : Nat → List Char → List Char
    | 0, _ => []
    | fuel + 1, chars =>
        let plain := chars.takeWhile (· != '\'')
        let rest := chars.drop plain.length
        let marks := rest.takeWhile (· == '\'')
        let first := '\'' :: plain ++ ['\'']
        if marks.isEmpty then first
        else
          let all := first ++ '"' :: marks ++ ['"']
          let rest := rest.drop marks.length
          if rest.isEmpty then all else all ++ go fuel rest

end Handoff.Shell
