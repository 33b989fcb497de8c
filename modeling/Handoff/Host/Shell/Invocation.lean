import Handoff.Host.Shell.Execution
/-!
# The shell as a program

How the shell is called, what it finds in its surroundings, and where its script comes
from.
-/

namespace Handoff.Shell

def standardPath : String :=
  "/usr/local/sbin:/usr/local/bin:/usr/sbin:/usr/bin:/sbin:/bin"

inductive ScriptOrigin where
  | text (script : String)
  | file (path : String)
  | input

namespace Invocation

/-- The path of the working directory: the one that was handed down, if it leads there. -/
def directory (env : StringMap String) : Program Machine String := do
  let location ← Machine.call .workDir
  let given := (env.get? "PWD").getD ""
  match ← Machine.call (.inspect (Text.unspelled given) true) with
  | .ok (there, _) =>
      return if given.startsWith "/" && there == location then given
        else Text.spelled location.text
  | .error _ => return Text.spelled location.text

/-- The variables of a shell: those it was given, and those it always has. -/
def bindings (env : StringMap String) (directory : String) (parent : Nat) :
    StringMap Variable :=
  let given := env.entries.filter fun e => Reader.isName e.1.toList
  let handed := StringMap.ofList (given.map fun (name, value) =>
    (name, { value := some value, exported := true, readOnly := false }))
  let own (bindings : StringMap Variable) (name value : String) : StringMap Variable :=
    let exported := ((bindings.get? name).map Variable.exported).getD false
    bindings.insert name { value := some value, exported, readOnly := false }
  let default (bindings : StringMap Variable) (name value : String) : StringMap Variable :=
    if (bindings.get? name).isSome then bindings else own bindings name value
  let all := own (own (own handed "IFS" " \t\n") "OPTIND" "1") "PPID" (toString parent)
  let all := default (default (default all "PS1" "# ") "PS2" "> ") "PS4" "+ "
  let all := default all "PATH" standardPath
  all.insert "PWD" { value := some directory, exported := true, readOnly := false }

def fresh (launch : Launcher) (name : String) (env : StringMap String) :
    Program Machine State := do
  let (process, parent) ← Machine.call .identify
  let directory ← directory env
  return {
    name, arguments := [], bindings := bindings env directory parent, functions := []
    aliases := [], documents := [], nextDocument := 0, traps := [], deaf := [], status := 0
    final := none, substituted := 0, shellProcess := process, options := [], jobs := []
    lastJob := none, skip := none, loops := 0, locals := [], inFunction := false, line := 0
    command := none, pending := [], optionIndex := 1, optionOffset := none, mask := 0o022
    directory, known := [], unprinted := false, launch }

/-- Takes options from the arguments; the flag says that a script is among them. -/
def takeOptions : Nat → Bool → List String → ShellM (Bool × List String)
  | 0, script, arguments => return (script, arguments)
  | fuel + 1, script, arguments => do
      match arguments with
      | "-" :: rest => return (script, rest)
      | "--" :: rest => return (script, rest)
      | argument :: rest =>
          match argument.toList with
          | sign :: letters =>
              if sign == '-' || sign == '+' then
                let plain := letters.filter fun c => c != 'c' && c != 'l'
                let rest ← Builtin.setOptions.setLetters (sign == '-') plain rest
                takeOptions fuel (script || letters.contains 'c') rest
              else return (script, arguments)
          | [] => return (script, arguments)
      | [] => return (script, [])

/-- Where the script comes from, as the arguments say; the others are left to it. -/
def originOf (arguments : List String) : ShellM ScriptOrigin := do
  let (script, rest) ← takeOptions (arguments.length + 1) false arguments
  let hand (arguments : List String) : ShellM Unit :=
    modify fun state => { state with arguments }
  match script, rest with
  | true, [] => fail "-c requires an argument"
  | true, text :: rest => do
      match rest with
      | name :: arguments => do
          modify fun state => { state with name }
          hand arguments
      | [] => pure ()
      return .text text
  | false, [] => do
      Builtin.setOption true 's'
      return .input
  | false, path :: arguments =>
      if (← get).hasOption 's' then
        hand rest
        return .input
      else
        hand arguments
        return .file path

def depth : Nat := 1000000000000

def runScript (arguments : List String) : ShellM Unit := do
  match ← originOf arguments with
  | .text script => do
      let _ ← runSource depth .plain
        (Source.ofText script.toList) 0
  | .input => do
      let content ← drain depth 0 ByteArray.empty
      let _ ← runSource depth .plain (Source.ofText (Text.byteText content).toList) 0
  | .file path => do
      let descriptor ← Redirection.openAt path .read false
      let content ← drain depth descriptor ByteArray.empty
      call (.close descriptor)
      modify fun state => { state with name := path }
      let _ ← runSource depth .plain (Source.ofText (Text.byteText content).toList) 0

end Invocation

def program (launch : Launcher) (image : Image) (env : StringMap String) :
    Program Machine ExitStatus := do
  let state ← Invocation.fresh launch (image.argv.head?.getD "sh") env
  let body : ShellM Nat := do
    let result ← attempt (Invocation.runScript image.argv.tail)
    conclude Invocation.depth result
  let (status, _) ← body.run.run state
  return .exited (UInt8.ofNat (match status with
    | .ok status => status
    | .error _ => failure))

end Handoff.Shell
