import Handoff.Path
import Handoff.StringMap
import Handoff.Text.Decimal
/-!
# The command line

Reads the arguments and the environment of the program.  Options that belong to every
command may stand before or after its name; what stands after it wins, and an option
that is not given at all is looked up in the environment.
-/

namespace Handoff

inductive Subcommand where
  /-- Run the plan once, in the current checkout. -/
  | runOnce (archive : Bool) (id : Option String)
  /-- Offer a unit and wait for its status. -/
  | bot (id : Option String)
  /-- Poll for offers and test them. -/
  | tester (once : Bool)
  | printLogs (id : String)
  | state
  deriving DecidableEq, Repr

structure CommandOptions where
  store : Option String
  plan : Option Path
  repo : Option Path
  branch : String
  pollSecs : UInt64
  commandTimeoutSecs : Option UInt64
  watch : List Path
  subcommand : Subcommand
  deriving DecidableEq

inductive Invocation where
  /-- Tell which program this is. -/
  | version
  | command (options : CommandOptions)
  deriving DecidableEq

namespace CommandLine

inductive ValueOption where
  | store
  | plan
  | repo
  | branch
  | pollSecs
  | commandTimeoutSecs
  | watch
  | id
  deriving DecidableEq, Repr

inductive Flag where
  | archive
  | once
  deriving DecidableEq, Repr

namespace ValueOption

def shared : List ValueOption :=
  [.store, .plan, .repo, .branch, .pollSecs, .commandTimeoutSecs, .watch]

def name : ValueOption → String
  | store => "store"
  | plan => "plan"
  | repo => "repo"
  | branch => "branch"
  | pollSecs => "poll-secs"
  | commandTimeoutSecs => "command-timeout-secs"
  | watch => "watch"
  | id => "id"

/-- The environment variable that stands in for the option. -/
def environmentName? : ValueOption → Option String
  | store => some "HANDOFF_STORE"
  | plan => some "HANDOFF_PLAN"
  | repo => some "HANDOFF_REPO"
  | branch => some "HANDOFF_BRANCH"
  | pollSecs => some "HANDOFF_POLL_SECS"
  | commandTimeoutSecs => some "HANDOFF_COMMAND_TIMEOUT_SECS"
  | watch => none
  | id => none

def admits (text : String) : ValueOption → Bool
  | plan => text != ""
  | repo => text != ""
  | watch => text != ""
  | pollSecs => (Text.uint64? text).isSome
  | commandTimeoutSecs => (Text.uint64? text).isSome
  | _ => true

def repeats : ValueOption → Bool
  | watch => true
  | _ => false

end ValueOption

def Flag.name : Flag → String
  | archive => "archive"
  | once => "once"

structure Grammar where
  options : List ValueOption
  flags : List Flag
  words : Nat

/-- What was found on one level: before or after the name of the command. -/
structure Found where
  values : List (ValueOption × String)
  flags : List Flag
  words : List String

namespace Found

def none : Found := { values := [], flags := [], words := [] }

def value? (found : Found) (option : ValueOption) : Option String :=
  found.values.lookup option

def allValues (found : Found) (option : ValueOption) : List String :=
  found.values.filterMap fun (name, value) => if name = option then some value else Option.none

def withValue? (found : Found) (option : ValueOption) (value : String) : Option Found :=
  if !option.repeats && (found.value? option).isSome then Option.none
  else if option.admits value then
    some { found with values := found.values ++ [(option, value)] }
  else Option.none

def withFlag? (found : Found) (flag : Flag) : Option Found :=
  if found.flags.contains flag then Option.none
  else some { found with flags := found.flags ++ [flag] }

end Found

inductive Level where
  /-- The version is asked for; what follows is not looked at. -/
  | version
  | found (found : Found) (rest : List String)

def asksForVersion (argument : String) : Bool :=
  argument == "--version" || ['-', 'V'].isPrefixOf argument.toList

/-- Whether an argument looks like an option; a lone dash does not. -/
def looksLikeOption (argument : String) : Bool :=
  argument.toList.head? == some '-' && argument != "-"

def longOption? (argument : String) : Option (String × Option String) :=
  match argument.toList with
  | '-' :: '-' :: rest =>
      let name := rest.takeWhile (· != '=')
      let value := match rest.drop name.length with
        | _ :: value => some (String.ofList value)
        | [] => none
      some (String.ofList name, value)
  | _ => none

/-- Reads the arguments of a level.  Before the name of a command (`outer`) the first
word ends the level and is left over; after `--` all arguments are words. -/
def readLevel (grammar : Grammar) (outer : Bool) : List String → Found → Option Level
  | [], found => some (.found found [])
  | "--" :: rest, found =>
      if outer then none else some (.found { found with words := found.words ++ rest } [])
  | argument :: rest, found =>
      if outer && asksForVersion argument then some .version
      else match longOption? argument with
      | some (name, inline) =>
          match grammar.options.find? fun option => option.name == name with
          | some option =>
              match inline with
              | some value => do readLevel grammar outer rest (← found.withValue? option value)
              | none =>
                  match rest with
                  | [] => none
                  | value :: rest =>
                      if looksLikeOption value then none
                      else do readLevel grammar outer rest (← found.withValue? option value)
          | none =>
              match grammar.flags.find? fun flag => flag.name == name, inline with
              | some flag, none => do readLevel grammar outer rest (← found.withFlag? flag)
              | _, _ => none
      | none =>
          if looksLikeOption argument then none
          else if outer then some (.found found (argument :: rest))
          else readLevel grammar outer rest { found with words := found.words ++ [argument] }

def grammarOf? : String → Option Grammar
  | "run-once" => some { options := .id :: ValueOption.shared, flags := [.archive], words := 0 }
  | "bot" => some { options := .id :: ValueOption.shared, flags := [], words := 0 }
  | "tester" => some { options := ValueOption.shared, flags := [.once], words := 0 }
  | "print-logs" => some { options := ValueOption.shared, flags := [], words := 1 }
  | "state" => some { options := ValueOption.shared, flags := [], words := 0 }
  | _ => none

def subcommandOf? (name : String) (found : Found) : Option Subcommand :=
  match name, found.words with
  | "run-once", _ => some (.runOnce (found.flags.contains .archive) (found.value? .id))
  | "bot", _ => some (.bot (found.value? .id))
  | "tester", _ => some (.tester (found.flags.contains .once))
  | "print-logs", [id] => some (.printLogs id)
  | "state", _ => some .state
  | _, _ => none

def environmentValue? (env : StringMap String) (option : ValueOption) : Option String :=
  option.environmentName?.bind env.get?

/-- Whether the environment is fit for a level: it is looked at for every option that
was not given there. -/
def environmentFits (env : StringMap String) (found : Found) : Bool :=
  ValueOption.shared.all fun option =>
    match found.value? option, environmentValue? env option with
    | none, some value => option.admits value
    | _, _ => true

def resolve (env : StringMap String) (outer inner : Found) (option : ValueOption) :
    Option String :=
  ((inner.value? option).or (outer.value? option)).or (environmentValue? env option)

def defaultPollSecs : UInt64 := 30

def defaultBranch : String := "master"

def combine (env : StringMap String) (outer inner : Found) (subcommand : Subcommand) :
    CommandOptions :=
  let value := resolve env outer inner
  let watch := match inner.allValues .watch with
    | [] => outer.allValues .watch
    | paths => paths
  { store := value .store
    plan := (value .plan).map Path.mk
    repo := (value .repo).map Path.mk
    branch := (value .branch).getD defaultBranch
    pollSecs := ((value .pollSecs).bind Text.uint64?).getD defaultPollSecs
    commandTimeoutSecs := (value .commandTimeoutSecs).bind Text.uint64?
    watch := watch.map Path.mk
    subcommand }

def readCommand (env : StringMap String) (outer : Found) (name : String)
    (arguments : List String) : Option CommandOptions := do
  let grammar ← grammarOf? name
  match ← readLevel grammar false arguments Found.none with
  | .version => none
  | .found inner _ =>
      let subcommand ← subcommandOf? name inner
      if inner.words.length = grammar.words ∧ environmentFits env outer ∧
          environmentFits env inner then
        return combine env outer inner subcommand
      else none

/-- Reads the arguments; `none` for a mistake in their use. -/
def read (env : StringMap String) (arguments : List String) : Option Invocation := do
  let shared : Grammar := { options := ValueOption.shared, flags := [], words := 0 }
  match ← readLevel shared true arguments Found.none with
  | .version => return .version
  | .found _ [] => none
  | .found outer (name :: rest) => return .command (← readCommand env outer name rest)

end CommandLine

end Handoff
