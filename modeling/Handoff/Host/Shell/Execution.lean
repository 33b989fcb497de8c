import Handoff.Host.Shell.Builtin
import Handoff.Host.Shell.Redirection
/-!
# Running shell scripts

Carries out the commands of a script, as a program over the machine.
-/

namespace Handoff.Shell

/-- The time that the shell takes for a command, in nanoseconds. -/
def commandTime : Nat := 5000

def State.hasTraps (state : State) : Bool :=
  state.traps.any fun e => e.2 != ""

def setLine (line : Nat) : ShellM Unit :=
  modify fun state => { state with line }

def settle (keepTraps background first : Bool) : ShellM Unit := do
  let state ← get
  unless keepTraps do
    for (signal, action) in state.traps do
      unless signal = 0 || action = "" do call (.setDisposition signal .byDefault)
    modify fun state => { state with traps := state.traps.filter fun e => e.2 == "" }
  modify fun state => { state with jobs := [], pending := [] }
  if background then
    call (.setDisposition SignalNumber.interrupt .ignored)
    call (.setDisposition SignalNumber.quit .ignored)
    if first then
      call (.close 0)
      let _ ← call (.openFile "/dev/null" .read)

def drainMax : Nat := 65536

/-- Whether a script does nothing but to call `trap`. -/
def asksForTraps : Script → Bool
  | .simple _ _ (word :: _) _ => (Word.plain? word).map String.ofList == some "trap"
  | _ => false

inductive LoopStep where
  | again
  | leave

def afterBody : ShellM LoopStep := do
  match (← get).skip with
  | none => return .again
  | some (.function _) => return .leave
  | some (.loops again count) =>
      if count ≤ 1 then
        modify fun state => { state with skip := none }
        return if again then .again else .leave
      else
        modify fun state => { state with skip := some (.loops again (count - 1)) }
        return .leave

def enterLoop : ShellM Unit :=
  modify fun state => { state with loops := state.loops + 1 }

def leaveLoop : ShellM Unit :=
  modify fun state => { state with loops := state.loops - 1 }

/-- Runs `body` with what `before` has put in place; `after` is carried out in any case. -/
def ensuring {α : Type} (body : ShellM α) (after : ShellM Unit) : ShellM α := do
  let result ← attempt body
  after
  match result with
  | .ok value => return value
  | .error leave => throw leave

def refuse (name : String) (fault : OsFault) : ShellM Nat := do
  let missing := fault == .notFound || fault == .notDirectory
  complain (name ++ ": " ++ if missing then "not found" else fault.reason)
  return if missing || fault == .tooManyLinks || fault == .nameTooLong then 127 else 126

def State.searchPath (state : State) : String :=
  (state.value? "PATH").getD ""

def locate (name : String) : ShellM (Except OsFault String) := do
  go ((← get).searchPath.splitOn ":") .notFound
where
  go : List String → OsFault → ShellM (Except OsFault String)
    | [], fault => return .error fault
    | directory :: rest, fault => do
        let path := Launch.pathIn directory name
        match ← Expansion.inspect path true with
        | .ok (_, .file _ _ _) => return .ok path
        | .ok (_, .tool _) => return .ok path
        | .ok _ => go rest .permissionDenied
        | .error .notFound => go rest fault
        | .error .notDirectory => go rest fault
        | .error other => go rest other

/-- The process goes on as a program; the status is given if it cannot. -/
def replaceBy (arguments : List String) : ShellM Nat := do
  let state ← get
  let env := state.settings
  match ← machine (Launch.find true state.searchPath arguments env) with
  | .ok image => machine (Launch.become state.launch image env)
  | .error fault => refuse (arguments.head?.getD "") fault

def runProgram (arguments : List String) : ShellM Nat := do
  let process ← call .fork
  if process = 0 then
    let status ← replaceBy arguments
    machine (Machine.exit (.exited (UInt8.ofNat status)))
  else
    Job.add [process]
    Job.foreground [process]

inductive Found where
  | function (line : Nat) (body : Script)
  | builtin (entry : Builtin.Entry)
  /-- The commands that run other commands. -/
  | inner (name : String)
  | program

def innerCommands : List (String × Bool) :=
  [("eval", true), (".", true), ("exec", true), ("command", false), ("type", false)]

def find (functions : Bool) (name : String) : ShellM Found := do
  let state ← get
  match if functions then state.functions.lookup name else none with
  | some (line, body) => return .function line body
  | none =>
      match Builtin.all.lookup name with
      | some entry => return .builtin entry
      | none =>
          if (innerCommands.lookup name).isSome then return .inner name else return .program

/-- Takes note of a program that was found in the search path, and says whether it was
known. -/
def remember (name : String) : ShellM Bool := do
  let known := (← get).known.contains name
  unless known do modify fun state => { state with known := name :: state.known }
  return known

def describe (verbose : Bool) (name : String) : ShellM Nat := do
  let tell (long short : String) : ShellM Nat := do
    say ((if verbose then name ++ long else short) ++ "\n")
    return 0
  let state ← get
  if Reader.keywords.contains name then tell " is a shell keyword" name
  else
    match state.aliases.lookup name with
    | some value =>
        if verbose then tell (" is an alias for " ++ value) ""
        else do
          say ("alias " ++ Builtin.aliasText name value)
          return 0
    | none =>
        match ← find true name with
        | .function _ _ => tell " is a shell function" name
        | .builtin entry =>
            tell (if entry.special then " is a special shell builtin"
              else " is a shell builtin") name
        | .inner inner =>
            tell (if innerCommands.lookup inner == some true
              then " is a special shell builtin" else " is a shell builtin") name
        | .program => do
            let missing : ShellM Nat := do
              if verbose then say (name ++ ": not found\n")
              return 127
            if name.contains '/' then
              match ← Expansion.inspect name true with
              | .ok _ => tell (" is " ++ name) name
              | .error _ => missing
            else
              match ← locate name with
              | .ok path => do
                  let known ← remember name
                  tell ((if known then " is a tracked alias for " else " is ") ++ path) path
              | .error _ => missing

def describeAll : List String → Nat → ShellM Nat
  | [], status => return status
  | name :: rest, status => do
      let own ← describe true name
      describeAll rest (if own = 0 then status else own)

/-- What a simple command is, once the first of its words is known. -/
structure Resolved where
  found : Option Found
  /-- Whether it is a special command; `none` if it is none of the shell. -/
  special : Option Bool
  /-- The words of it that have been expanded. -/
  fields : List String
  /-- Whether functions were passed over. -/
  direct : Bool
  /-- Whether the standard search path is used. -/
  standardPath : Bool

/-- The words after `command` and its options; `none` if it asks what a command is. -/
def afterCommand (standard : Bool) : List String → Option (Bool × List String)
  | "--" :: rest => some (standard, rest)
  | first :: rest =>
      match first.toList with
      | '-' :: letter :: letters =>
          if (letter :: letters).all (· == 'p') then afterCommand true rest else none
      | _ => some (standard, first :: rest)
  | [] => none

set_option maxRecDepth 4000 in
mutual

/-- Runs a script from its text, one complete command after the other.  With `last`, the
shell ends with it. -/
def runSource : Nat → Mode → Source → Nat → ShellM Nat
  | 0, _, _, status => return status
  | fuel + 1, mode, source, status => do
      let state ← get
      let source := { source with aliases := state.aliases, nextDocument := state.nextDocument,
                                  documents := [] }
      match source.next? with
      | .error fault => do
          setLine fault.line
          fail fault.text
      | .ok none => return status
      | .ok (some (script, source)) => do
          modify fun state =>
            { state with documents := source.documents ++ state.documents
                         nextDocument := source.nextDocument }
          let ends := match source.back with
            | some .ending => true
            | _ => false
          match script with
          | .nothing => runSource fuel mode source status
          | script => do
              let status ← evaluate fuel { mode with last := mode.last && ends } script
              if (← get).skip.isSome then return status
              else runSource fuel mode source status

def answerSignals : Nat → ShellM Unit
  | 0 => return
  | fuel + 1 => do
      let state ← get
      unless state.pending.isEmpty do
        let status := state.final.getD state.status
        set { state with final := some status }
        answerEach fuel status (state.pending.mergeSort (· ≤ ·))
        modify fun after => { after with final := state.final }

def answerEach : Nat → Nat → List Nat → ShellM Unit
  | 0, _, _ => return
  | _ + 1, _, [] => return
  | fuel + 1, status, signal :: rest => do
      unless (← get).skip.isSome do
        modify fun state => { state with pending := state.pending.filter (· != signal) }
        match (← get).traps.lookup signal with
        | none => pure ()
        | some action => do
            let _ ← runSource fuel .plain (Source.ofText action.toList) 0
            unless (← get).skip = some (.function true) do setStatus status
        answerEach fuel status rest

/-- Ends the shell after what it came to; the status is given that it ends with. -/
def conclude : Nat → Except Leave Unit → ShellM Nat
  | 0, _ => return 0
  | fuel + 1, result => do
      modify fun state =>
        let laidDown : Bool := match result with
          | .error .exited => true
          | _ => state.skip == some (.function false)
        { state with status := if laidDown then state.final.getD state.status else state.status
                     final := none, skip := none, loops := 0, command := none }
      let state ← get
      match state.traps.lookup 0 with
      | none => return state.status
      | some action => do
          set { state with final := some state.status
                           traps := state.traps.filter fun e => e.1 != 0 }
          let result ← attempt (runSource fuel .plain (Source.ofText action.toList) 0)
          let after ← get
          return match result with
            | .ok _ => after.final.getD after.status
            | .error .exited => after.final.getD after.status
            | .error _ => after.status

/-- Runs `script` as the last thing that the process does, which has been split off for
it. -/
def runAsChild : Nat → Mode → Bool → Bool → List (Nat × RedirectAction) → Script → ShellM Nat
  | 0, _, _, _, _, _ => return 0
  | fuel + 1, mode, background, first, redirects, script => do
      settle (asksForTraps script) background first
      let body : ShellM Unit := do
        let (_, done) ← Redirection.performAll (substitute fuel) false redirects []
        if !done then throw .failed
        let _ ← evaluate fuel { mode with last := true } script
      let result ← attempt body
      let status ← conclude fuel result
      machine (Machine.exit (.exited (UInt8.ofNat status)))

def substitute : Nat → Script → ShellM String
  | 0, _ => return ""
  | fuel + 1, script => do
      match script with
      | .nothing => return ""
      | script => do
          let (out, into) ← call .makePipe
          let process ← call .fork
          if process = 0 then
            call (.close out)
            if into != 1 then
              let _ ← call (.duplicateTo into 1)
              call (.close into)
            let _ ← runAsChild fuel .plain false false [] script
            return ""
          else
            call (.close into)
            let content ← drain fuel out ByteArray.empty
            call (.close out)
            Job.add [process]
            let status ← Job.foreground [process]
            modify fun state => { state with substituted := status }
            let text := (Text.byteText content).toList.filter (· != '\x00')
            return String.ofList (text.reverse.dropWhile (· == '\n')).reverse

def drain : Nat → Nat → ByteArray → ShellM ByteArray
  | 0, _, content => return content
  | fuel + 1, descriptor, content => do
      match ← call (.read descriptor drainMax) with
      | .ok more => if more.isEmpty then return content else drain fuel descriptor (content ++ more)
      | .error _ => return content

def evaluate : Nat → Mode → Script → ShellM Nat
  | 0, _, _ => return 0
  | fuel + 1, mode, script => do
      let inner : Mode := { last := false, tested := mode.tested }
      let tested : Mode := { last := false, tested := true }
      match script with
      | .nothing => close fuel mode false
      | .simple line assignments words redirects => do
          work commandTime
          answerSignals fuel
          setStatus (← simple fuel mode line assignments words redirects)
          work 0
          close fuel mode true
      | .pipeline stages background => do
          answerSignals fuel
          setStatus (← pipeline fuel mode stages background)
          work 0
          close fuel mode true
      | .subshell line body redirects => do
          answerSignals fuel
          setLine line
          let actions ← Redirection.resolveAll (substitute fuel) redirects
          if mode.last && !(← get).hasTraps then
            let (_, done) ← Redirection.performAll (substitute fuel) false actions []
            if !done then throw .failed
            let _ ← evaluate fuel mode body
            throw .ended
          else
            let process ← call .fork
            if process = 0 then runAsChild fuel mode false false actions body
            else
              Job.add [process]
              setStatus (← Job.foreground [process])
              work 0
              close fuel mode true
      | .background line body redirects => do
          answerSignals fuel
          unless line = 0 do setLine line
          let actions ← Redirection.resolveAll (substitute fuel) redirects
          let process ← call .fork
          if process = 0 then runAsChild fuel .plain true true actions body
          else
            Job.add [process]
            modify fun state => { state with lastJob := some process }
            setStatus 0
            close fuel mode true
      | .redirected line body redirects => do
          setLine line
          let actions ← Redirection.resolveAll (substitute fuel) redirects
          let (kept, done) ← Redirection.performAll (substitute fuel) true actions []
          let status ← ensuring
            (if done then evaluate fuel inner body else return failure)
            (Redirection.restore kept)
          setStatus status
          close fuel mode false
      | .negated body => do
          let status ← evaluate fuel tested body
          setStatus (if status = 0 then 1 else 0)
          close fuel mode false
      | .both first second => do
          let status ← evaluate fuel tested first
          if status != 0 || (← get).skip.isSome then close fuel mode false
          else
            setStatus (← evaluate fuel mode second)
            close fuel mode false
      | .either first second => do
          let status ← evaluate fuel tested first
          if status = 0 || (← get).skip.isSome then close fuel mode false
          else
            setStatus (← evaluate fuel mode second)
            close fuel mode false
      | .sequence first second => do
          let _ ← evaluate fuel inner first
          if (← get).skip.isSome then close fuel mode false
          else
            setStatus (← evaluate fuel mode second)
            close fuel mode false
      | .branch condition yes no => do
          let status ← evaluate fuel tested condition
          if (← get).skip.isSome then close fuel mode false
          else
            match if status = 0 then yes else no with
            | .nothing => do
                setStatus 0
                close fuel mode false
            | chosen => do
                setStatus (← evaluate fuel mode chosen)
                close fuel mode false
      | .loop until? condition body => do
          enterLoop
          let status ← loop fuel inner until? condition body 0
          leaveLoop
          setStatus status
          close fuel mode false
      | .each line name words body => do
          setLine line
          let fields ← Expansion.allFields (substitute fuel) words
          enterLoop
          let status ← each fuel inner name fields body 0
          leaveLoop
          setStatus status
          close fuel mode false
      | .choose line subject arms => do
          setLine line
          let text ← Expansion.text (substitute fuel) .text subject
          setStatus (← choose fuel mode text arms)
          close fuel mode false
      | .function line name body => do
          modify fun state =>
            { state with functions :=
                (name, line, body) :: state.functions.filter fun e => e.1 != name }
          setStatus 0
          close fuel mode false

/-- What comes after every command: signals are answered, and the shell ends if it was
the last command, or one that must not fail. -/
def close : Nat → Mode → Bool → ShellM Nat
  | 0, _, _ => return 0
  | fuel + 1, mode, checked => do
      answerSignals fuel
      let state ← get
      if checked && state.hasOption 'e' && !mode.tested && state.status != 0 then throw .ended
      if mode.last then throw .ended
      return state.status

def loop : Nat → Mode → Bool → Script → Script → Nat → ShellM Nat
  | 0, _, _, _, _, status => return status
  | fuel + 1, mode, until?, condition, body, status => do
      let first ← evaluate fuel { mode with tested := true } condition
      let skipped := (← get).skip
      match ← afterBody with
      | .leave =>
          return match skipped with
            | some (.function _) => first
            | _ => status
      | .again =>
          if skipped.isSome then loop fuel mode until? condition body status
          else if (first == 0) == until? then return status
          else do
            let status ← evaluate fuel mode body
            match ← afterBody with
            | .again => loop fuel mode until? condition body status
            | .leave => return status

def each : Nat → Mode → String → List String → Script → Nat → ShellM Nat
  | 0, _, _, _, _, status => return status
  | _ + 1, _, _, [], _, status => return status
  | fuel + 1, mode, name, field :: rest, body, _ => do
      setVariable name field
      let status ← evaluate fuel mode body
      match ← afterBody with
      | .again => each fuel mode name rest body status
      | .leave => return status

def choose : Nat → Mode → String → List (List Word × Script) → ShellM Nat
  | 0, _, _, _ => return 0
  | _ + 1, _, _, [] => return 0
  | fuel + 1, mode, text, (patterns, body) :: rest => do
      if ← anyMatches fuel text patterns then
        match body with
        | .nothing => return 0
        | body => evaluate fuel mode body
      else choose fuel mode text rest

def anyMatches : Nat → String → List Word → ShellM Bool
  | 0, _, _ => return false
  | _ + 1, _, [] => return false
  | fuel + 1, text, pattern :: rest => do
      let letters ← Expansion.pattern (substitute fuel) pattern
      if Pattern.test letters text then return true else anyMatches fuel text rest

/-- Starts the stages of a pipeline, the first of which reads from `source`. -/
def startStages : Nat → Mode → Bool → Option Nat → List Script → ShellM (List Nat)
  | 0, _, _, _, _ => return []
  | _ + 1, _, _, _, [] => return []
  | fuel + 1, mode, background, source, stage :: rest => do
      let ends ← if rest.isEmpty then pure none else do pure (some (← call .makePipe))
      let process ← call .fork
      if process = 0 then
        match ends with
        | some (out, _) => call (.close out)
        | none => pure ()
        match source with
        | some source =>
            if source != 0 then
              let _ ← call (.duplicateTo source 0)
              call (.close source)
        | none => pure ()
        match ends with
        | some (_, into) =>
            if into != 1 then
              let _ ← call (.duplicateTo into 1)
              call (.close into)
        | none => pure ()
        let _ ← runAsChild fuel mode background source.isNone [] stage
        return []
      else
        match source with
        | some source => call (.close source)
        | none => pure ()
        match ends with
        | some (out, into) => do
            call (.close into)
            return process :: (← startStages fuel mode background (some out) rest)
        | none => return [process]

def pipeline : Nat → Mode → List Script → Bool → ShellM Nat
  | 0, _, _, _ => return 0
  | fuel + 1, mode, stages, background => do
      let mode := if background then { mode with tested := false } else mode
      let processes ← startStages fuel mode background none stages
      Job.add processes
      if background then
        modify fun state => { state with lastJob := processes.getLast? }
        return 0
      else Job.foreground processes

def firstFields : Nat → List Word → ShellM (List String × List Word)
  | 0, words => return ([], words)
  | _ + 1, [] => return ([], [])
  | fuel + 1, word :: rest => do
      let fields ← Expansion.fields (substitute fuel) word
      if fields.isEmpty then firstFields fuel rest else return (fields, rest)

/-- Finds out what a command is.  The words after `command` are commands themselves. -/
def resolve : Nat → Bool → Option Bool → Bool → List String → List Word →
    ShellM (Resolved × List Word)
  | 0, direct, special, standardPath, fields, rest =>
      return ({ found := none, special, fields, direct, standardPath }, rest)
  | fuel + 1, direct, special, standardPath, fields, rest => do
      match fields with
      | [] => return ({ found := none, special, fields, direct, standardPath }, rest)
      | name :: _ => do
          let found ← find (!direct) name
          let own : Option Bool := match found with
            | .builtin entry => some entry.special
            | .inner name => innerCommands.lookup name
            | _ => none
          let special := special.or own
          match found with
          | .inner "command" => do
              -- The next words tell whether another command is meant.
              let (fields, rest) ← fillFields fuel fields rest
              match afterCommand standardPath fields.tail with
              | some (standard, next :: more) =>
                  resolve fuel true special standard (next :: more) rest
              | _ => return ({ found := some found, special, fields, direct, standardPath }, rest)
          | found => return ({ found := some found, special, fields, direct, standardPath }, rest)

def fillFields : Nat → List String → List Word → ShellM (List String × List Word)
  | 0, fields, rest => return (fields, rest)
  | fuel + 1, fields, rest => do
      let isOption (field : String) : Bool := field.startsWith "-" && field != "-"
      match rest with
      | [] => return (fields, [])
      | word :: others =>
          if fields.tail.all isOption then
            let more ← Expansion.fields (substitute fuel) word
            fillFields fuel (fields ++ more) others
          else return (fields, rest)

def argumentFields : Nat → Bool → List Word → ShellM (List String)
  | 0, _, _ => return []
  | _ + 1, _, [] => return []
  | fuel + 1, assigns, word :: rest => do
      let own ← if assigns && (Reader.assignment? word).isSome then do
          pure [← Expansion.text (substitute fuel) .value word]
        else Expansion.fields (substitute fuel) word
      return own ++ (← argumentFields fuel assigns rest)

def assign : Nat → Bool → Bool → List (String × Word) → ShellM (List String)
  | 0, _, _, _ => return []
  | _ + 1, _, _, [] => return []
  | fuel + 1, aside, exports, (name, value) :: rest => do
      let value ← Expansion.text (substitute fuel) .value value
      if aside then setAside name
      setVariable name value
      if aside || exports then markVariable true name
      return (name ++ "=" ++ value) :: (← assign fuel aside exports rest)

def trace : Nat → List String → ShellM Unit
  | 0, _ => return
  | fuel + 1, texts => do
      let state ← get
      if state.hasOption 'x' then
        let start ← match state.value? "PS4" with
          | none => pure ""
          | some text =>
              match (Reader.parts (text.length + 100) .document).run
                  (Source.ofText text.toList) with
              | .ok (word, _) => do
                  pure (textOf (← Expansion.word (substitute fuel) .text false false word))
              | .error _ => pure text
        remark (start ++ " ".intercalate texts ++ "\n")

def simple : Nat → Mode → Nat → List (String × Word) → List Word → List Redirect → ShellM Nat
  | 0, _, _, _, _, _ => return 0
  | fuel + 1, mode, line, assignments, words, redirects => do
      setLine line
      modify fun state => { state with substituted := 0 }
      let (fields, rest) ← firstFields fuel words
      let (command, rest) ← resolve fuel false none false fields rest
      let assigns := match command.found with
        | some (.builtin entry) => entry.assigns
        | _ => false
      let fields := command.fields ++ (← argumentFields fuel assigns rest)
      let special := command.special == some true
      let aside := command.found.isSome && !special
      let isExec := match command.found with
        | some (.inner "exec") => true
        | _ => false
      if aside then modify fun state => { state with locals := [] :: state.locals }
      let leaveLocals : ShellM Unit := if aside then bringBack else pure ()
      let actions ← Redirection.resolveAll (substitute fuel) redirects
      let (kept, done) ← Redirection.performAll (substitute fuel) true actions []
      let undo : ShellM Unit := do
        if isExec then Redirection.forget kept else Redirection.restore kept
        leaveLocals
      if !done then
        Redirection.restore kept
        leaveLocals
        if special then throw .failed
        return failure
      else
        let body : ShellM Nat := do
          let exports := isExec && 1 < fields.length
          let settings ← assign fuel aside exports assignments
          trace fuel (settings ++ fields)
          carryOut fuel mode command fields special
        ensuring body undo

def carryOut : Nat → Mode → Resolved → List String → Bool → ShellM Nat
  | 0, _, _, _, _ => return 0
  | fuel + 1, mode, command, fields, special => do
      let name := fields.head?.getD ""
      let arguments := fields.tail
      match command.found with
      | none => return (← get).substituted
      | some (.function line body) => callFunction fuel mode line body arguments
      | some (.builtin entry) => byShell name special (entry.run arguments)
      | some (.inner inner) =>
          byShell name special (runInner fuel mode inner arguments)
      | some .program => do
          let before := (← get).bindings
          if command.standardPath then setVariable "PATH" Launch.defaultPath
          ensuring (external mode name fields) (do
            if command.standardPath then
              modify fun state => { state with bindings := before })
where
  /-- Runs a command of the shell itself. -/
  byShell (name : String) (special : Bool) (body : ShellM Nat) : ShellM Nat := do
    let before := (← get).command
    modify fun state => { state with command := some name, unprinted := false }
    let result ← attempt body
    let broken := (← get).unprinted
    if broken then complain (name ++ ": I/O error")
    modify fun state => { state with command := before, unprinted := false }
    match result with
    | .ok status => return if broken then status ||| 1 else status
    | .error .failed => if special then throw .failed else return (← get).status
    | .error leave => throw leave
  /-- Runs a program. -/
  external (mode : Mode) (name : String) (fields : List String) : ShellM Nat := do
    let found ← if name.contains '/' then pure (Except.ok name) else locate name
    match found with
    | .error fault => do
        let _ ← refuse name fault
        return 127
    | .ok _ => do
        unless name.contains '/' do
          let _ ← remember name
        if mode.last && !(← get).hasTraps then
          setStatus (← replaceBy fields)
          throw .ended
        else runProgram fields

def callFunction : Nat → Mode → Nat → Script → List String → ShellM Nat
  | 0, _, _, _, _ => return 0
  | fuel + 1, mode, _, body, arguments => do
      let before ← get
      set { before with arguments, loops := 0, inFunction := true
                        optionIndex := 1, optionOffset := none }
      ensuring
        (do let _ ← evaluate fuel { last := false, tested := mode.tested } body)
        (modify fun state =>
          let skip := match state.skip with
            | some (.function _) => none
            | other => other
          { state with arguments := before.arguments, loops := before.loops
                       inFunction := before.inFunction, optionIndex := before.optionIndex
                       optionOffset := before.optionOffset, skip })
      return (← get).status

def runInner : Nat → Mode → String → List String → ShellM Nat
  | 0, _, _, _ => return 0
  | fuel + 1, mode, name, arguments => do
      match name with
      | "eval" =>
          if arguments.isEmpty then return 0
          else
            runSource fuel { last := false, tested := mode.tested }
              (Source.ofText (" ".intercalate arguments).toList) 0
      | "." => do
          match ← Builtin.operands arguments with
          | [] => return 0
          | path :: _ => sourceFile fuel path
      | "exec" => do
          match ← Builtin.operands arguments with
          | [] => return 0
          | command => do
              setStatus (← replaceBy command)
              throw .ended
      | "type" => describeAll arguments 0
      | _ => do
          let (letters, rest) ← Builtin.letters "pvV" arguments
          match rest with
          | [] => return 0
          | name :: _ => describe (letters.contains 'V') name

def sourceFile : Nat → String → ShellM Nat
  | 0, _ => return 0
  | fuel + 1, path => do
      let path ← if path.contains '/' then pure path
        else do
          match ← locate path with
          | .ok path => pure path
          | .error _ => fail (path ++ ": not found")
      match ← call (.openFile (Text.unspelled path) .read) with
      | .error fault =>
          fail ("cannot open " ++ path ++ ": " ++ Redirection.reasonOf false fault)
      | .ok descriptor => do
          let content ← drain fuel descriptor ByteArray.empty
          call (.close descriptor)
          modify fun state => { state with command := some path }
          let status ← runSource fuel .plain (Source.ofText (Text.byteText content).toList) 0
          modify fun state => match state.skip with
            | some (.function _) => { state with skip := none }
            | _ => state
          return status

end

end Handoff.Shell
