import Handoff.Host.Shell.Expansion
import Handoff.Host.Shell.Format
import Handoff.Host.Shell.Job
import Handoff.Host.Shell.Test
/-!
# Commands of the shell

The commands that the shell carries out itself and that run no other ones.  Each gives
its status.
-/

namespace Handoff.Shell.Builtin

/-- The options at the start of the arguments, each with its value if it takes one, and
what follows them. -/
def options (plain valued : String) : Nat → List String →
    ShellM (List (Char × String) × List String)
  | 0, arguments => return ([], arguments)
  | fuel + 1, arguments => do
      match arguments with
      | "--" :: rest => return ([], rest)
      | "-" :: _ => return ([], arguments)
      | argument :: rest =>
          match argument.toList with
          | '-' :: letter :: more =>
              if valued.toList.contains letter then
                match more, rest with
                | [], [] => fail ("No arg for -" ++ String.singleton letter ++ " option")
                | [], value :: rest => do
                    let (others, rest) ← options plain valued fuel rest
                    return ((letter, value) :: others, rest)
                | more, rest => do
                    let (others, rest) ← options plain valued fuel rest
                    return ((letter, String.ofList more) :: others, rest)
              else if plain.toList.contains letter then do
                let rest := if more.isEmpty then rest else String.ofList ('-' :: more) :: rest
                let (others, rest) ← options plain valued fuel rest
                return ((letter, "") :: others, rest)
              else fail ("Illegal option -" ++ String.singleton letter)
          | _ => return ([], arguments)
      | [] => return ([], [])

def letters (plain : String) (arguments : List String) : ShellM (List Char × List String) := do
  let count := arguments.foldl (fun count argument => count + argument.length + 1) 1
  let (found, rest) ← options plain "" count arguments
  return (found.map Prod.fst, rest)

def operands (arguments : List String) : ShellM (List String) := do
  return (← letters "" arguments).2

def echo (arguments : List String) : ShellM Nat := do
  say (Format.echoed arguments)
  return 0

def printf (arguments : List String) : ShellM Nat := do
  match ← operands arguments with
  | [] => fail "usage: printf format [arg ...]"
  | format :: arguments => do
      let result := Format.formatted Format.escaped format arguments
      for warning in result.warnings do
        complain (match warning with
          | .notNumeric text => text ++ ": expected numeric value"
          | .incomplete text => text ++ ": not completely converted"
          | .outOfRange text => text ++ ": Numerical result out of range")
      match result.stop with
      | some .missingLetter => complain "missing format character"
      | some (.badConversion text) => complain (text ++ ": invalid directive")
      | _ => pure ()
      say result.output
      match result.stop with
      | some .missingLetter => throwFailure
      | some (.badConversion _) => throwFailure
      | _ => return if result.warnings.isEmpty then 0 else 1
where
  throwFailure : ShellM Nat := do
    setStatus failure
    throw .failed

def test (words : List String) : ShellM Nat := do
  match ← machine (Test.evaluate words) with
  | .ok value => return if value then 0 else 1
  | .error fault => fail fault.message

def bracket (words : List String) : ShellM Nat := do
  if words.getLast? = some "]" then test words.dropLast else fail "missing ]"

/-- The path that `path` is under the directory `base`, with dots resolved by name. -/
def logicalPath (base path : String) : String :=
  let pieces := if path.startsWith "/" then path.splitOn "/"
    else base.splitOn "/" ++ path.splitOn "/"
  let names := pieces.foldl
    (fun names piece =>
      if piece = "" || piece = "." then names
      else if piece = ".." then names.dropLast
      else names ++ [piece])
    []
  "/" ++ "/".intercalate names

/-- Goes to a directory; `false` when that cannot be done. -/
def enter (physical : Bool) (path : String) : ShellM Bool := do
  let state ← get
  let path := if physical then path else logicalPath state.directory path
  match ← call (.changeDir (Text.unspelled path)) with
  | .error _ => return false
  | .ok () => do
      let directory ← if physical then do pure (Text.spelled (← call .workDir).text)
        else pure path
      setVariable "OLDPWD" state.directory
      markVariable true "OLDPWD"
      modify fun state => { state with directory }
      setVariable "PWD" directory
      markVariable true "PWD"
      return true

def changeDirectory (arguments : List String) : ShellM Nat := do
  let (found, rest) ← letters "LP" arguments
  let physical := found.getLast? == some 'P'
  let state ← get
  let (path, told) := match rest with
    | [] => ((state.value? "HOME").getD "", false)
    | "-" :: _ => ((state.value? "OLDPWD").getD "", true)
    | path :: _ => (path, false)
  if ← enter physical (if path = "" then "." else path) then
    if told then say ((← get).directory ++ "\n")
    return 0
  else fail ("can't cd to " ++ path)

def workDirectory (arguments : List String) : ShellM Nat := do
  let (found, _) ← letters "LP" arguments
  if found.getLast? == some 'P' then say (Text.spelled (← call .workDir).text ++ "\n")
  else say ((← get).directory ++ "\n")
  return 0

/-- Sets a variable whose name is given by an argument. -/
def setNamed (name value : String) : ShellM Unit := do
  if !Reader.isName name.toList then fail (name ++ ": bad variable name")
  setVariable name value

/-- The name and the value in an argument such as `NAME=value`. -/
def assignmentIn (argument : String) : String × Option String :=
  let chars := argument.toList
  let name := chars.takeWhile (· != '=')
  (String.ofList name, match chars.drop name.length with
    | _ :: value => some (String.ofList value)
    | [] => none)

def shown (start : String) (keep : Variable → Bool) : ShellM String := do
  let lines := (← get).bindings.entries.filterMap fun (name, entry) =>
    if !keep entry then none
    else
      match entry.value with
      | some value => some (start ++ name ++ "=" ++ inQuotes value ++ "\n")
      | none => if start = "" then none else some (start ++ name ++ "\n")
  return String.join lines

def mark (exports : Bool) (arguments : List String) : ShellM Nat := do
  let (found, rest) ← letters "p" arguments
  if rest.isEmpty || !found.isEmpty then
    if exports then say (← shown "export " Variable.exported)
    else say (← shown "readonly " Variable.readOnly)
  else
    for argument in rest do
      let (name, value) := assignmentIn argument
      if !Reader.isName name.toList then fail (name ++ ": bad variable name")
      match value with
      | some value => setVariable name value
      | none => pure ()
      markVariable exports name
  return 0

def declareLocal (arguments : List String) : ShellM Nat := do
  let rest ← operands arguments
  if (← get).locals.isEmpty then fail "not in a function"
  for argument in rest do
    let (name, value) := assignmentIn argument
    if !Reader.isName name.toList then fail (name ++ ": bad variable name")
    setAside name
    match value with
    | some value => setVariable name value
    | none => pure ()
  return 0

def unset (arguments : List String) : ShellM Nat := do
  let (found, rest) ← letters "vf" arguments
  for name in rest do
    if found.getLast? = some 'f' then
      modify fun state =>
        { state with functions := state.functions.filter fun e => e.1 != name }
    else do
      if !Reader.isName name.toList then fail (name ++ ": bad variable name")
      unsetVariable name
  return 0

def optionNames : List (Char × String) :=
  [('e', "errexit"), ('f', "noglob"), ('I', "ignoreeof"), ('i', "interactive"),
    ('m', "monitor"), ('n', "noexec"), ('s', "stdin"), ('x', "xtrace"), ('v', "verbose"),
    ('V', "vi"), ('E', "emacs"), ('C', "noclobber"), ('a', "allexport"), ('b', "notify"),
    ('u', "nounset"), ('p', "privileged"), ('L', "nolog"), ('D', "debug")]

def optionLetters : List Char := "efIimnsxvVECabup".toList

def setOption (on : Bool) (letter : Char) : ShellM Unit :=
  modify fun state =>
    let others := state.options.filter (· != letter)
    { state with options := if on then letter :: others else others }

def setLetter (on : Bool) (letter : Char) : ShellM Unit := do
  if optionLetters.contains letter then setOption on letter
  else fail ("Illegal option -" ++ String.singleton letter)

def setByName (on : Bool) : Option String → ShellM Unit
  | some name => do
      match optionNames.find? fun e => e.2 == name with
      | some (letter, _) => setOption on letter
      | none => fail ("Illegal option -o " ++ name)
  | none => do
      let state ← get
      let isSet (letter : Char) : Bool := state.hasOption letter
      let width (name : String) : String := String.ofList (List.replicate (16 - name.length) ' ')
      let lines := optionNames.map fun (letter, name) =>
        if on then name ++ width name ++ (if isSet letter then "on" else "off") ++ "\n"
        else "set " ++ (if isSet letter then "-" else "+") ++ "o " ++ name ++ "\n"
      say ((if on then "Current option settings\n" else "") ++ String.join lines)

/-- Sets the options at the start of the arguments; what is left of them are the arguments
of the shell, unless nothing is. -/
def setOptions : Nat → List String → ShellM Unit
  | 0, _ => return
  | fuel + 1, arguments => do
      match arguments with
      | [] => return
      | "-" :: rest => do
          setOption false 'x'
          setOption false 'v'
          unless rest.isEmpty do putArguments rest
      | "--" :: rest => putArguments rest
      | argument :: rest =>
          match argument.toList with
          | sign :: letters =>
              if sign == '-' || sign == '+' then
                let rest ← setLetters (sign == '-') letters rest
                setOptions fuel rest
              else putArguments arguments
          | [] => putArguments arguments
where
  putArguments (arguments : List String) : ShellM Unit :=
    modify fun state => { state with arguments, optionIndex := 1, optionOffset := none }
  /-- Sets options by their letters; a name is taken from the arguments. -/
  setLetters (on : Bool) : List Char → List String → ShellM (List String)
    | [], rest => return rest
    | 'o' :: letters, rest => do
        setByName on rest.head?
        setLetters on letters rest.tail
    | letter :: letters, rest => do
        setLetter on letter
        setLetters on letters rest

def set (arguments : List String) : ShellM Nat := do
  if arguments.isEmpty then say (← shown "" fun _ => true)
  else setOptions (arguments.length + 1) arguments
  return 0

def shift (arguments : List String) : ShellM Nat := do
  let count ← match arguments with
    | [] => pure 1
    | text :: _ => number text
  let state ← get
  if state.arguments.length < count then fail "can't shift that many"
  modify fun state =>
    { state with arguments := state.arguments.drop count, optionIndex := 1, optionOffset := none }
  return 0

def setTrap (signal : Nat) (action : Option String) : ShellM Unit := do
  let state ← get
  let others := state.traps.filter fun e => e.1 != signal
  let ours := state.traps.any fun e => e.1 == signal
  let deaf ← if signal = 0 || ours || state.deaf.contains signal then pure state.deaf
    else do
      -- What is ignored from the start stays ignored.
      pure (if (← call (.disposition signal)) = .ignored then signal :: state.deaf
        else state.deaf)
  let traps := match action with
    | some text => others ++ [(signal, text)]
    | none => others
  modify fun state => { state with traps, deaf }
  unless signal = 0 || deaf.contains signal do
    call (.setDisposition signal (match action with
      | none => .byDefault
      | some "" => .ignored
      | some _ => .caught))

def trap (arguments : List String) : ShellM Nat := do
  match ← operands arguments with
  | [] => do
      let traps := (← get).traps.mergeSort fun a b => a.1 ≤ b.1
      say (String.join (traps.map fun (signal, action) =>
        "trap -- " ++ inQuotes action ++ " " ++ signalName signal ++ "\n"))
      return 0
  | first :: rest =>
      let isSignal := ((number? first).filter (· ≤ SignalNumber.last)).isSome
      if rest.isEmpty || isSignal then setAll none (first :: rest)
      else setAll (if first = "-" then none else some first) rest
where
  setAll (action : Option String) : List String → ShellM Nat
    | [] => return 0
    | text :: rest => do
        match signalNumber? text with
        | some signal => do
            setTrap signal action
            setAll action rest
        | none => do
            remark ("trap: " ++ text ++ ": bad trap\n")
            return 1

/-- The job that is named by a text such as `%2`. -/
def jobOf (text : String) : ShellM Job := do
  let jobs := (← get).jobs
  let name := (text.drop 1).toString
  let found := if name = "" || name = "%" || name = "+" then jobs.getLast?
    else if name = "-" then jobs.dropLast.getLast?
    else (number? name).bind fun position => if position = 0 then none else jobs[position - 1]?
  match found with
  | some job => return job
  | none =>
      fail (if name = "" || name = "%" || name = "+" then "No current job"
        else "No such job: " ++ text)

def targetOf (text : String) : ShellM SignalTarget := do
  match text.toList with
  | '%' :: _ => do
      let job ← jobOf text
      return .group ((job.processes.head?.map Prod.fst).getD 0)
  | '-' :: digits =>
      match ← number (String.ofList digits) with
      | 0 => return .ownGroup
      | 1 => return .everyone
      | group => return .group group
  | _ =>
      match ← number text with
      | 0 => return .ownGroup
      | process => return .process process

def killUsage : String :=
  "Usage: kill [-s sigspec | -signum | -sigspec] [pid | job]... or\nkill -l [exitstatus]"

/-- The signal of a name or a number, but not the end of the shell. -/
def sentSignal? (text : String) : Option Nat :=
  match signalNumber? text with
  | some 0 => if (number? text).isSome then some 0 else none
  | other => other

def sendAll (signal : Nat) : List String → Nat → ShellM Nat
  | [], status => return status
  | text :: rest, status => do
      let target ← targetOf text
      match ← call (.signal target signal) with
      | .ok () => sendAll signal rest status
      | .error fault => do
          complain (fault.reason ++ "\n")
          sendAll signal rest 1

def listSignals : List String → ShellM Nat
  | [] => do
      say (String.join (("0" :: signalNames).map (· ++ "\n")))
      return 0
  | text :: _ => do
      let given ← number text
      let signal := if 128 < given then given - 128 else given
      if 0 < signal && signal ≤ SignalNumber.last then
        say (signalName signal ++ "\n")
        return 0
      else fail ("invalid signal number or exit status: " ++ text)

def kill (arguments : List String) : ShellM Nat := do
  match arguments with
  | [] => fail killUsage
  | first :: rest =>
      match first.toList with
      | '-' :: name =>
          match sentSignal? (String.ofList name) with
          | some signal => if rest.isEmpty then fail killUsage else sendAll signal rest 0
          | none => do
              let (found, rest) ← options "l" "s" (arguments.length + first.length + 1) arguments
              let named := found.filter fun e => e.1 == 's'
              let mut signal := SignalNumber.terminate
              for (_, name) in named do
                match sentSignal? name with
                | some found => signal := found
                | none => fail ("invalid signal number or name: " ++ name)
              let listing := found.any fun e => e.1 == 'l'
              if listing then
                if named.isEmpty then listSignals rest else fail killUsage
              else if rest.isEmpty then fail killUsage
              else sendAll signal rest 0
      | _ => sendAll SignalNumber.terminate arguments 0

def waitEach : List String → Nat → ShellM Nat
  | [], status => return status
  | text :: rest, _ => do
      let job ← if text.startsWith "%" then do pure (some (← jobOf text))
        else do
          let process ← number text
          pure ((← get).jobs.reverse.find? fun job =>
            (job.processes.getLast?.map Prod.fst) == some process)
      match job with
      | none => waitEach rest 127
      | some job => do
          match ← Job.awaitOrSignal (job.processes.map Prod.fst) with
          | some signal => return 128 + signal
          | none => waitEach rest (← Job.statusOf (job.processes.map Prod.fst))

def wait (arguments : List String) : ShellM Nat := do
  match ← operands arguments with
  | [] => do
      let all := (← get).jobs.flatMap fun job => job.processes.map Prod.fst
      match ← Job.awaitAll all with
      | some signal => return 128 + signal
      | none => return 0
  | names => waitEach names 127

def jobs (arguments : List String) : ShellM Nat := do
  let _ ← letters "lp" arguments
  return 0

def noJobControl (arguments : List String) : ShellM Nat := do
  let names ← operands arguments
  let _ ← jobOf (names.head?.getD "%")
  fail ("job " ++ names.head?.getD "%" ++ " not created under job control")

def symbolicMask (mask : Nat) : String :=
  let part (shift : Nat) : String :=
    let bits := 7 - mask / Nat.pow 8 shift % 8
    String.ofList ([('r', 4), ('w', 2), ('x', 1)].filterMap fun (c, bit) =>
      if bits / bit % 2 = 1 then some c else none)
  "u=" ++ part 2 ++ ",g=" ++ part 1 ++ ",o=" ++ part 0

def mask (arguments : List String) : ShellM Nat := do
  let (found, rest) ← letters "S" arguments
  match rest with
  | [] => do
      let mask := (← get).mask
      if found.isEmpty then
        let digits := Nat.toDigits 8 mask
        say (String.ofList (List.replicate (4 - digits.length) '0' ++ digits) ++ "\n")
      else say (symbolicMask mask ++ "\n")
      return 0
  | text :: _ =>
      if text.toList.all Format.isOctal && !text.isEmpty then
        modify fun state =>
          { state with mask := (Arithmetic.digits 8 text.toList 0 0).1 % 512 }
        return 0
      else if text.toList.all Char.isDigit then fail ("Illegal number: " ++ text)
      else fail ("Illegal mode: " ++ text)

/-- Reads a line.  A backslash takes the meaning of the character after it unless the
line is `raw`.  The letters come last one first, with whether the line was ended. -/
def readLine (raw : Bool) : Nat → List Letter → ShellM (List Letter × Bool)
  | 0, letters => return (letters, false)
  | fuel + 1, letters => do
      match ← next with
      | none => return (letters, false)
      | some '\n' => return (letters, true)
      | some '\x00' => readLine raw fuel letters
      | some c =>
          if c = '\\' && !raw then
            match ← next with
            | none => return (letters, false)
            | some '\n' => readLine raw fuel letters
            | some d => readLine raw fuel ({ char := d, quoted := true, splits := false } :: letters)
          else readLine raw fuel ({ char := c, quoted := false, splits := true } :: letters)
where
  /-- The next byte of the input. -/
  next : ShellM (Option Char) := do
    match ← call (.read 0 1) with
    | .ok content => return (Text.byteText content).toList.head?
    | .error _ => return none

/-- Gives the fields of a line to the variables; the last one takes what is left. -/
def assignFields (names : List String) (letters : List Letter) : ShellM Unit := do
  let separators := (← get).separators
  let (fields, rest) := Fields.take separators (names.length - 1) letters
  let values := (fields ++ [Fields.last separators rest]).map textOf
  for (name, value) in names.zip (values ++ List.replicate names.length "") do
    setVariable name value

def read (arguments : List String) : ShellM Nat := do
  let (found, names) ← options "r" "p" (arguments.length + 8) arguments
  match found.find? fun e => e.1 == 'p' with
  | some (_, prompt) => remark prompt
  | none => pure ()
  if names.isEmpty then fail "arg count"
  let (letters, ended) ← readLine (found.any fun e => e.1 == 'r') 1000000000 []
  for name in names do
    if !Reader.isName name.toList then fail (name ++ ": bad variable name")
  assignFields names letters.reverse
  return if ended then 0 else 1

/-- What an option letter asks for in a list of letters: whether it is there, and whether
it takes a value. -/
def optionKind? (allowed : List Char) (letter : Char) : Option Bool :=
  match allowed with
  | [] => none
  | c :: rest =>
      if c = letter && letter != ':' then some (rest.head? == some ':')
      else optionKind? rest letter

def moveOptions (index : Nat) (offset : Option Nat) : ShellM Unit := do
  setVariable "OPTIND" (toString index)
  modify fun state => { state with optionIndex := index, optionOffset := offset }

def nextOption (allowed target : String) (arguments : List String) : ShellM Nat := do
  let state ← get
  let index := if arguments.length + 1 < state.optionIndex then 1 else state.optionIndex
  let begun : List Char := match state.optionOffset with
    | some offset => if 1 < index then
        (((arguments[index - 2]?).getD "").toList).drop offset else []
    | none => []
  let letters := allowed.toList
  let quiet := letters.head? == some ':'
  match begun, arguments[index - 1]? with
  | [], none => finish index
  | [], some word =>
      match word.toList with
      | ['-', '-'] => finish (index + 1)
      | '-' :: c :: rest => option letters quiet (index + 1) c rest
      | _ => finish index
  | c :: rest, _ => option letters quiet index c rest
where
  finish (index : Nat) : ShellM Nat := do
    moveOptions index none
    setNamed target "?"
    return 1
  /-- The option `c`, of whose word `rest` is left; the next word has the number `index`. -/
  option (letters : List Char) (quiet : Bool) (index : Nat) (c : Char) (rest : List Char) :
      ShellM Nat := do
    let word := (arguments[index - 2]?).getD ""
    let offset : Option Nat := some (word.length - rest.length)
    let found (name : String) (index : Nat) (offset : Option Nat) : ShellM Nat := do
      moveOptions index offset
      setNamed target name
      return 0
    match optionKind? letters c with
    | none => do
        if quiet then setVariable "OPTARG" (String.singleton c)
        else do
          remark ("Illegal option -" ++ String.singleton c ++ "\n")
          unsetVariable "OPTARG"
        found "?" index offset
    | some false => do
        setVariable "OPTARG" ""
        found (String.singleton c) index offset
    | some true =>
        match rest, arguments[index - 1]? with
        | [], none => do
            if quiet then
              setVariable "OPTARG" (String.singleton c)
              found ":" index offset
            else do
              remark ("No arg for -" ++ String.singleton c ++ " option\n")
              unsetVariable "OPTARG"
              found "?" index offset
        | [], some value => do
            setVariable "OPTARG" value
            found (String.singleton c) (index + 1) none
        | rest, _ => do
            setVariable "OPTARG" (String.ofList rest)
            found (String.singleton c) index none

def getOptions (arguments : List String) : ShellM Nat := do
  match arguments with
  | [allowed, target] => nextOption allowed target (← get).arguments
  | allowed :: target :: arguments => nextOption allowed target arguments
  | _ => fail "Usage: getopts optstring var [arg]"

def aliasText (name value : String) : String :=
  name ++ "=" ++ inQuotes value ++ "\n"

def setAlias (arguments : List String) : ShellM Nat := do
  if arguments.isEmpty then
    say (String.join ((← get).aliases.map fun (name, value) => aliasText name value))
    return 0
  else each arguments 0
where
  each : List String → Nat → ShellM Nat
    | [], status => return status
    | argument :: rest, status => do
        match assignmentIn argument with
        | (name, some value) => do
            modify fun state =>
              { state with
                aliases := (state.aliases.filter fun e => e.1 != name) ++ [(name, value)] }
            each rest status
        | (name, none) =>
            match (← get).aliases.lookup name with
            | some value => do
                say (aliasText name value)
                each rest status
            | none => do
                remark ("alias: " ++ name ++ " not found\n")
                each rest 1

def unsetAlias (arguments : List String) : ShellM Nat := do
  let (found, rest) ← letters "a" arguments
  if !found.isEmpty then
    modify fun state => { state with aliases := [] }
    return 0
  else each rest 0
where
  each : List String → Nat → ShellM Nat
    | [], status => return status
    | name :: rest, status => do
        if ((← get).aliases.lookup name).isSome then
          modify fun state =>
            { state with aliases := state.aliases.filter fun e => e.1 != name }
          each rest status
        else do
          remark ("unalias: " ++ name ++ " not found\n")
          each rest 1

def level (arguments : List String) : ShellM Nat := do
  match arguments with
  | [] => return 1
  | text :: _ => do
      match ← number text with
      | 0 => fail ("Illegal number: " ++ text)
      | count => return count

def leaveLoops (again : Bool) (arguments : List String) : ShellM Nat := do
  let count ← level arguments
  let loops := (← get).loops
  if 0 < loops then
    modify fun state => { state with skip := some (.loops again (min count loops)) }
  return 0

def leaveFunction (arguments : List String) : ShellM Nat := do
  let status ← match arguments with
    | [] => pure (← get).status
    | text :: _ => number text
  modify fun state => { state with skip := some (.function (!arguments.isEmpty)) }
  return status

def exit (arguments : List String) : ShellM Nat := do
  match arguments with
  | [] => pure ()
  | text :: _ => do
      let status ← number text
      modify fun state => { state with final := some status }
  throw .exited

def times (_ : List String) : ShellM Nat := do
  say "0m0.000000s 0m0.000000s\n0m0.000000s 0m0.000000s\n"
  return 0

def limits (_ : List String) : ShellM Nat := do
  say "unlimited\n"
  return 0

structure Entry where
  /-- Whether a failure ends the shell, and assignments before the command stay. -/
  special : Bool
  /-- Whether assignments among the arguments are not divided. -/
  assigns : Bool
  run : List String → ShellM Nat

def all : List (String × Entry) :=
  let regular (run : List String → ShellM Nat) : Entry := ⟨false, false, run⟩
  let special (run : List String → ShellM Nat) : Entry := ⟨true, false, run⟩
  let assigning (run : List String → ShellM Nat) : Entry := ⟨true, true, run⟩
  [(":", special fun _ => return 0), ("true", regular fun _ => return 0),
    ("false", regular fun _ => return 1), ("echo", regular echo), ("printf", regular printf),
    ("test", regular test), ("[", regular bracket), ("cd", regular changeDirectory),
    ("chdir", regular changeDirectory), ("pwd", regular workDirectory),
    ("export", assigning (mark true)), ("readonly", assigning (mark false)),
    ("local", assigning declareLocal), ("unset", special unset), ("set", special set),
    ("shift", special shift), ("trap", special trap), ("kill", regular kill),
    ("wait", regular wait), ("jobs", regular jobs), ("fg", regular noJobControl),
    ("bg", regular noJobControl), ("umask", regular mask), ("read", regular read),
    ("getopts", regular getOptions), ("alias", regular setAlias),
    ("unalias", regular unsetAlias), ("break", special (leaveLoops false)),
    ("continue", special (leaveLoops true)), ("return", special leaveFunction),
    ("exit", special exit), ("times", special times), ("ulimit", regular limits),
    ("hash", regular fun _ => return 0)]

end Handoff.Shell.Builtin
