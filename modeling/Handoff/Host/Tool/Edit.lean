import Handoff.Host.Tool.EditScript
import Handoff.Host.Tool.LineInput
/-!
# The stream editor

Carries out a script on every line of its input.
-/

namespace Handoff.Edit

open Tool (Line LineInput)

structure State where
  input : LineInput
  /-- The line after the current one, once it has been read. -/
  ahead : Option (Option Line)
  number : Nat
  space : String
  /-- Whether the last line that was read had an end. -/
  ended : Bool
  hold : String
  replaced : Bool
  /-- What is printed after the current line: texts, and files with the flag set. -/
  queue : List (String × Bool)
  /-- The commands whose range has begun, each with the line that ends it if it is known. -/
  active : List (Nat × Option Nat)
  lastRegex : Option Regex
  /-- Whether the last line that was printed still lacks its end. -/
  unended : Bool
  /-- The files that are written. -/
  targets : List (String × Nat)
  /-- What was printed, if it is to replace the file that is read. -/
  kept : Option ByteArray

structure Plan where
  call : ToolCall
  commands : Array Command
  quiet : Bool
  /-- Whether each file has lines of its own. -/
  separate : Bool

inductive Outcome where
  /-- The line is printed unless that is not wanted. -/
  | done
  | dropped
  /-- The commands are carried out once more without another line. -/
  | again
  | quit (prints : Bool) (code : Nat)

abbrev EditM := StateT State (Program Machine)

def machine {α : Type} (program : Program Machine α) : EditM α :=
  StateT.lift program

def emit (plan : Plan) (text : String) : EditM Unit := do
  let state ← get
  match state.kept with
  | some kept => set { state with kept := some (kept ++ Text.bytesOf text) }
  | none => machine (Tool.print plan.call text)

def say (plan : Plan) (text : String) : EditM Unit := do
  let state ← get
  set { state with unended := false }
  emit plan ((if state.unended then "\n" else "") ++ text)

/-- Prints a text as a line; the last line keeps the lack of its end. -/
def sayLine (plan : Plan) (text : String) : EditM Unit := do
  let ended := (← get).ended
  say plan (text ++ if ended then "\n" else "")
  modify fun state => { state with unended := !ended }

def complaint (plan : Plan) (path : String) (fault : OsFault) : Program Machine Unit :=
  Tool.complain plan.call
    (if fault == .isDirectory then "couldn't edit " ++ path ++ ": not a regular file"
      else "can't read " ++ path ++ ": " ++ fault.reason)

def readAhead (plan : Plan) : EditM (Option Line) := do
  let state ← get
  match state.ahead with
  | some line => return line
  | none => do
      let (line, input) ← machine (
        if plan.separate then state.input.lineOfFile (complaint plan) Tool.readings
        else state.input.next (complaint plan) Tool.readings)
      modify fun state => { state with input, ahead := some line }
      return line

def nextLine (plan : Plan) : EditM (Option Line) := do
  let line ← readAhead plan
  match line with
  | some line =>
      modify fun state =>
        { state with ahead := none, number := state.number + 1, ended := line.ended }
      return some line
  | none => return none

def isLast (plan : Plan) : EditM Bool := do
  return (← readAhead plan).isNone

def regexOf (plan : Plan) (expression : Expression) : EditM Regex := do
  match expression with
  | some regex => do
      modify fun state => { state with lastRegex := some regex }
      return regex
  | none => do
      match (← get).lastRegex with
      | some regex => return regex
      | none => machine (Tool.refuse plan.call 1 "no previous regular expression")

def subjectOf (text : String) (folded : Bool) : Regex.Subject where
  chars := text.toList.toArray
  folded

def isAt (plan : Plan) : Address → EditM Bool
  | .line number => return (← get).number == number
  | .last => isLast plan
  | .every first step => do
      let number := (← get).number
      return if step = 0 then number == first
        else first ≤ number && (number - first) % step == 0
  | .found expression folded => do
      let regex ← regexOf plan expression
      return regex.test (subjectOf (← get).space folded)

def setActive (index : Nat) (stop : Option Nat) : EditM Unit :=
  modify fun state =>
    { state with active := (index, stop) :: state.active.filter fun e => e.1 != index }

def setInactive (index : Nat) : EditM Unit :=
  modify fun state => { state with active := state.active.filter fun e => e.1 != index }

/-- Begins a range on the current line, unless it ends there. -/
def beginRange (index : Nat) (stop : RangeEnd) : EditM Unit := do
  let number := (← get).number
  let upTo (last : Nat) : EditM Unit :=
    if number < last then setActive index (some last) else pure ()
  match stop with
  | .at (.line last) => upTo last
  | .further count => upTo (number + count)
  | .multiple step => upTo (if step = 0 then number else (number + step - 1) / step * step)
  | .at _ => setActive index none

def applies (plan : Plan) (index : Nat) (scope : Scope) : EditM Bool := do
  let inside ← do
    match scope.start, scope.stop with
    | none, _ => pure true
    | some start, none => isAt plan start
    | some start, some stop => do
        match (← get).active.lookup index with
        | some (some last) => do
            let number := (← get).number
            if last ≤ number then setInactive index
            pure (number ≤ last)
        | some none => do
            match stop with
            | .at address => do
                if ← isAt plan address then setInactive index
            | _ => pure ()
            pure true
        | none => do
            if ← isAt plan start then
              beginRange index stop
              pure true
            else pure false
  return inside != scope.negated

def replacementText (subject : Regex.Subject) (found : Regex.Match) (parts : List Replacement) :
    List Char :=
  let step (state : List Char × Option Char × Option Char) (part : Replacement) :
      List Char × Option Char × Option Char :=
    let (text, mode, once) := state
    let add (chars : List Char) : List Char × Option Char × Option Char :=
      let chars := match mode with
        | some 'U' => chars.map Char.toUpper
        | some 'L' => chars.map Char.toLower
        | _ => chars
      match chars, once with
      | c :: rest, some 'u' => (text ++ c.toUpper :: rest, mode, none)
      | c :: rest, some 'l' => (text ++ c.toLower :: rest, mode, none)
      | chars, _ => (text ++ chars, mode, once)
    match part with
    | .text chars => add chars
    | .group 0 => add (subject.chars.extract found.start found.stop).toList
    | .group number =>
        match found.captures.lookup number with
        | some (start, stop) => add (subject.chars.extract start stop).toList
        | none => state
    | .letterCase 'E' => (text, none, none)
    | .letterCase c => if c == 'u' || c == 'l' then (text, mode, some c) else (text, some c, none)
  (parts.foldl step ([], none, none)).1

/-- Replaces the matches from a place on: the text after it, and whether anything was
replaced.  `count` is the number of the next match, and `last` the end of the one before. -/
def replaceFrom (regex : Regex) (s : Substitution) (subject : Regex.Subject) :
    Nat → Nat → Nat → Option Nat → List Char × Bool
  | 0, start, _, _ => ((subject.chars.extract start subject.chars.size).toList, false)
  | fuel + 1, start, count, last =>
      let rest (place : Nat) : List Char :=
        (subject.chars.extract place subject.chars.size).toList
      match regex.search subject start with
      | none => (rest start, false)
      | some found =>
          let before := (subject.chars.extract start found.start).toList
          let own := (subject.chars.extract found.start found.stop).toList
          let after := (subject.chars.extract found.stop (found.stop + 1)).toList
          if found.start = found.stop && some found.start = last then
            -- No empty match counts right after another match.
            if after.isEmpty then (rest start, false)
            else
              let (text, done) := replaceFrom regex s subject fuel (found.stop + 1) count none
              (before ++ after ++ text, done)
          else
            let replaces := s.number ≤ count
            let text := if replaces then replacementText subject found s.parts else own
            if replaces && !s.all then (before ++ text ++ rest found.stop, true)
            else if found.start = found.stop then
              if after.isEmpty then (before ++ text, replaces)
              else
                let (more, done) := replaceFrom regex s subject fuel (found.stop + 1) (count + 1) none
                (before ++ text ++ after ++ more, done || replaces)
            else
              let (more, done) :=
                replaceFrom regex s subject fuel found.stop (count + 1) (some found.stop)
              (before ++ text ++ more, done || replaces)

def writeTo (plan : Plan) (path text : String) : EditM Unit := do
  let state ← get
  if path = "/dev/stdout" then sayLine plan text
  else
    match state.targets.lookup path with
    | some descriptor => do
        let _ ← machine (Machine.call (.write descriptor (Text.bytesOf (text ++ "\n"))))
    | none => pure ()

def substitute (plan : Plan) (s : Substitution) : EditM Unit := do
  let regex ← regexOf plan s.regex
  let state ← get
  let subject := subjectOf state.space s.folded
  let (text, done) := replaceFrom regex s subject (2 * subject.chars.size + 4) 0 1 none
  if done then
    set { state with space := String.ofList text, replaced := true }
    if s.prints then sayLine plan (String.ofList text)
    match s.file with
    | some path => writeTo plan path (String.ofList text)
    | none => pure ()

/-- A text with everything but plain characters as escapes. -/
def unambiguous (text : String) : String :=
  String.join (text.toList.map fun c =>
    match c with
    | '\\' => "\\\\"
    | '\n' => "\\n"
    | '\t' => "\\t"
    | '\r' => "\\r"
    | '\x07' => "\\a"
    | '\x08' => "\\b"
    | '\x0c' => "\\f"
    | '\x0b' => "\\v"
    | c =>
        if ' ' ≤ c && c ≤ '~' then String.singleton c
        else
          let digits := Nat.toDigits 8 c.toNat
          "\\" ++ String.ofList (List.replicate (3 - digits.length) '0' ++ digits))

def folded : Nat → List Char → List Char
  | 0, text => text
  | fuel + 1, text =>
      if text.length ≤ 69 then text else text.take 69 ++ '\\' :: '\n' :: folded fuel (text.drop 69)

def flushQueue (plan : Plan) : EditM Unit := do
  let queue := (← get).queue
  modify fun state => { state with queue := [] }
  for (text, isFile) in queue do
    if isFile then
      match ← machine (Tool.readFile text) with
      | .ok content => say plan (Text.byteText content)
      | .error _ => pure ()
    else say plan text

def afterBlock (commands : Array Command) : Nat → Nat → Nat → Nat
  | 0, index, _ => index
  | fuel + 1, index, depth =>
      match (commands[index]?).map Command.action with
      | none => index
      | some .opening => afterBlock commands fuel (index + 1) (depth + 1)
      | some .closing =>
          if depth ≤ 1 then index + 1 else afterBlock commands fuel (index + 1) (depth - 1)
      | some _ => afterBlock commands fuel (index + 1) depth

/-- The place of a label; without one, the end. -/
def placeOf (commands : Array Command) (label : String) : Nat :=
  if label = "" then commands.size
  else
    (commands.toList.findIdx? fun command => match command.action with
      | .label name => name == label
      | _ => false).getD commands.size

def firstLine (text : String) : String × Option String :=
  let first := text.toList.takeWhile (· != '\n')
  match text.toList.drop first.length with
  | _ :: rest => (String.ofList first, some (String.ofList rest))
  | [] => (text, none)

def run (plan : Plan) : Nat → Nat → EditM Outcome
  | 0, _ => return .done
  | fuel + 1, index => do
      match plan.commands[index]? with
      | none => return .done
      | some command => do
          if !(← applies plan index command.scope) then
            match command.action with
            | .opening =>
                run plan fuel (afterBlock plan.commands plan.commands.size index 0)
            | _ => run plan fuel (index + 1)
          else
            let state ← get
            let goOn : EditM Outcome := run plan fuel (index + 1)
            match command.action with
            | .opening => goOn
            | .closing => goOn
            | .label _ => goOn
            | .substitute s => do
                substitute plan s
                goOn
            | .translate table => do
                let space := String.ofList
                  (state.space.toList.map fun c => (table.lookup c).getD c)
                set { state with space }
                goOn
            | .quit silently code => return .quit (!silently) code
            | .append text => do
                set { state with queue := state.queue ++ [(text, false)] }
                goOn
            | .readFile path => do
                set { state with queue := state.queue ++ [(path, true)] }
                goOn
            | .insert text => do
                say plan text
                goOn
            | .change text => do
                let inRange := (state.active.lookup index).isSome && !command.scope.negated
                unless inRange do say plan text
                return .dropped
            | .writeFile path => do
                writeTo plan path state.space
                goOn
            | .jump letter label => do
                let taken := match letter with
                  | 't' => state.replaced
                  | 'T' => !state.replaced
                  | _ => true
                unless letter = 'b' do set { state with replaced := false }
                if taken then run plan fuel (placeOf plan.commands label) else goOn
            | .plain letter =>
                match letter with
                | 'p' => do
                    sayLine plan state.space
                    goOn
                | 'P' => do
                    say plan ((firstLine state.space).1 ++ "\n")
                    goOn
                | 'd' => return .dropped
                | 'D' =>
                    match firstLine state.space with
                    | (_, some rest) => do
                        set { state with space := rest }
                        return .again
                    | (_, none) => return .dropped
                | 'n' => do
                    if ← isLast plan then return .quit true 0
                    else
                      unless plan.quiet do sayLine plan state.space
                      flushQueue plan
                      match ← nextLine plan with
                      | some line => do
                          modify fun state => { state with space := line.text }
                          goOn
                      | none => return .quit false 0
                | 'N' => do
                    if ← isLast plan then return .quit true 0
                    else
                      flushQueue plan
                      match ← nextLine plan with
                      | some line => do
                          modify fun state =>
                            { state with space := state.space ++ "\n" ++ line.text }
                          goOn
                      | none => return .quit true 0
                | 'h' => do
                    set { state with hold := state.space }
                    goOn
                | 'H' => do
                    set { state with hold := state.hold ++ "\n" ++ state.space }
                    goOn
                | 'g' => do
                    set { state with space := state.hold }
                    goOn
                | 'G' => do
                    set { state with space := state.space ++ "\n" ++ state.hold }
                    goOn
                | 'x' => do
                    set { state with space := state.hold, hold := state.space }
                    goOn
                | '=' => do
                    say plan (toString state.number ++ "\n")
                    goOn
                | 'l' => do
                    say plan (String.ofList
                      (folded state.space.length ((unambiguous state.space).toList ++ ['$'])) ++ "\n")
                    goOn
                | _ => do
                    set { state with space := "" }
                    goOn

/-- Edits line after line; the exit code is given if the script has ended the work. -/
def cycles (plan : Plan) : Nat → Bool → EditM (Option Nat)
  | 0, _ => return none
  | fuel + 1, keeps => do
      let goes ← if keeps then pure true
        else do
          match ← nextLine plan with
          | some line => do
              modify fun state => { state with space := line.text, replaced := false }
              pure true
          | none => pure false
      if !goes then return none
      else
        let finish (prints : Bool) : EditM Unit := do
          if prints && !plan.quiet then sayLine plan (← get).space
          flushQueue plan
        match ← run plan Tool.readings 0 with
        | .done => do
            finish true
            cycles plan fuel false
        | .dropped => do
            finish false
            cycles plan fuel false
        | .again => do
            finish false
            cycles plan fuel true
        | .quit prints code => do
            finish prints
            return some code

def editInPlace (plan : Plan) (ending : String) : List String → EditM (Option Nat)
  | [] => return none
  | path :: rest => do
      match ← machine (Tool.inspect path true) with
      | .ok (_, .directory) => do
          machine (Tool.complain plan.call
            ("couldn't edit " ++ path ++ ": not a regular file"))
          modify fun state => { state with input := { state.input with failed := true } }
          editInPlace plan ending rest
      | _ => do
          let failedBefore := (← get).input.failed
          let (opened, input) ← machine ((LineInput.ofFiles [path]).openNext (complaint plan) 2)
          modify fun state =>
            { state with input := { input with failed := input.failed || failedBefore }
                         ahead := none, number := 0, kept := some ByteArray.empty
                         unended := false }
          if !opened then editInPlace plan ending rest
          else
            let code ← cycles plan Tool.readings false
            let kept := (← get).kept.getD ByteArray.empty
            -- What follows the line at which the script ended is left as it is.
            let left ← if code.isSome then do
                let ahead ← readAhead plan
                remaining (ahead.toList) Tool.readings
              else pure ByteArray.empty
            if ending != "" then
              let backup := if ending.contains '*' then ending.replace "*" (Tool.lastPart path)
                else path ++ ending
              let _ ← machine (Machine.call (.file (.rename ⟨Text.unspelled path⟩ ⟨Text.unspelled backup⟩)))
            else
              let _ ← machine (Machine.call (.file (.remove ⟨Text.unspelled path⟩)))
            let _ ← machine (Machine.call (.file (.write ⟨Text.unspelled path⟩ (kept ++ left))))
            match code with
            | some code => return some code
            | none => editInPlace plan ending rest
where
  /-- The lines that are left, as they are. -/
  remaining (lines : List Line) : Nat → EditM ByteArray
    | 0 => return ByteArray.empty
    | fuel + 1 => do
        let bytes := lines.foldl
          (fun bytes line => bytes ++ Text.bytesOf (line.text ++ if line.ended then "\n" else ""))
          ByteArray.empty
        match ← nextLine plan with
        | some line =>
            if lines.isEmpty then
              return bytes ++ Text.bytesOf (line.text ++ if line.ended then "\n" else "") ++
                (← remaining [] fuel)
            else return bytes ++ (← remaining [] fuel)
        | none => return bytes

def table : Tool.OptionTable where
  plain := "nErsuz"
  valued := "efl"
  long := [("quiet", 'n'), ("silent", 'n'), ("regexp-extended", 'E'), ("expression", 'e'),
    ("file", 'f'), ("separate", 's')]
  code := 1

def openTargets (call : ToolCall) : List String → Program Machine (List (String × Nat))
  | [] => return []
  | path :: rest => do
      if path = "/dev/stdout" then openTargets call rest
      else
        match ← Tool.openFile path .replace with
        | .ok descriptor => return (path, descriptor) :: (← openTargets call rest)
        | .error fault =>
            Tool.refuse call 4 ("couldn't open file " ++ path ++ ": " ++ fault.reason)

def program : Tool := fun call => do
  -- The ending of the files that are edited in place is part of its option.
  let isInPlace (argument : String) : Bool :=
    argument.startsWith "-i" || argument.startsWith "--in-place"
  let ending? := (call.arguments.find? isInPlace).map fun argument =>
    if argument.startsWith "-i" then (argument.drop 2).toString else (argument.drop 11).toString
  let call := { call with arguments := call.arguments.filter fun argument => !isInPlace argument }
  let (given, operands) ← Tool.options call table
  let (files, ok) ← Tool.readOperands call
    (fun path fault => "couldn't open file " ++ path ++ ": " ++ fault.reason)
    ((given.filter fun e => e.1 == 'f').map Prod.snd)
  if !ok then return Tool.exited 1
  let texts := (given.filter fun e => e.1 == 'e').map Prod.snd ++
    files.map fun e => "\n".intercalate (Tool.textLines e.2)
  let (texts, operands) ← match texts, operands with
    | [], script :: rest =>
        if Tool.has given 'f' then pure ([""], operands) else pure ([script], rest)
    | [], [] => do
        if Tool.has given 'f' then pure ([""], [])
        else do
          Tool.remark ("Usage: " ++ call.name ++
            " [OPTION]... \x7bscript-only-if-no-other-script\x7d [input-file]...\n")
          Machine.exit (Tool.exited 1)
    | texts, operands => pure (texts, operands)
  let extended := Tool.has given 'E' || Tool.has given 'r'
  let commands ← match commandsOf extended ("\n".intercalate texts).toList with
    | .ok commands => pure commands
    | .error (complaint, place) =>
        Tool.refuse call 1
          ("-e expression #1, char " ++ toString place ++ ": " ++ complaint)
  match missingLabel? commands with
  | some label => Tool.refuse call 1 ("-e expression #1, char " ++
      toString ("\n".intercalate texts).length ++ ": can't find label for jump to `" ++ label ++ "'")
  | none => pure ()
  let targets ← openTargets call (commands.filterMap fun command => match command.action with
    | .writeFile path => some path
    | .substitute s => s.file
    | _ => none).eraseDups
  let plan : Plan :=
    { call, commands := commands.toArray, quiet := Tool.has given 'n'
      separate := ending?.isSome || Tool.has given 's' }
  let state : State :=
    { input := LineInput.ofFiles (Tool.orInput operands), ahead := none, number := 0, space := ""
      ended := true, hold := "", replaced := false, queue := [], active := [], lastRegex := none
      unended := false, targets, kept := none }
  let (code, state) ← match ending? with
    | some ending => (editInPlace plan ending operands).run state
    | none => (cycles { plan with separate := false } Tool.readings false).run state
  return match code with
    | some code => Tool.exited code
    | none => Tool.exited (if state.input.failed then 2 else 0)

end Handoff.Edit
