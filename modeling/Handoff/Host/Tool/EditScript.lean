import Handoff.Host.Regex
import Handoff.Host.Shell.Format
/-!
# Scripts of the stream editor

The commands of the stream editor as data, and how they are read.
-/

namespace Handoff.Edit

/-- An expression; `none` stands for the one that was used last. -/
abbrev Expression := Option Regex

inductive Address where
  | line (number : Nat)
  | last
  | found (regex : Expression) (folded : Bool)
  /-- Every so many lines, from a first one on. -/
  | every (first step : Nat)

inductive RangeEnd where
  | at (address : Address)
  /-- So many lines further on. -/
  | further (count : Nat)
  /-- At the next multiple. -/
  | multiple (step : Nat)

structure Scope where
  start : Option Address
  stop : Option RangeEnd
  negated : Bool

inductive Replacement where
  | text (chars : List Char)
  /-- What a group has matched; the group 0 is the match itself. -/
  | group (number : Nat)
  /-- Sets the case of what follows: `U`, `L` or `E`, and `u` or `l` for one character. -/
  | letterCase (kind : Char)

structure Substitution where
  regex : Expression
  folded : Bool
  parts : List Replacement
  all : Bool
  /-- The match from which on it is carried out. -/
  number : Nat
  prints : Bool
  file : Option String

inductive Action where
  | substitute (substitution : Substitution)
  | translate (table : List (Char × Char))
  /-- A command without arguments, by its letter. -/
  | plain (letter : Char)
  | quit (silently : Bool) (code : Nat)
  | append (text : String)
  | insert (text : String)
  | change (text : String)
  | readFile (path : String)
  | writeFile (path : String)
  /-- Goes to a label or to the end: always, after a substitution, or after none. -/
  | jump (letter : Char) (label : String)
  | label (name : String)
  | opening
  | closing

structure Command where
  scope : Scope
  action : Action

abbrev ReadM := StateT (List Char) (Except (String × List Char))

namespace Reader

def fail {α : Type} (complaint : String) : ReadM α := do
  throw (complaint, ← get)

def take : ReadM (Option Char) := do
  match ← get with
  | c :: rest => do
      set rest
      return some c
  | [] => return none

def takeRun (keep : Char → Bool) : ReadM (List Char) := do
  let text ← get
  let run := text.takeWhile keep
  set (text.drop run.length)
  return run

def isBlank (c : Char) : Bool :=
  c == ' ' || c == '\t'

def skipBlanks : ReadM Unit := do
  let _ ← takeRun isBlank

def digits? : ReadM (Option Nat) := do
  return (String.ofList (← takeRun Char.isDigit)).toNat?

/-- The text up to a delimiter.  A delimiter after a backslash does not end it; in an
expression it then stands for itself. -/
def delimited (delimiter : Char) (isRegex : Bool) (complaint : String) :
    Nat → ReadM (List Char)
  | 0 => fail complaint
  | fuel + 1 => do
      match ← take with
      | none => fail complaint
      | some c =>
          if c = delimiter then return []
          else if c = '\n' && isRegex then fail complaint
          else if c = '\\' then
            match ← take with
            | none => fail complaint
            | some d =>
                let rest ← delimited delimiter isRegex complaint fuel
                if d = delimiter then return d :: rest
                else if d = 'n' && isRegex then return '\\' :: 'n' :: rest
                else return '\\' :: d :: rest
          else return c :: (← delimited delimiter isRegex complaint fuel)

def size : ReadM Nat := do
  return (← get).length + 1

def expression (extended : Bool) (text : List Char) : ReadM Expression := do
  if text.isEmpty then return none
  else
    match Regex.ofText extended text with
    | .ok (regex, _) => return some regex
    | .error complaint => fail complaint

def address? (extended : Bool) : ReadM (Option Address) := do
  match ← get with
  | '$' :: rest => do
      set rest
      return some .last
  | '/' :: rest => do
      set rest
      pattern '/'
  | '\\' :: c :: rest => do
      set rest
      pattern c
  | c :: _ =>
      if c.isDigit then
        let number := (← digits?).getD 0
        match ← get with
        | '~' :: rest => do
            set rest
            return some (.every number ((← digits?).getD 0))
        | _ => return some (.line number)
      else return none
  | [] => return none
where
  pattern (delimiter : Char) : ReadM (Option Address) := do
    let text ← delimited delimiter true "unterminated address regex" (← size)
    let flags ← takeRun fun c => c == 'I' || c == 'M'
    return some (.found (← expression extended text) (flags.contains 'I'))

def scope (extended : Bool) : ReadM Scope := do
  let start ← address? extended
  skipBlanks
  let stop ← match start, (← get) with
    | some _, ',' :: rest => do
        set rest
        skipBlanks
        match ← get with
        | '+' :: rest => do
            set rest
            pure (some (.further ((← digits?).getD 0)))
        | '~' :: rest => do
            set rest
            pure (some (.multiple ((← digits?).getD 0)))
        | _ => do
            match ← address? extended with
            | some address => pure (some (.at address))
            | none => fail "unexpected `,'"
    | _, _ => pure none
  skipBlanks
  let negations ← takeRun fun c => c == '!' || isBlank c
  return { start, stop, negated := negations.contains '!' }

def replacement : Nat → List Char → List Replacement
  | 0, _ => []
  | _ + 1, [] => []
  | fuel + 1, '&' :: rest => .group 0 :: replacement fuel rest
  | fuel + 1, '\\' :: c :: rest =>
      if c.isDigit then .group (c.toNat - '0'.toNat) :: replacement fuel rest
      else if "ULEul".toList.contains c then .letterCase c :: replacement fuel rest
      else
        let plain := match c with
          | 'n' => '\n'
          | 't' => '\t'
          | 'r' => '\r'
          | 'f' => '\x0c'
          | 'v' => '\x0b'
          | 'a' => '\x07'
          | c => c
        .text [plain] :: replacement fuel rest
  | fuel + 1, c :: rest => .text [c] :: replacement fuel rest

/-- What ends a command: a line end, a semicolon, or a bracket that is left. -/
def ending : ReadM Unit := do
  skipBlanks
  match ← get with
  | [] => return
  | c :: rest =>
      if c = '\n' || c = ';' then set rest
      else if c = '\x7d' || c = '#' then return
      else do
        set rest
        fail "extra characters after command"

def flags : Nat → Substitution → ReadM Substitution
  | 0, substitution => return substitution
  | fuel + 1, substitution => do
      match ← get with
      | [] => return substitution
      | c :: rest =>
          match c with
          | 'g' => do
              set rest
              flags fuel { substitution with all := true }
          | 'p' => do
              set rest
              flags fuel { substitution with prints := true }
          | 'i' => do
              set rest
              flags fuel { substitution with folded := true }
          | 'I' => do
              set rest
              flags fuel { substitution with folded := true }
          | 'm' => do
              set rest
              flags fuel substitution
          | 'M' => do
              set rest
              flags fuel substitution
          | 'w' => do
              set rest
              skipBlanks
              let path ← takeRun (· != '\n')
              return { substitution with file := some (String.ofList path) }
          | c =>
              if c.isDigit then
                match ← digits? with
                | some 0 => fail "number option to `s' command may not be zero"
                | number => flags fuel { substitution with number := number.getD 1 }
              else if isBlank c || c = '\n' || c = ';' || c = '\x7d' || c = '#' then
                return substitution
              else do
                set rest
                fail "unknown option to `s'"

def addedText : ReadM String := do
  skipBlanks
  match ← get with
  | [] => fail "expected \\ after `a', `c' or `i'"
  | '\\' :: rest => do
      set rest
      skipBlanks
      match ← get with
      | '\n' :: rest => set rest
      | _ => pure ()
      body
  | _ => body
where
  body : ReadM String := do
    let text ← lines (← size)
    return String.ofList text ++ "\n"
  /-- The text up to a line end that is not escaped. -/
  lines : Nat → ReadM (List Char)
    | 0 => return []
    | fuel + 1 => do
        match ← take with
        | none => return []
        | some '\n' => return []
        | some '\\' => do
            match ← take with
            | none => return []
            | some c => return c :: (← lines fuel)
        | some c => return c :: (← lines fuel)

def name (stops : Char → Bool) : ReadM String := do
  skipBlanks
  let text ← takeRun fun c => c != '\n' && !stops c
  match ← get with
  | _ :: rest => set rest
  | [] => pure ()
  return String.ofList (text.reverse.dropWhile isBlank).reverse

def translation : ReadM (List (Char × Char)) := do
  match ← take with
  | none => fail "unterminated `y' command"
  | some delimiter => do
      let unescape (text : List Char) : List Char := clean (text.length + 1) text
      let source ← delimited delimiter false "unterminated `y' command" (← size)
      let target ← delimited delimiter false "unterminated `y' command" (← size)
      let source := unescape source
      let target := unescape target
      if source.length != target.length then
        fail "strings for `y' command are different lengths"
      ending
      return source.zip target
where
  clean : Nat → List Char → List Char
    | 0, _ => []
    | _ + 1, [] => []
    | fuel + 1, '\\' :: 'n' :: rest => '\n' :: clean fuel rest
    | fuel + 1, '\\' :: 't' :: rest => '\t' :: clean fuel rest
    | fuel + 1, '\\' :: c :: rest => c :: clean fuel rest
    | fuel + 1, c :: rest => c :: clean fuel rest

def groupsAsked (parts : List Replacement) : Nat :=
  parts.foldl
    (fun most part => match part with
      | .group number => max most number
      | _ => most)
    0

def substitution (extended : Bool) : ReadM Substitution := do
  match ← take with
  | none => fail "unterminated `s' command"
  | some delimiter => do
      let pattern ← delimited delimiter true "unterminated `s' command" (← size)
      let text ← delimited delimiter false "unterminated `s' command" (← size)
      let groups := match Regex.ofText extended pattern with
        | .ok (_, groups) => groups
        | .error _ => 9
      let parts := replacement (text.length + 1) text
      let plain : Substitution :=
        { regex := none, folded := false, parts, all := false, number := 1, prints := false
          file := none }
      let substitution ← flags (← size) plain
      if !pattern.isEmpty && groups < groupsAsked parts then
        fail ("invalid reference \\" ++ toString (groupsAsked parts) ++
          " on `s' command's RHS")
      let regex ← expression extended pattern
      ending
      return { substitution with regex }

def action (extended : Bool) (letter : Char) : ReadM Action := do
  match letter with
  | 's' => return .substitute (← substitution extended)
  | 'y' => return .translate (← translation)
  | '\x7b' => return .opening
  | '\x7d' => do
      ending
      return .closing
  | 'a' => return .append (← addedText)
  | 'i' => return .insert (← addedText)
  | 'c' => return .change (← addedText)
  | 'r' => return .readFile (← name fun _ => false)
  | 'w' => return .writeFile (← name fun _ => false)
  | ':' => return .label (← name fun c => c == ';')
  | c =>
      if c = 'b' || c = 't' || c = 'T' then
        skipBlanks
        let label ← takeRun fun c => !(c == '\n' || c == ';' || c == '\x7d' || isBlank c)
        ending
        return .jump c (String.ofList label)
      else if c = 'q' || c = 'Q' then
        skipBlanks
        let code ← digits?
        ending
        return .quit (c == 'Q') (code.getD 0)
      else if "pPdDnNhHgGx=lz".toList.contains c then
        ending
        return .plain c
      else fail ("unknown command: `" ++ String.singleton c ++ "'")

/-- The commands of a script; `depth` counts the blocks that are open. -/
def commands (extended : Bool) : Nat → Nat → ReadM (List Command)
  | 0, _ => return []
  | fuel + 1, depth => do
      let _ ← takeRun fun c => isBlank c || c == '\n' || c == ';'
      match ← get with
      | [] =>
          if depth = 0 then return []
          else throw ("unmatched `\x7b'", [])
      | '#' :: _ => do
          let _ ← takeRun (· != '\n')
          commands extended fuel depth
      | _ => do
          let scope ← scope extended
          match ← take with
          | none => fail "missing command"
          | some letter => do
              let action ← action extended letter
              let depth ← match action with
                | .opening => pure (depth + 1)
                | .closing => if depth = 0 then fail "unexpected `\x7d'" else pure (depth - 1)
                | _ => pure depth
              return { scope, action } :: (← commands extended fuel depth)

end Reader

def commandsOf (extended : Bool) (text : List Char) : Except (String × Nat) (List Command) :=
  match (Reader.commands extended (text.length + 2) 0).run text with
  | .ok (commands, _) => .ok commands
  | .error (complaint, rest) =>
      .error (complaint, if complaint = "unmatched `\x7b'" then 0 else text.length - rest.length)

def missingLabel? (commands : List Command) : Option String :=
  commands.findSome? fun command =>
    match command.action with
    | .jump _ label =>
        if label = "" then none
        else if commands.any fun other => match other.action with
            | .label name => name == label
            | _ => false then none
        else some label
    | _ => none

end Handoff.Edit
