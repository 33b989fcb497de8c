import Handoff.Host.Shell.Arithmetic
import Handoff.Host.Shell.Fields
import Handoff.Host.Shell.State
/-!
# Expansion of words

What words stand for: the values of parameters and expressions, the output of commands,
and the files that match a pattern.
-/

namespace Handoff.Shell

namespace State

def optionLetters (state : State) : String :=
  String.ofList ("pubaCEVvxsnmiIfe".toList.filter state.hasOption)

/-- The value of a parameter; `none` when it is not set. -/
def parameter? (state : State) (name : String) : Option String :=
  match name with
  | "#" => some (toString state.arguments.length)
  | "?" => some (toString state.status)
  | "$" => some (toString state.shellProcess)
  | "!" => state.lastJob.map fun process => toString process
  | "-" => some state.optionLetters
  | _ =>
      if name.toList.all Char.isDigit then
        match name.toNat?.getD 0 with
        | 0 => some state.name
        | position + 1 => state.arguments[position]?
      else state.value? name

def joint (state : State) : String :=
  match state.value? "IFS" with
  | none => " "
  | some separators => String.ofList (separators.toList.take 1)

end State

namespace Expansion

inductive Use where
  /-- It may become several fields. -/
  | fields
  /-- It is the value of a variable. -/
  | value
  /-- It is one text. -/
  | text
  deriving DecidableEq

def homeOf (state : State) (user : String) : Option String :=
  match user with
  | "" => (state.value? "HOME").filter (· != "")
  | "root" => some "/root"
  | "daemon" => some "/usr/sbin"
  | "bin" => some "/bin"
  | "sys" => some "/dev"
  | "nobody" => some "/nonexistent"
  | _ => none

def tilde (state : State) (inValue ended : Bool) (chars : List Char) (splits : Bool) :
    List Letter :=
  let plain (chars : List Char) : List Letter :=
    chars.map fun char => { char, quoted := false, splits }
  match chars with
  | '~' :: rest =>
      let user := rest.takeWhile fun c => c != '/' && !(inValue && c == ':')
      let after := rest.drop user.length
      -- What follows the text without a mark would belong to the name.
      if after.isEmpty && !ended then plain chars
      else
        match homeOf state (String.ofList user) with
        | some home => lettersOf home true false ++ plain after
        | none => plain chars
  | _ => plain chars

/-- The letters of a value in which a tilde may also follow a colon. -/
def tildes (state : State) (ended : Bool) : Nat → List Char → List Letter
  | 0, _ => []
  | fuel + 1, chars =>
      let first := chars.takeWhile (· != ':')
      match chars.drop first.length with
      | [] => tilde state true ended first false
      | colon :: rest =>
          tilde state true true first false ++
            { char := colon, quoted := false, splits := false } :: tildes state ended fuel rest

/-- What is left of a value when a match at one of its ends is cut off. -/
def withoutMatch (atEnd longest : Bool) (pattern : List Letter) (value : String) : String :=
  let chars := value.toList
  let atoms := Pattern.ofLetters pattern
  let lengths := List.range (chars.length + 1)
  let matched (n : Nat) : Bool :=
    Pattern.accepts atoms (if atEnd then chars.drop (chars.length - n) else chars.take n)
  match (if longest then lengths.reverse else lengths).find? matched with
  | some n => String.ofList (if atEnd then chars.take (chars.length - n) else chars.drop n)
  | none => value

def letters (value : String) (quoted : Bool) : List Letter :=
  if quoted then
    if value.isEmpty then [Letter.mark] else lettersOf value true false
  else lettersOf value false true

def broken (gap : Letter) (quoted : Bool) : List String → List Letter
  | [] => []
  | [text] => letters text quoted
  | text :: rest => letters text quoted ++ gap :: broken gap quoted rest

def allArguments (state : State) (use : Use) (each quoted : Bool) : List Letter :=
  if use = .fields && !quoted then broken Letter.fieldBreak false state.arguments
  else if use = .fields && each then broken Letter.argumentBreak true state.arguments
  else letters (state.joint.intercalate state.arguments) quoted

def valueLetters? (state : State) (use : Use) (name : String) (quoted : Bool) :
    Option (List Letter × Bool) :=
  if name = "@" || name = "*" then
    let all := allArguments state use (name == "@") quoted
    some (all, state.arguments.all String.isEmpty && state.arguments.length ≤ 1)
  else (state.parameter? name).map fun value => (letters value quoted, value.isEmpty)

def unset {α : Type} (name message : String) : ShellM α :=
  fail (name ++ ": " ++ message)

/-- What a value is without a match of the pattern. -/
def cutValue (state : State) (use : Use) (name : String) (quoted atEnd longest : Bool)
    (pattern : List Letter) : List Letter :=
  match valueLetters? state use name true with
  | some (all, _) => letters (withoutMatch atEnd longest pattern (textOf all)) quoted
  | none => letters "" quoted

def arithmetic (source : String) : ShellM String := do
  let state ← get
  match Arithmetic.eval state.value? source with
  | .ok (value, changes) => do
      for (name, value) in changes.reverse do setVariable name (toString value)
      return toString value
  | .error (.malformed reason) =>
      fail ("arithmetic expression: " ++ reason ++ ": \"" ++ source ++ "\"")
  | .error (.illegal text) => fail ("Illegal number: " ++ text)

mutual

/-- The letters of a word.  Unquoted text is divided into fields where `splits` says so;
`start` says that a tilde may stand first. -/
def word (substitute : Script → ShellM String) (use : Use) (splits start : Bool) :
    List Part → ShellM (List Letter)
  | [] => return []
  | part :: rest => do
      let first ← one substitute use splits start rest.isEmpty part
      return first ++ (← word substitute use splits false rest)

/-- The letters of a part; `ended` says that it is the last one of its word. -/
def one (substitute : Script → ShellM String) (use : Use) (splits start ended : Bool) :
    Part → ShellM (List Letter)
  | .text chars quoted => do
      if quoted then return letters (String.ofList chars) true
      else
        let state ← get
        if use = .value && !splits then
          if start then return tildes state ended (chars.length + 1) chars
          else
            -- The text before the first colon belongs to what stands before it.
            let first := chars.takeWhile (· != ':')
            let plain := lettersOf (String.ofList first) false false
            match chars.drop first.length with
            | [] => return plain
            | _ :: after =>
                return plain ++ lettersOf ":" false false ++
                  tildes state ended (chars.length + 1) after
        else if start then return tilde state false ended chars splits
        else return lettersOf (String.ofList chars) false splits
  | .arithmetic body quoted => do
      let source ← word substitute .text false false body
      return letters (← arithmetic (textOf source)) quoted
  | .command body quoted => do
      return letters (← substitute body) quoted
  | .parameter name action operand quoted => do
      let found := valueLetters? (← get) use name quoted
      let isSet (empty : Bool) : Bool :=
        match found with
        | some (_, isEmpty) => !(empty && isEmpty)
        | none => false
      let value : List Letter := match found with
        | some (all, _) => all
        | none => letters "" quoted
      let operandLetters : ShellM (List Letter) := do
        let all ← word substitute use (!quoted) (!quoted) operand
        return if quoted && all.isEmpty then [Letter.mark] else all
      let requireSet : ShellM Unit := do
        if (← get).hasOption 'u' && found.isNone then unset name "parameter not set"
      match action with
      | .plain => do
          requireSet
          return value
      | .length => do
          requireSet
          let length := ((value.filter fun letter => !letter.isMark).length)
          return letters (toString length) quoted
      | .orElse empty => if isSet empty then return value else operandLetters
      | .instead empty =>
          if isSet empty then operandLetters
          else return if quoted then [Letter.mark] else []
      | .orAssign empty => do
          if isSet empty then return value
          else
            let text := textOf (← word substitute .text false true operand)
            if !Reader.isName name.toList then fail (name ++ ": bad variable name")
            setVariable name text
            return letters text quoted
      | .orFail empty => do
          if isSet empty then return value
          else
            let text := textOf (← word substitute .text false true operand)
            if operand.isEmpty then
              unset name ("parameter not set" ++ if empty then " or null" else "")
            else unset name text
      | .cut atEnd longest => do
          requireSet
          let pattern ← word substitute .text false true operand
          return cutValue (← get) use name quoted atEnd longest pattern
      | .bad => fail "Bad substitution"

end

def segments (letters : List Letter) : List (List Letter) :=
  letters.foldr
    (fun letter all =>
      if letter.char = '/' then [] :: all
      else
        match all with
        | first :: rest => (letter :: first) :: rest
        | [] => [[letter]])
    [[]]

def namesIn (location : Location) : ShellM (List String) := do
  let entries ← call (.children location)
  let names := entries.map fun entry => match entry.1 with
    | .named name => Text.spelled name
    | .undecodable bytes => Text.byteText ⟨bytes.toArray⟩
  return names.mergeSort fun a b => !(b < a)

def inspect (path : String) (follow : Bool) :
    ShellM (Except OsFault (Location × FileEntry)) :=
  call (.inspect (Text.unspelled path) follow)

def plainText (segment : List Letter) : String :=
  textOf segment

/-- The paths that begin with `before` and go on with a match of the pattern, which is
given part by part. -/
def matching : List (List Letter) → String → ShellM (List String)
  | [], _ => return []
  | [segment], before => do
      if !Pattern.isPattern segment then
        let path := before ++ plainText segment
        match ← inspect path false with
        | .ok _ => return [path]
        | .error _ => return []
      else return (← entriesFor segment before).map (before ++ ·)
  | segment :: rest, before => do
      if !Pattern.isPattern segment then matching rest (before ++ plainText segment ++ "/")
      else
        let mut all := []
        for name in ← entriesFor segment before do
          all := all ++ (← matching rest (before ++ name ++ "/"))
        return all
where
  /-- The names in the directory `before` that match a part of the pattern. -/
  entriesFor (segment : List Letter) (before : String) : ShellM (List String) := do
    match ← inspect (if before.isEmpty then "." else before) true with
    | .ok (location, .directory) => do
        let hidden := (segment.filter fun letter => !letter.isMark).head?.map Letter.char == some '.'
        let names ← namesIn location
        let names := if hidden then "." :: ".." :: names
          else names.filter fun name => !name.startsWith "."
        let atoms := Pattern.ofLetters segment
        return names.filter fun name => Pattern.accepts atoms name.toList
    | _ => return []

def globbed (letters : List Letter) : ShellM (List String) := do
  if !Pattern.isPattern letters || (← get).hasOption 'f' then return [textOf letters]
  else
    let found ← matching (segments letters) ""
    return if found.isEmpty then [textOf letters] else found.mergeSort fun a b => !(b < a)

def fields (substitute : Script → ShellM String) (parts : List Part) :
    ShellM (List String) := do
  let all ← word substitute .fields false true parts
  let split := Fields.split (← get).separators all
  let mut found := []
  for field in split do found := found ++ (← globbed field)
  return found

def allFields (substitute : Script → ShellM String) :
    List (List Part) → ShellM (List String)
  | [] => return []
  | first :: rest => do
      let own ← fields substitute first
      return own ++ (← allFields substitute rest)

def text (substitute : Script → ShellM String) (use : Use) (parts : List Part) :
    ShellM String := do
  return textOf (← word substitute use false true parts)

def pattern (substitute : Script → ShellM String) (parts : List Part) :
    ShellM (List Letter) :=
  word substitute .text false true parts

end Expansion

end Handoff.Shell
