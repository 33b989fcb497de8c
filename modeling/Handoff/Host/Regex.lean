import Handoff.Host.Shell.Pattern
/-!
# Regular expressions

The basic and the extended expressions of POSIX with groups and references to them.  Of
all matches that start first, the longest one counts.
-/

namespace Handoff

inductive Regex where
  | char (c : Char)
  | any
  | oneOf (items : List Shell.SetItem) (negated : Bool)
  | lineStart
  | lineEnd
  /-- The border of a word: its start, its end, or (with neither) both. -/
  | wordBorder (start stop : Bool)
  | notBorder
  | group (number : Nat) (body : Regex)
  /-- What a group has matched. -/
  | again (number : Nat)
  | sequence (parts : List Regex)
  | either (parts : List Regex)
  | repeated (body : Regex) (least : Nat) (most : Option Nat)

namespace Regex

/-- What the groups have matched: the places where each begins and ends. -/
abbrev Captures := List (Nat × Nat × Nat)

structure Match where
  start : Nat
  stop : Nat
  captures : Captures

/-- A search for the longest match: how many steps are left, and the best one so far. -/
structure Search where
  steps : Nat
  best : Option (Nat × Captures)

abbrev SearchM := StateM Search

def isWord (c : Char) : Bool :=
  c.isAlphanum || c == '_'

structure Subject where
  chars : Array Char
  folded : Bool

namespace Subject

def sameChar (subject : Subject) (a b : Char) : Bool :=
  a == b || (subject.folded && a.toLower == b.toLower)

def isIn (subject : Subject) (items : List Shell.SetItem) (c : Char) : Bool :=
  items.any (Shell.SetItem.accepts c) ||
    (subject.folded && items.any fun item =>
      item.accepts c.toLower || item.accepts c.toUpper)

def isWordAt (subject : Subject) (place : Nat) : Bool :=
  (subject.chars[place]?.map isWord).getD false

def isBorder (subject : Subject) (start stop : Bool) (place : Nat) : Bool :=
  let before := place != 0 && subject.isWordAt (place - 1)
  let after := subject.isWordAt place
  if start then !before && after else if stop then before && !after else before != after

def repeats (subject : Subject) (a b length : Nat) : Bool :=
  (List.range length).all fun n =>
    match subject.chars[a + n]?, subject.chars[b + n]? with
    | some c, some d => subject.sameChar c d
    | _, _ => false

end Subject

/-- Looks for matches of the expression from `place` on, and goes on with `next` after each. -/
def explore (subject : Subject) :
    Nat → Regex → Nat → Captures → (Nat → Captures → SearchM Unit) → SearchM Unit
  | 0, _, _, _, _ => return
  | fuel + 1, regex, place, captures, next => do
      let search ← get
      if search.steps = 0 then return
      set { search with steps := search.steps - 1 }
      let one (accepts : Char → Bool) : SearchM Unit :=
        match subject.chars[place]? with
        | some c => if accepts c then next (place + 1) captures else return
        | none => return
      match regex with
      | .char c => one (subject.sameChar c)
      | .any => one fun _ => true
      | .oneOf items negated => one fun c => subject.isIn items c != negated
      | .lineStart => if place = 0 then next place captures
      | .lineEnd => if place = subject.chars.size then next place captures
      | .wordBorder start stop =>
          if subject.isBorder start stop place then next place captures
      | .notBorder => if !subject.isBorder false false place then next place captures
      | .group number body =>
          explore subject fuel body place captures fun stop inner =>
            next stop ((number, place, stop) :: inner)
      | .again number =>
          match captures.lookup number with
          | some (start, stop) =>
              let length := stop - start
              if subject.repeats start place length then next (place + length) captures
          | none => return
      | .sequence parts =>
          match parts with
          | [] => next place captures
          | first :: rest =>
              explore subject fuel first place captures fun place captures =>
                explore subject fuel (.sequence rest) place captures next
      | .either parts =>
          match parts with
          | [] => return
          | first :: rest => do
              explore subject fuel first place captures next
              explore subject fuel (.either rest) place captures next
      | .repeated body least most => do
          if most != some 0 then
            explore subject fuel body place captures fun after inner =>
              if after = place && least = 0 then return
              else explore subject fuel (.repeated body (least - 1) (most.map (· - 1))) after inner next
          if least = 0 then next place captures

def stepMax : Nat := 200000

def matchAt (regex : Regex) (subject : Subject) (start : Nat) : Option Match :=
  let depth := 4 * subject.chars.size + 1000000
  let (_, search) := (explore subject depth regex start [] fun stop captures =>
    modify fun search =>
      match search.best with
      | some (longest, _) =>
          if longest < stop then { search with best := some (stop, captures) } else search
      | none => { search with best := some (stop, captures) }).run
    { steps := stepMax, best := none }
  search.best.map fun (stop, captures) => { start, stop, captures }

def find (regex : Regex) (subject : Subject) : Nat → Nat → Option Match
  | 0, _ => none
  | fuel + 1, start =>
      if subject.chars.size < start then none
      else
        match regex.matchAt subject start with
        | some found => some found
        | none => regex.find subject fuel (start + 1)

def search (regex : Regex) (subject : Subject) (start : Nat) : Option Match :=
  regex.find subject (subject.chars.size + 1) start

def test (regex : Regex) (subject : Subject) : Bool :=
  (regex.search subject 0).isSome

/-- An expression that is being read: what is left of it, and how many groups it has. -/
structure Progress where
  rest : List Char
  groups : Nat

abbrev ReadM := StateT Progress (Except String)

/-- The items of a set up to the bracket that closes it.  A bracket at once is one of them. -/
def setItems : Nat → Bool → List Char → Except String (List Shell.SetItem × List Char)
  | 0, _, _ => .error "Unmatched [, [^, [:, [., or [="
  | _ + 1, _, [] => .error "Unmatched [, [^, [:, [., or [="
  | fuel + 1, first, ']' :: rest =>
      if first then member fuel ']' rest else .ok ([], rest)
  | fuel + 1, _, '[' :: ':' :: rest =>
      let name := rest.takeWhile (· != ':')
      match rest.drop name.length with
      | ':' :: ']' :: rest =>
          (setItems fuel false rest).map fun (items, rest) =>
            (.named (String.ofList name) :: items, rest)
      | _ => .error "Unmatched [, [^, [:, [., or [="
  | fuel + 1, _, c :: rest => member fuel c rest
where
  /-- The items that begin with a character, which may start a range. -/
  member (fuel : Nat) (c : Char) (rest : List Char) :
      Except String (List Shell.SetItem × List Char) :=
    match rest with
    | '-' :: ']' :: _ =>
        (setItems fuel false rest).map fun (items, rest) => (.range c c :: items, rest)
    | '-' :: d :: rest =>
        if d < c then .error "Invalid range end"
        else (setItems fuel false rest).map fun (items, rest) => (.range c d :: items, rest)
    | _ => (setItems fuel false rest).map fun (items, rest) => (.range c c :: items, rest)

/-- The bounds of a repetition, such as `2,3`, and what follows the number. -/
def bounds? (text : List Char) : Option (Nat × Option Nat × List Char) :=
  let digits := text.takeWhile Char.isDigit
  let least := (String.ofList digits).toNat?
  match text.drop digits.length with
  | ',' :: rest =>
      let more := rest.takeWhile Char.isDigit
      some (least.getD 0, (String.ofList more).toNat?, rest.drop more.length)
  | rest => least.map fun n => (n, some n, rest)

def endsPart (extended : Bool) (depth : Nat) : List Char → Bool
  | [] => true
  | '\\' :: c :: _ => !extended && ((c == ')' && depth != 0) || c == '|')
  | c :: _ => extended && ((c == ')' && depth != 0) || c == '|')

def escapeClass? : Char → Option Regex
  | 'w' => some (.oneOf [.named "alnum", .range '_' '_'] false)
  | 'W' => some (.oneOf [.named "alnum", .range '_' '_'] true)
  | 's' => some (.oneOf [.named "space"] false)
  | 'S' => some (.oneOf [.named "space"] true)
  | 'b' => some (.wordBorder false false)
  | 'B' => some .notBorder
  | '<' => some (.wordBorder true false)
  | '>' => some (.wordBorder false true)
  | 'n' => some (.char '\n')
  | 't' => some (.char '\t')
  | _ => none

def take (count : Nat) : ReadM Unit :=
  modify fun progress => { progress with rest := progress.rest.drop count }

mutual

def alternatives (extended : Bool) : Nat → Nat → ReadM Regex
  | 0, _ => throw "Regular expression too big"
  | fuel + 1, depth => do
      let first ← branch extended fuel depth true
      let bar ← do
        match extended, (← get).rest with
        | true, '|' :: _ => pure 1
        | false, '\\' :: '|' :: _ => pure 2
        | _, _ => pure 0
      if bar = 0 then return .sequence first
      else do
        take bar
        match ← alternatives extended fuel depth with
        | .either others => return .either (.sequence first :: others)
        | other => return .either [.sequence first, other]

/-- The parts of one alternative; `start` says that none has been read. -/
def branch (extended : Bool) : Nat → Nat → Bool → ReadM (List Regex)
  | 0, _, _ => throw "Regular expression too big"
  | fuel + 1, depth, start => do
      if endsPart extended depth (← get).rest then return []
      else
        let (part, plain) ← atom extended fuel depth start
        let part ← if plain then repetitions extended fuel part else pure part
        return part :: (← branch extended fuel depth (start && !plain))

def atom (extended : Bool) : Nat → Nat → Bool → ReadM (Regex × Bool)
  | 0, _, _ => throw "Regular expression too big"
  | fuel + 1, depth, start => do
      let progress ← get
      let group (size : Nat) : ReadM (Regex × Bool) := do
        let number := progress.groups + 1
        set { progress with rest := progress.rest.drop size, groups := number }
        let body ← alternatives extended fuel (depth + 1)
        match extended, (← get).rest with
        | true, ')' :: _ => take 1
        | false, '\\' :: ')' :: _ => take 2
        | _, _ => throw "Unmatched ( or \\("
        return (.group number body, true)
      match progress.rest with
      | [] => return (.sequence [], false)
      | '.' :: _ => do
          take 1
          return (.any, true)
      | '[' :: rest => do
          let (negated, inside) := match rest with
            | '^' :: rest => (true, rest)
            | rest => (false, rest)
          match setItems (inside.length + 1) true inside with
          | .error complaint => throw complaint
          | .ok (items, rest) => do
              set { progress with rest }
              return (.oneOf items negated, true)
      | '^' :: _ => do
          take 1
          return if extended || start then (.lineStart, false) else (.char '^', true)
      | '$' :: rest => do
          take 1
          return if extended || endsPart extended depth rest then (.lineEnd, false)
            else (.char '$', true)
      | '*' :: _ => do
          take 1
          return if start then (.char '*', true) else (.char '*', true)
      | '\\' :: c :: _ =>
          if c = '(' && !extended then group 2
          else if c = ')' && !extended then throw "Unmatched ) or \\)"
          else if c.isDigit && c != '0' then do
            let number := c.toNat - '0'.toNat
            if progress.groups < number then throw "Invalid back reference"
            take 2
            return (.again number, true)
          else
            match escapeClass? c with
            | some regex => do
                take 2
                return (regex, true)
            | none => do
                take 2
                return (.char c, true)
      | ['\\'] => throw "Trailing backslash"
      | c :: _ =>
          if c = '(' && extended then group 1
          else do
            take 1
            return (.char c, true)

def repetitions (extended : Bool) : Nat → Regex → ReadM Regex
  | 0, part => return part
  | fuel + 1, part => do
      let repeated (size least : Nat) (most : Option Nat) : ReadM Regex := do
        take size
        repetitions extended fuel (.repeated part least most)
      let bounded (size : Nat) (text : List Char) (close : List Char) : ReadM Regex := do
        match bounds? text with
        | some (least, most, rest) =>
            match close.isPrefixOf? rest with
            | some _ =>
                if most.any (· < least) then throw "Invalid content of \\\x7b\\\x7d"
                else repeated (size + (text.length - rest.length) + close.length) least most
            | none => throw "Unmatched \\\x7b"
        | none => throw "Invalid preceding regular expression"
      match extended, (← get).rest with
      | _, '*' :: _ => repeated 1 0 none
      | true, '+' :: _ => repeated 1 1 none
      | true, '?' :: _ => repeated 1 0 (some 1)
      | true, '\x7b' :: rest =>
          if (bounds? rest).isSome then bounded 1 rest ['\x7d'] else return part
      | false, '\\' :: '+' :: _ => repeated 2 1 none
      | false, '\\' :: '?' :: _ => repeated 2 0 (some 1)
      | false, '\\' :: '\x7b' :: rest => bounded 2 rest ['\\', '\x7d']
      | _, _ => return part

end

def ofText (extended : Bool) (text : List Char) : Except String (Regex × Nat) := do
  let (regex, progress) ←
    (alternatives extended (8 * text.length + 8) 0).run { rest := text, groups := 0 }
  match progress.rest with
  | [] => return (regex, progress.groups)
  | _ => throw "Unmatched ) or \\)"

def literal (text : List Char) : Regex :=
  .sequence (text.map .char)

def wholeWord (regex : Regex) : Regex :=
  .sequence [.wordBorder false false, regex, .wordBorder false false]

def wholeLine (regex : Regex) : Regex :=
  .sequence [.lineStart, regex, .lineEnd]

end Regex

end Handoff
