/-!
# Shell patterns

Patterns with stars, question marks and bracketed sets, as they are matched against
file names and case subjects.
-/

namespace Handoff.Shell

structure Letter where
  char : Char
  /-- A quoted character stands for itself. -/
  quoted : Bool
  /-- Whether the character may separate fields. -/
  splits : Bool
  deriving DecidableEq, Repr

namespace Letter

/-- No character: it keeps a field that is otherwise empty. -/
def mark : Letter := ⟨'\x00', true, false⟩

/-- No character: one field ends here and another one begins. -/
def fieldBreak : Letter := ⟨'\x00', false, true⟩

def isMark (letter : Letter) : Bool :=
  letter.char == '\x00'

end Letter

def textOf (letters : List Letter) : String :=
  String.ofList ((letters.filter fun letter => !letter.isMark).map Letter.char)

def lettersOf (text : String) (quoted splits : Bool) : List Letter :=
  text.toList.map fun char => { char, quoted, splits }

inductive SetItem where
  | range (first last : Char)
  | named (name : String)
  deriving DecidableEq, Repr

namespace SetItem

def classHas (name : String) (c : Char) : Bool :=
  match name with
  | "alpha" => c.isAlpha
  | "digit" => c.isDigit
  | "alnum" => c.isAlphanum
  | "upper" => c.isUpper
  | "lower" => c.isLower
  | "space" => c == ' ' || ('\t' ≤ c && c ≤ '\r')
  | "blank" => c == ' ' || c == '\t'
  | "punct" => '!' ≤ c && c ≤ '~' && !c.isAlphanum
  | "print" => ' ' ≤ c && c ≤ '~'
  | "graph" => '!' ≤ c && c ≤ '~'
  | "cntrl" => c < ' ' || c == '\x7f'
  | "xdigit" => c.isDigit || ('a' ≤ c && c ≤ 'f') || ('A' ≤ c && c ≤ 'F')
  | _ => false

def accepts (c : Char) : SetItem → Bool
  | range first last => first ≤ c && c ≤ last
  | named name => classHas name c

end SetItem

inductive PatternAtom where
  | one (c : Char)
  | any
  | star
  | set (items : List SetItem) (negated : Bool)
  deriving DecidableEq, Repr

namespace Pattern

/-- Whether the letter stands for itself and is `c`. -/
def isPlain (c : Char) (letter : Letter) : Bool :=
  letter.char == c && !letter.quoted

def isPattern (letters : List Letter) : Bool :=
  letters.any fun letter =>
    !letter.quoted && (letter.char == '*' || letter.char == '?' || letter.char == '[')

/-- The name of a class such as `[:alpha:]` after its opening, and what follows. -/
def className? (letters : List Letter) : Option (String × List Letter) :=
  match letters with
  | bracket :: colon :: rest =>
      if isPlain '[' bracket && colon.char == ':' then
        let name := rest.takeWhile fun letter => letter.char.isAlpha
        match rest.drop name.length with
        | colon :: close :: rest =>
            if colon.char == ':' && close.char == ']' then
              some (String.ofList (name.map Letter.char), rest)
            else none
        | _ => none
      else none
  | _ => none

/-- The members of a bracketed set and what follows it.  A bracket that closes at once is
a member. -/
def setItems : Nat → Bool → List Letter → Option (List SetItem × List Letter)
  | 0, _, _ => none
  | _ + 1, _, [] => none
  | fuel + 1, first, letter :: rest =>
      if isPlain ']' letter && !first then some ([], rest)
      else
        match className? (letter :: rest) with
        | some (name, rest) =>
            (setItems fuel false rest).map fun (items, rest) => (.named name :: items, rest)
        | none =>
            match rest with
            | dash :: last :: more =>
                if isPlain '-' dash && !isPlain ']' last then
                  (setItems fuel false more).map fun (items, rest) =>
                    (.range letter.char last.char :: items, rest)
                else single fuel letter rest
            | _ => single fuel letter rest
where
  single (fuel : Nat) (letter : Letter) (rest : List Letter) :=
    (setItems fuel false rest).map fun (items, rest) =>
      (SetItem.range letter.char letter.char :: items, rest)

def atoms : Nat → List Letter → List PatternAtom
  | 0, _ => []
  | _ + 1, [] => []
  | fuel + 1, letter :: rest =>
      if letter.isMark then atoms fuel rest
      else if isPlain '*' letter then .star :: atoms fuel rest
      else if isPlain '?' letter then .any :: atoms fuel rest
      else if isPlain '\\' letter then
        match rest with
        | next :: rest => .one next.char :: atoms fuel rest
        | [] => [.one '\\']
      else if isPlain '[' letter then
        let (negated, inside) := match rest with
          | sign :: more =>
              if isPlain '!' sign || isPlain '^' sign then (true, more) else (false, rest)
          | [] => (false, rest)
        match setItems (inside.length + 1) true inside with
        | some (items, rest) => .set items negated :: atoms fuel rest
        | none => .one '[' :: atoms fuel rest
      else .one letter.char :: atoms fuel rest

def ofLetters (letters : List Letter) : List PatternAtom :=
  atoms (letters.length + 1) letters

def accepts : List PatternAtom → List Char → Bool
  | [], text => text.isEmpty
  | .one c :: rest, d :: text => c == d && accepts rest text
  | .any :: rest, _ :: text => accepts rest text
  | .set items negated :: rest, d :: text =>
      (items.any (SetItem.accepts d) != negated) && accepts rest text
  | .star :: rest, text => suffixes text |>.any (accepts rest)
  | _ :: _, [] => false
where
  /-- The text and all that is left when its start is cut off. -/
  suffixes : List Char → List (List Char)
    | [] => [[]]
    | c :: text => (c :: text) :: suffixes text

def test (pattern : List Letter) (text : String) : Bool :=
  accepts (ofLetters pattern) text.toList

end Pattern

end Handoff.Shell
