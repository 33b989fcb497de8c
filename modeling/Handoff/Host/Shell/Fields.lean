import Handoff.Host.Shell.Pattern
/-!
# Fields

Divides the letters of expanded words at separators.  A blank separator may stand for
itself any number of times, and together with one that is not blank; all others delimit
a field each time.
-/

namespace Handoff.Shell

namespace Letter

/-- No character: one argument ends here and another one begins, whatever they hold. -/
def argumentBreak : Letter := ⟨'\x00', true, true⟩

def delimits (separators : List Char) (letter : Letter) : Bool :=
  letter.splits && (letter.char == '\x00' || separators.contains letter.char)

/-- Whether the letter, which delimits fields, counts as a blank. -/
def isBlank (letter : Letter) : Bool :=
  !letter.quoted && (letter.char == '\x00' || letter.char == ' ' || letter.char == '\t' ||
    letter.char == '\n')

end Letter

namespace Fields

def afterDelimiter (separators : List Char) : Bool → List Letter → List Letter
  | _, [] => []
  | blank, letter :: rest =>
      if letter == Letter.argumentBreak || !letter.delimits separators then letter :: rest
      else if letter.isBlank then afterDelimiter separators blank rest
      else if blank then afterDelimiter separators false rest
      else letter :: rest

/-- At most `count` fields and what is left after them, with the separators at its start
passed over. -/
def take (separators : List Char) : Nat → List Letter → List (List Letter) × List Letter
  | 0, letters => ([], afterDelimiter separators false letters)
  | count + 1, letters =>
      let letters := afterDelimiter separators false letters
      let field := letters.takeWhile fun letter => !letter.delimits separators
      match letters.drop field.length with
      | [] => (if field.isEmpty then [] else [field], [])
      | delimiter :: rest =>
          let rest := if delimiter == Letter.argumentBreak then rest
            else afterDelimiter separators delimiter.isBlank rest
          let (fields, rest) := take separators count rest
          (field :: fields, rest)

def split (separators : List Char) (letters : List Letter) : List (List Letter) :=
  (take separators (letters.length + 1) letters).1

/-- The letters of the last field, which takes all that is left: a delimiter at its end
is cut off if it is the only one, and otherwise the blanks there. -/
def last (separators : List Char) (letters : List Letter) : List Letter :=
  go (letters.length + 1) [] letters
where
  /-- Goes over the letters; `kept` holds those so far, the last one first. -/
  go : Nat → List Letter → List Letter → List Letter
    | 0, kept, _ => kept.reverse
    | _ + 1, kept, [] => kept.reverse
    | fuel + 1, kept, letter :: rest =>
        if !letter.delimits separators then go fuel (letter :: kept) rest
        else
          let beyond := afterDelimiter separators letter.isBlank rest
          let first := kept.all fun letter => !letter.delimits separators
          if beyond.isEmpty && (first || (letter :: rest).all Letter.isBlank) then kept.reverse
          else go fuel (letter :: kept) rest

end Fields

end Handoff.Shell
