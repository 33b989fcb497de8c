/-!
# Shell scripts

The commands of the POSIX shell as data: words with their expansions, redirections
and the compound commands.
-/

namespace Handoff.Shell

/-- What is done with the value of a parameter.  With `empty`, an empty value counts as
none. -/
inductive ParameterAction where
  | plain
  | length
  | orElse (empty : Bool)
  | orAssign (empty : Bool)
  | orFail (empty : Bool)
  | instead (empty : Bool)
  /-- Cuts off a match of the operand at the start or the end, the longest or the
  shortest one. -/
  | cut (atEnd longest : Bool)
  /-- The braces hold no parameter. -/
  | bad
  deriving DecidableEq, Repr

inductive RedirectKind where
  | read
  | write
  /-- Writes also when files must not be overwritten. -/
  | clobber
  | append
  | readWrite
  | duplicateIn
  | duplicateOut
  /-- Reads a here document, which goes by its number. -/
  | document (number : Nat)
  deriving DecidableEq, Repr

mutual

inductive Part where
  | text (chars : List Char) (quoted : Bool)
  | parameter (name : String) (action : ParameterAction) (operand : List Part) (quoted : Bool)
  | arithmetic (body : List Part) (quoted : Bool)
  | command (body : Script) (quoted : Bool)

inductive Redirect where
  | to (descriptor : Nat) (kind : RedirectKind) (target : List Part)

/-- A command of the shell; some say on which line they stand. -/
inductive Script where
  | nothing
  | simple (line : Nat) (assignments : List (String × List Part)) (words : List (List Part))
      (redirects : List Redirect)
  | pipeline (stages : List Script) (background : Bool)
  | redirected (line : Nat) (body : Script) (redirects : List Redirect)
  | subshell (line : Nat) (body : Script) (redirects : List Redirect)
  | background (line : Nat) (body : Script) (redirects : List Redirect)
  | negated (body : Script)
  | both (first second : Script)
  | either (first second : Script)
  | sequence (first second : Script)
  | branch (condition yes no : Script)
  /-- Repeats the body as long as the condition has the status that `until?` asks for. -/
  | loop (until? : Bool) (condition body : Script)
  | each (line : Nat) (name : String) (words : List (List Part)) (body : Script)
  | choose (line : Nat) (subject : List Part) (arms : List (List (List Part) × Script))
  | function (line : Nat) (name : String) (body : Script)

end

abbrev Word := List Part

namespace Word

def plain? : Word → Option (List Char)
  | [] => some []
  | .text chars false :: rest => (plain? rest).map (chars ++ ·)
  | _ => none

def letters : Word → List Char
  | [] => []
  | .text chars _ :: rest => chars ++ letters rest
  | _ :: rest => letters rest

def isQuoted (word : Word) : Bool :=
  word.any fun part => match part with
    | .text _ quoted => quoted
    | _ => false

end Word

def allArguments : Word := [.parameter "@" .plain [] true]

end Handoff.Shell
