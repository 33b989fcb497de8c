import Handoff.Host.Shell.Script
/-!
# Reading shell scripts

Reads a script one complete command at a time, so what comes first is run before a
mistake further down is found.  Command substitutions are read together with the words
they stand in, and here documents when the line is complete on which they are asked for.
-/

namespace Handoff.Shell

structure ScriptFault where
  line : Nat
  text : String

/-- A here document whose lines have not come yet. -/
structure PendingDocument where
  number : Nat
  delimiter : List Char
  /-- Whether the tabs at the start of each line do not count. -/
  stripped : Bool
  /-- Whether the lines are taken as they are. -/
  verbatim : Bool

inductive Token where
  | word (parts : Word)
  | keyword (text : String)
  | redirect (descriptor : Nat) (kind : RedirectKind)
  /-- The start of a here document. -/
  | document (descriptor : Nat) (stripped : Bool)
  | operator (text : String)
  | newline
  | ending

structure Source where
  rest : List Char
  line : Nat
  /-- The token that was read too early. -/
  back : Option Token
  pending : List PendingDocument
  /-- The here documents that have been read. -/
  documents : List (Nat × Word)
  nextDocument : Nat
  aliases : List (String × String)

abbrev ReadM := StateT Source (Except ScriptFault)

namespace Reader

def fail {α : Type} (text : String) : ReadM α := do
  throw { line := (← get).line, text := "Syntax error: " ++ text }

def isNameStart (c : Char) : Bool :=
  c.isAlpha || c == '_'

def isNamePart (c : Char) : Bool :=
  c.isAlphanum || c == '_'

def isName (text : List Char) : Bool :=
  match text with
  | c :: rest => isNameStart c && rest.all isNamePart
  | [] => false

def isSpecial (c : Char) : Bool :=
  "@*#?-$!".toList.contains c || c.isDigit

def endsWord (c : Char) : Bool :=
  " \t\n;&|<>()".toList.contains c

def take : ReadM (Option Char) := do
  let source ← get
  match source.rest with
  | [] => return none
  | c :: rest => do
      set { source with rest, line := if c = '\n' then source.line + 1 else source.line }
      return some c

def look : ReadM (Option Char) := do
  return (← get).rest.head?

def putBack (c : Char) : ReadM Unit :=
  modify fun source =>
    { source with rest := c :: source.rest
                  line := if c = '\n' then source.line - 1 else source.line }

def skipJoins : ReadM Unit := do
  modify fun source =>
    let (rest, count) := joins source.rest 0
    { source with rest, line := source.line + count }
where
  joins : List Char → Nat → List Char × Nat
    | '\\' :: '\n' :: rest, count => joins rest (count + 1)
    | rest, count => (rest, count)

def takeJoined : ReadM (Option Char) := do
  skipJoins
  take

def lookJoined : ReadM (Option Char) := do
  skipJoins
  look

def takeRun (keep : Char → Bool) : ReadM (List Char) := do
  let source ← get
  let run := source.rest.takeWhile keep
  set { source with
    rest := source.rest.drop run.length, line := source.line + run.count '\n' }
  return run

def addText (chars : List Char) (quoted : Bool) (word : Word) : Word :=
  match word with
  | .text more other :: rest =>
      if other = quoted then .text (chars ++ more) quoted :: rest else .text chars quoted :: word
  | _ => .text chars quoted :: word

/-- A quoted text without the mark at its end, unless it has nothing else.  All arguments
may turn out to be none, so only what stands in the quotes makes a field. -/
def withoutMark : Word → Word
  | [] => []
  | [last] => [last]
  | [first, .text [] true] => [first]
  | first :: rest => first :: withoutMark rest

inductive Context where
  | base
  /-- In the braces of a parameter, outside of quotes. -/
  | operand
  | quoted
  /-- In the braces of a parameter within quotes; `inner` says whether further quotes have
  been opened there. -/
  | quotedOperand (inner : Bool)
  /-- In an arithmetic expression, with so many brackets open. -/
  | arithmetic (depth : Nat)
  | document
  /-- In the word that ends a here document. -/
  | delimiter
  deriving DecidableEq

namespace Context

def isQuoted : Context → Bool
  | quoted => true
  | quotedOperand _ => true
  | document => true
  | arithmetic _ => true
  | _ => false

def isPlain (context : Context) (c : Char) : Bool :=
  let special := c == '\\' || c == '$' || c == '`'
  match context with
  | base => !(special || c == '\'' || c == '"' || endsWord c)
  | delimiter => !(c == '\\' || c == '\'' || c == '"' || endsWord c)
  | operand => !(special || c == '\'' || c == '"' || c == '\x7d')
  | quoted => !(special || c == '"')
  | quotedOperand _ => !(special || c == '"' || c == '\x7d')
  | arithmetic _ => !(special || c == '(' || c == ')' || c == '"')
  | document => !special

def escapes (context : Context) (c : Char) : Bool :=
  let always := c == '\\' || c == '$' || c == '`'
  match context with
  | quoted => always || c == '"'
  | quotedOperand _ => always || c == '"' || c == '\x7d'
  | arithmetic _ => always || c == '"'
  | document => always
  | _ => true

def inner (context : Context) (cuts : Bool) : Context :=
  if cuts then operand
  else if context.isQuoted then quotedOperand false
  else operand

end Context

def nameOf : Token → String
  | .word _ => "word"
  | .keyword text => "\"" ++ text ++ "\""
  | .redirect _ _ => "redirection"
  | .document _ _ => "redirection"
  | .operator text => "\"" ++ text ++ "\""
  | .newline => "newline"
  | .ending => "end of file"

def unexpected {α : Type} (token : Token) : ReadM α :=
  fail (nameOf token ++ " unexpected")

def expecting {α : Type} (token : Token) (text : String) : ReadM α :=
  fail (nameOf token ++ " unexpected (expecting " ++ text ++ ")")

def keywords : List String :=
  ["!", "case", "do", "done", "elif", "else", "esac", "fi", "for", "if", "in", "then",
    "until", "while", "\x7b", "\x7d"]

def endsList : Token → Bool
  | .keyword text => ["do", "done", "elif", "else", "esac", "fi", "then", "\x7d"].contains text
  | .operator text => text == ")" || text == ";;"
  | .ending => true
  | _ => false

/-- What a `<` or `>` and the characters after it do. -/
def redirection (descriptor : Option Nat) (c : Char) : ReadM Token := do
  let next ← takeJoined
  let restore : ReadM Unit := match next with
    | some c => putBack c
    | none => pure ()
  if c = '>' then
    let descriptor := descriptor.getD 1
    match next with
    | some '>' => return .redirect descriptor .append
    | some '|' => return .redirect descriptor .clobber
    | some '&' => return .redirect descriptor .duplicateOut
    | _ => do restore; return .redirect descriptor .write
  else
    let descriptor := descriptor.getD 0
    match next with
    | some '<' => do
        match ← takeJoined with
        | some '-' => return .document descriptor true
        | some c => do putBack c; return .document descriptor false
        | none => return .document descriptor false
    | some '&' => return .redirect descriptor .duplicateIn
    | some '>' => return .redirect descriptor .readWrite
    | _ => do restore; return .redirect descriptor .read

def digit? : Word → Option Nat
  | [.text [c] false] => if c.isDigit then some (c.toNat - '0'.toNat) else none
  | _ => none

def singleQuoted : ReadM (List Char) := do
  let run ← takeRun (· != '\'')
  match ← take with
  | some _ => return run
  | none => fail "Unterminated quoted string"

def backQuoted (quoted : Bool) : Nat → ReadM (List Char)
  | 0 => fail "EOF in backquote substitution"
  | fuel + 1 => do
      let run ← takeRun fun c => c != '`' && c != '\\'
      match ← take with
      | none => fail "EOF in backquote substitution"
      | some '`' => return run
      | some _ => do
          match ← take with
          | none => fail "EOF in backquote substitution"
          | some '\n' => return run ++ (← backQuoted quoted fuel)
          | some c =>
              let escaped := c == '\\' || c == '`' || c == '$' || (quoted && c == '"')
              let text := if escaped then [c] else ['\\', c]
              return run ++ text ++ (← backQuoted quoted fuel)

def actionOf : ReadM (ParameterAction × Bool) := do
  let colon ← do
    match ← lookJoined with
    | some ':' => do let _ ← take; pure true
    | _ => pure false
  match ← lookJoined with
  | some '-' => do let _ ← take; return (.orElse colon, false)
  | some '=' => do let _ ← take; return (.orAssign colon, false)
  | some '?' => do let _ ← take; return (.orFail colon, false)
  | some '+' => do let _ ← take; return (.instead colon, false)
  | some '\x7d' => return (if colon then .bad else .plain, false)
  | some '%' => if colon then return (.bad, false) else cutOf true
  | some '#' => if colon then return (.bad, false) else cutOf false
  | _ => return (.bad, false)
where
  cutOf (atEnd : Bool) : ReadM (ParameterAction × Bool) := do
    let mark ← take
    if (← lookJoined) == mark then
      let _ ← take
      return (.cut atEnd true, true)
    else return (.cut atEnd false, true)

def parameterName : ReadM (List Char × Bool) := do
  match ← lookJoined with
  | none => return ([], false)
  | some c =>
      if isNameStart c then return (← takeRun isNamePart, false)
      else if c.isDigit then return (← takeRun Char.isDigit, false)
      else if c = '#' then
        let _ ← take
        match ← lookJoined with
        | some d =>
            if isNameStart d then return (← takeRun isNamePart, true)
            else if d.isDigit then return (← takeRun Char.isDigit, true)
            else if d != '\x7d' && isSpecial d then
              -- The length of a special parameter, if the braces end after it.
              let _ ← take
              if (← lookJoined) == some '\x7d' then return ([d], true)
              else do
                putBack d
                return (['#'], false)
            else return (['#'], false)
        | none => return (['#'], false)
      else if isSpecial c then
        let _ ← take
        return ([c], false)
      else return ([], false)

def assignment? : Word → Option (String × Word)
  | .text chars false :: rest =>
      let name := chars.takeWhile (· != '=')
      match chars.drop name.length with
      | _ :: value =>
          if isName name then
            some (String.ofList name, if value.isEmpty then rest else .text value false :: rest)
          else none
      | [] => none
  | _ => none

def documentLines (document : PendingDocument) : Nat → Bool → ReadM (List Char)
  | 0, _ => return []
  | fuel + 1, joined => do
      let source ← get
      if source.rest.isEmpty then return []
      let line ← takeRun (· != '\n')
      let ended ← take
      let line := if document.stripped && !joined then line.dropWhile (· == '\t') else line
      if !joined && line = document.delimiter then return []
      let slashes := (line.reverse.takeWhile (· == '\\')).length
      let joins := !document.verbatim && slashes % 2 == 1
      return line ++ (if ended.isSome then ['\n'] else []) ++
        (← documentLines document fuel joins)

def specialNames : List String :=
  [".", ":", "break", "continue", "eval", "exec", "exit", "export", "readonly", "return",
    "set", "shift", "times", "trap", "unset"]

mutual

def parts : Nat → Context → ReadM Word
  | 0, _ => fail "word unexpected"
  | fuel + 1, context => do
      let run ← takeRun context.isPlain
      if !run.isEmpty then
        return addText run context.isQuoted (← parts fuel context)
      match ← look with
      | none => atEnd context
      | some c =>
          if (context == .base || context == .delimiter) && endsWord c then return []
          let _ ← take
          special fuel context c

def atEnd : Context → ReadM Word
  | .base => return []
  | .delimiter => return []
  | .document => return []
  | .arithmetic _ => fail "Missing '))'"
  | .quoted => fail "Unterminated quoted string"
  | .quotedOperand _ => fail "Unterminated quoted string"
  | .operand => fail "Missing '\x7d'"

def special : Nat → Context → Char → ReadM Word
  | 0, _, _ => fail "word unexpected"
  | fuel + 1, context, c => do
      match c with
      | '\\' => do
          match ← take with
          | none => return addText ['\\'] true (← parts fuel context)
          | some '\n' => parts fuel context
          | some d =>
              let text := if context.escapes d then [d] else ['\\', d]
              return addText text true (← parts fuel context)
      | '$' => do
          let part ← dollar fuel context
          match part with
          | .text chars quoted => return addText chars quoted (← parts fuel context)
          | part => return part :: (← parts fuel context)
      | '`' => do
          let source ← backQuoted context.isQuoted ((← get).rest.length + 1)
          let body ← inner fuel source
          return .command body context.isQuoted :: (← parts fuel context)
      | '\'' => do
          let text ← singleQuoted
          return addText text true (← parts fuel context)
      | '"' =>
          match context with
          | .quoted => return [.text [] true]
          | .quotedOperand inner => parts fuel (.quotedOperand (!inner))
          | .arithmetic depth => parts fuel (.arithmetic depth)
          | context => do
              let quoted ← parts fuel .quoted
              return withoutMark quoted ++ (← parts fuel context)
      | '(' =>
          match context with
          | .arithmetic depth =>
              return addText ['('] true (← parts fuel (.arithmetic (depth + 1)))
          | context => return addText ['('] context.isQuoted (← parts fuel context)
      | ')' =>
          match context with
          | .arithmetic (depth + 1) =>
              return addText [')'] true (← parts fuel (.arithmetic depth))
          | .arithmetic 0 => do
              match ← lookJoined with
              | some ')' => do
                  let _ ← take
                  return []
              | _ => return addText [')'] true (← parts fuel (.arithmetic 0))
          | context => return addText [')'] context.isQuoted (← parts fuel context)
      | '\x7d' =>
          match context with
          | .operand => return []
          | .quotedOperand false => return []
          | context => return addText ['\x7d'] context.isQuoted (← parts fuel context)
      | c => return addText [c] context.isQuoted (← parts fuel context)

def dollar : Nat → Context → ReadM Part
  | 0, _ => fail "word unexpected"
  | fuel + 1, context => do
      let quoted := context.isQuoted
      match ← lookJoined with
      | none => return .text ['$'] quoted
      | some '(' => do
          let _ ← take
          match ← lookJoined with
          | some '(' => do
              let _ ← take
              return .arithmetic (← parts fuel (.arithmetic 0)) quoted
          | _ => do
              let saved ← get
              set { saved with back := none, pending := [] }
              let body ← list fuel true false
              let closing ← token fuel false false
              match closing with
              | .operator ")" => do
                  modify fun source => { source with pending := saved.pending, back := none }
                  return .command body quoted
              | other => expecting other "\")\""
      | some '\x7b' => do
          let _ ← take
          braced fuel context
      | some c =>
          if isNameStart c then
            return .parameter (String.ofList (← takeRun isNamePart)) .plain [] quoted
          else if isSpecial c then
            let _ ← take
            return .parameter (String.singleton c) .plain [] quoted
          else return .text ['$'] quoted

def braced : Nat → Context → ReadM Part
  | 0, _ => fail "word unexpected"
  | fuel + 1, context => do
      let quoted := context.isQuoted
      let (name, length) ← parameterName
      let name := String.ofList name
      if name = "" then
        let operand ← parts fuel (context.inner false)
        return .parameter name .bad operand quoted
      if length then
        match ← lookJoined with
        | some '\x7d' => do
            let _ ← take
            return .parameter name .length [] quoted
        | _ => do
            let operand ← parts fuel (context.inner false)
            return .parameter name .bad operand quoted
      let (action, cuts) ← actionOf
      if action == .plain then
        let _ ← take
        return .parameter name .plain [] quoted
      let operand ← parts fuel (context.inner cuts)
      return .parameter name action operand quoted

def inner : Nat → List Char → ReadM Script
  | 0, _ => fail "word unexpected"
  | fuel + 1, text => do
      let saved ← get
      set { saved with rest := text, back := none, pending := [] }
      let body ← list fuel true false
      modify fun source =>
        { source with rest := saved.rest, line := saved.line, back := saved.back,
                      pending := saved.pending }
      return body

def readDocuments : Nat → ReadM Unit
  | 0 => return
  | fuel + 1 => do
      let source ← get
      match source.pending with
      | [] => return
      | document :: rest => do
          set { source with pending := [] }
          let text ← documentLines document (source.rest.length + 1) false
          let body ← if document.verbatim then pure [.text text true]
            else do
              let saved ← get
              set { saved with rest := text, back := none }
              let body ← parts fuel .document
              modify fun source =>
                { source with rest := saved.rest, line := saved.line, back := saved.back }
              pure body
          modify fun source =>
            { source with
              pending := rest, documents := (document.number, body) :: source.documents }
          readDocuments fuel

def rawToken : Nat → ReadM Token
  | 0 => return .ending
  | fuel + 1 => do
      let source ← get
      match source.back with
      | some token => do
          set { source with back := none }
          return token
      | none => do
          match ← takeJoined with
          | none => return .ending
          | some c =>
              let followed (second : Char) (double single : String) : ReadM Token := do
                if (← lookJoined) == some second then
                  let _ ← take
                  return .operator double
                else return .operator single
              match c with
              | ' ' => rawToken fuel
              | '\t' => rawToken fuel
              | '#' => do
                  let _ ← takeRun (· != '\n')
                  rawToken fuel
              | '\n' => return .newline
              | '&' => followed '&' "&&" "&"
              | '|' => followed '|' "||" "|"
              | ';' => followed ';' ";;" ";"
              | '(' => return .operator "("
              | ')' => return .operator ")"
              | '<' => redirection none '<'
              | '>' => redirection none '>'
              | c => do
                  putBack c
                  let word ← parts fuel .base
                  match digit? word, ← look with
                  | some digit, some '<' => do let _ ← take; redirection (some digit) '<'
                  | some digit, some '>' => do let _ ← take; redirection (some digit) '>'
                  | _, _ => return .word word

/-- The next token, after line ends if they do not count, and as a keyword if it may be
one. -/
def token : Nat → Bool → Bool → ReadM Token
  | 0, _, _ => return .ending
  | fuel + 1, skip, keyword => do
      match ← rawToken fuel with
      | .newline =>
          if skip then
            readDocuments fuel
            token fuel skip keyword
          else return .newline
      | .word word =>
          match Word.plain? word with
          | some text =>
              let text := String.ofList text
              if keyword && keywords.contains text then return .keyword text
              if keyword then
                match (← get).aliases.lookup text with
                | some value => do
                    -- A name stands for its text once; its own text is not looked at again.
                    modify fun source =>
                      { source with rest := value.toList ++ source.rest
                                    aliases := source.aliases.filter fun e => e.1 != text }
                    token fuel skip keyword
                | none => return .word word
              else return .word word
          | none => return .word word
      | other => return other

/-- A list of commands.  A complete command ends with its line (`nested` is false); the
list in a compound command ends with a token that cannot begin a command. -/
def list : Nat → Bool → Bool → ReadM Script
  | 0, _, _ => return .nothing
  | fuel + 1, nested, required => commands fuel nested (!required && nested) .nothing

def commands : Nat → Bool → Bool → Script → ReadM Script
  | 0, _, _, before => return before
  | fuel + 1, nested, mayEnd, before => do
      match ← token fuel nested true with
      | .newline => do
          readDocuments fuel
          return before
      | .ending => do
          readDocuments fuel
          modify fun source => { source with back := some .ending }
          return before
      | first => do
          modify fun source => { source with back := some first }
          if mayEnd && endsList first then return before
          let command ← andOr fuel
          let after ← token fuel false false
          let command := match after with
            | .operator "&" => inBackground command
            | _ => command
          let all := match before with
            | .nothing => command
            | before => .sequence before command
          match after with
          | .ending => do
              readDocuments fuel
              modify fun source => { source with back := some .ending }
              return all
          | .newline => do
              modify fun source => { source with back := some .newline }
              commands fuel nested nested all
          | .operator "&" => commands fuel nested nested all
          | .operator ";" => commands fuel nested nested all
          | other =>
              if nested then
                modify fun source => { source with back := some other }
                return all
              else unexpected other
where
  /-- The command as one that is not waited for. -/
  inBackground : Script → Script
    | .pipeline stages _ => .pipeline stages true
    | .redirected line body redirects => .background line body redirects
    | command => .background 0 command []

def andOr : Nat → ReadM Script
  | 0 => return .nothing
  | fuel + 1 => do
      let first ← pipeline fuel false
      joined fuel first

def joined : Nat → Script → ReadM Script
  | 0, first => return first
  | fuel + 1, first => do
      match ← token fuel false false with
      | .operator "&&" => do
          let second ← pipeline fuel true
          joined fuel (.both first second)
      | .operator "||" => do
          let second ← pipeline fuel true
          joined fuel (.either first second)
      | other => do
          modify fun source => { source with back := some other }
          return first

def pipeline : Nat → Bool → ReadM Script
  | 0, _ => return .nothing
  | fuel + 1, skip => do
      match ← token fuel skip true with
      | .keyword "!" => do
          let first ← command fuel false
          let stages ← stages fuel
          return .negated (piped first stages)
      | other => do
          modify fun source => { source with back := some other }
          let first ← command fuel false
          let stages ← stages fuel
          return piped first stages
where
  piped (first : Script) (others : List Script) : Script :=
    if others.isEmpty then first else .pipeline (first :: others) false

def stages : Nat → ReadM (List Script)
  | 0 => return []
  | fuel + 1 => do
      match ← token fuel false false with
      | .operator "|" => do
          let next ← command fuel true
          return next :: (← stages fuel)
      | other => do
          modify fun source => { source with back := some other }
          return []

def command : Nat → Bool → ReadM Script
  | 0, _ => return .nothing
  | fuel + 1, skip => do
      let first ← token fuel skip true
      let line := (← get).line
      match first with
      | .keyword "if" => do
          let body ← branch fuel
          closed fuel line "fi" body
      | .keyword "while" => do
          let body ← loop fuel false
          closed fuel line "done" body
      | .keyword "until" => do
          let body ← loop fuel true
          closed fuel line "done" body
      | .keyword "for" => do
          let body ← each fuel line
          closed fuel line "done" body
      | .keyword "case" => do
          let body ← choose fuel line
          withRedirects fuel line body
      | .keyword "\x7b" => do
          let body ← list fuel true true
          closed fuel line "\x7d" body
      | .operator "(" => do
          let body ← list fuel true true
          match ← token fuel false true with
          | .operator ")" => withRedirects fuel line (.subshell line body [])
          | other => expecting other "\")\""
      | .word word => do
          modify fun source => { source with back := some (.word word) }
          simple fuel line [] [] []
      | .redirect descriptor kind => do
          modify fun source => { source with back := some (.redirect descriptor kind) }
          simple fuel line [] [] []
      | .document descriptor stripped => do
          modify fun source => { source with back := some (.document descriptor stripped) }
          simple fuel line [] [] []
      | other => unexpected other

def closed : Nat → Nat → String → Script → ReadM Script
  | 0, _, _, body => return body
  | fuel + 1, line, closing, body => do
      match ← token fuel false true with
      | .keyword text =>
          if text = closing then withRedirects fuel line body
          else expecting (.keyword text) ("\"" ++ closing ++ "\"")
      | other => expecting other ("\"" ++ closing ++ "\"")

def withRedirects : Nat → Nat → Script → ReadM Script
  | 0, _, body => return body
  | fuel + 1, line, body => do
      let redirects ← redirects fuel
      return match body, redirects with
        | body, [] => body
        | .subshell line body _, redirects => .subshell line body redirects
        | body, redirects => .redirected line body redirects

def redirects : Nat → ReadM (List Redirect)
  | 0 => return []
  | fuel + 1 => do
      match ← token fuel false true with
      | .redirect descriptor kind => do
          let first ← redirect fuel descriptor kind
          return first :: (← redirects fuel)
      | .document descriptor stripped => do
          let first ← document fuel descriptor stripped
          return first :: (← redirects fuel)
      | other => do
          modify fun source => { source with back := some other }
          return []

def redirect : Nat → Nat → RedirectKind → ReadM Redirect
  | 0, descriptor, kind => return .to descriptor kind []
  | fuel + 1, descriptor, kind => do
      match ← token fuel false false with
      | .word word => return .to descriptor kind word
      | other => unexpected other

def document : Nat → Nat → Bool → ReadM Redirect
  | 0, descriptor, _ => return .to descriptor .read []
  | fuel + 1, descriptor, stripped => do
      let _ ← takeRun fun c => c == ' ' || c == '\t'
      match ← look with
      | some c =>
          if endsWord c then
            let other ← token fuel false false
            unexpected other
          else do
            let word ← parts fuel .delimiter
            let number := (← get).nextDocument
            let pending : PendingDocument :=
              { number, delimiter := Word.letters word, stripped
                verbatim := Word.isQuoted word }
            modify fun source =>
              { source with
                pending := source.pending ++ [pending], nextDocument := number + 1 }
            return .to descriptor (.document number) []
      | none => unexpected .ending

def simple : Nat → Nat → List (String × Word) → List Word → List Redirect → ReadM Script
  | 0, line, assignments, words, redirects =>
      return .simple line assignments words redirects
  | fuel + 1, line, assignments, words, redirects => do
      match ← token fuel false false with
      | .word word =>
          match words, assignment? word with
          | [], some assignment => simple fuel line (assignments ++ [assignment]) words redirects
          | _, _ => simple fuel line assignments (words ++ [word]) redirects
      | .redirect descriptor kind => do
          let one ← redirect fuel descriptor kind
          simple fuel line assignments words (redirects ++ [one])
      | .document descriptor stripped => do
          let one ← document fuel descriptor stripped
          simple fuel line assignments words (redirects ++ [one])
      | .operator "(" =>
          match words, assignments, redirects with
          | [name], [], [] => function fuel name
          | _, _, _ => do
              modify fun source => { source with back := some (.operator "(") }
              return .simple line assignments words redirects
      | other => do
          modify fun source => { source with back := some other }
          return .simple line assignments words redirects

def function : Nat → Word → ReadM Script
  | 0, _ => return .nothing
  | fuel + 1, name => do
      match ← token fuel false false with
      | .operator ")" =>
          let text := (Word.plain? name).getD []
          if !isName text || specialNames.contains (String.ofList text) then
            fail "Bad function name"
          else do
            let line := (← get).line
            let body ← command fuel true
            return .function line (String.ofList text) body
      | other => expecting other "\")\""

def branch : Nat → ReadM Script
  | 0 => return .nothing
  | fuel + 1 => do
      let condition ← list fuel true true
      match ← token fuel false true with
      | .keyword "then" => do
          let yes ← list fuel true true
          match ← token fuel false true with
          | .keyword "elif" => do
              let no ← branch fuel
              return .branch condition yes no
          | .keyword "else" => do
              let no ← list fuel true true
              return .branch condition yes no
          | other => do
              modify fun source => { source with back := some other }
              return .branch condition yes .nothing
      | other => expecting other "\"then\""

def loop : Nat → Bool → ReadM Script
  | 0, _ => return .nothing
  | fuel + 1, until? => do
      let condition ← list fuel true true
      match ← token fuel false true with
      | .keyword "do" => do
          let body ← list fuel true true
          return .loop until? condition body
      | other => expecting other "\"do\""

def each : Nat → Nat → ReadM Script
  | 0, _ => return .nothing
  | fuel + 1, line => do
      let name ← do
        match ← token fuel false false with
        | .word word =>
            let text := (Word.plain? word).getD []
            if isName text then pure (String.ofList text) else fail "Bad for loop variable"
        | _ => fail "Bad for loop variable"
      let words ← do
        match ← token fuel true true with
        | .keyword "in" => do
            let words ← wordList fuel
            pure words
        | .operator ";" => pure [allArguments]
        | other => do
            modify fun source => { source with back := some other }
            pure [allArguments]
      match ← token fuel true true with
      | .keyword "do" => do
          let body ← list fuel true true
          return .each line name words body
      | other => expecting other "\"do\""

def wordList : Nat → ReadM (List Word)
  | 0 => return []
  | fuel + 1 => do
      match ← token fuel false false with
      | .word word => return word :: (← wordList fuel)
      | .newline => do
          readDocuments fuel
          return []
      | .operator ";" => return []
      | other => unexpected other

def choose : Nat → Nat → ReadM Script
  | 0, _ => return .nothing
  | fuel + 1, line => do
      match ← token fuel false false with
      | .word subject => do
          match ← token fuel true true with
          | .keyword "in" => do
              let first ← token fuel true true
              let arms ← arms fuel first
              return .choose line subject arms
          | other => expecting other "\"in\""
      | other => expecting other "word"

/-- The arms of a choice, from the token `first` on. -/
def arms : Nat → Token → ReadM (List (List Word × Script))
  | 0, _ => return []
  | _ + 1, .keyword "esac" => return []
  | fuel + 1, first => do
      let first ← match first with
        | .operator "(" => token fuel false false
        | other => pure other
      let patterns ← patterns fuel first
      let body ← list fuel true false
      match ← token fuel true true with
      | .operator ";;" => do
          let next ← token fuel true true
          return (patterns, body) :: (← arms fuel next)
      | .keyword "esac" => return [(patterns, body)]
      | other => expecting other "\";;\""

def patterns : Nat → Token → ReadM (List Word)
  | 0, _ => return []
  | fuel + 1, first => do
      let word : Word := match first with
        | .word word => word
        | .keyword text => [.text text.toList false]
        | _ => []
      match first with
      | .word _ => pure ()
      | .keyword _ => pure ()
      | other => expecting other "\")\""
      match ← token fuel false false with
      | .operator "|" => do
          let next ← token fuel false false
          return word :: (← patterns fuel next)
      | .operator ")" => return [word]
      | other => expecting other "\")\""

end

def depthOf (source : Source) : Nat :=
  40 * source.rest.length + 1000

end Reader

/-- The next complete command of a script; `none` at its end. -/
def Source.next? (source : Source) : Except ScriptFault (Option (Script × Source)) := do
  let depth := Reader.depthOf source
  let (token, source) ← (Reader.token depth false true).run { source with back := none, pending := [] }
  match token with
  | .ending => return none
  | .newline => return some (.nothing, source)
  | token => do
      let (script, source) ←
        (Reader.list depth false true).run { source with back := some token }
      return some (script, source)

def Source.ofText (text : List Char) : Source where
  rest := text
  line := 1
  back := none
  pending := []
  documents := []
  nextDocument := 0
  aliases := []

end Handoff.Shell
