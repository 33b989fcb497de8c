import Handoff.Host.Regex
import Handoff.Host.Tool.Listing
import Handoff.Host.Tool.Processes
/-!
# Finding files

The tool that walks through directories and does something about the files that fulfil
an expression.
-/

namespace Handoff.Tool.Find

structure Bound where
  /-- How the other number is to be ordered. -/
  order : Ordering
  amount : Nat

def Bound.holds (bound : Bound) (n : Nat) : Bool :=
  compare n bound.amount == bound.order

/-- What an expression is made of: properties of a file, and deeds that are done about it. -/
inductive Primary where
  | name (pattern : String) (caseless : Bool)
  | path (pattern : String) (caseless : Bool)
  | regex (regex : Regex)
  /-- What a link names. -/
  | target (pattern : String)
  | kind (letters : List Char)
  | empty
  /-- The size, in units of so many bytes. -/
  | size (bound : Bound) (unit : Nat)
  | newer (age : Nat)
  /-- The permissions: exactly, all of them or any of them. -/
  | mode (how : Option Char) (bits : Nat)
  | constant (value : Bool)
  | print (ending : String)
  | format (format : List Char)
  | delete
  | prune
  | quit
  | run (argv : List String)
  /-- Runs a program at the end, for all files together. -/
  | runTogether (argv : List String)

inductive Expression where
  | primary (primary : Primary)
  | not (operand : Expression)
  | and (first second : Expression)
  | or (first second : Expression)
  | both (first second : Expression)

structure Walk where
  least : Nat := 0
  most : Option Nat := none
  /-- Whether a directory comes after what is in it. -/
  bottomUp : Bool := false
  follows : Bool := false
  /-- Whether something is done about the files, so that they are not just printed. -/
  acts : Bool := false

/-- What is read so far: the arguments that are left, and how to walk. -/
structure Reading where
  rest : List String
  walk : Walk

abbrev ReadM := StateT Reading (Except String)

def quotedOld (text : String) : String :=
  "`" ++ text ++ "'"

def argument (predicate : String) : ReadM String := do
  let reading ← get
  match reading.rest with
  | text :: rest => do
      set { reading with rest }
      return text
  | [] => throw ("missing argument to " ++ quotedOld predicate)

def changeWalk (change : Walk → Walk) : ReadM Unit :=
  modify fun reading => { reading with walk := change reading.walk }

def acts : ReadM Unit :=
  changeWalk fun walk => { walk with acts := true }

def number (predicate : String) : ReadM Nat := do
  let text ← argument predicate
  match natural? text with
  | some n => return n
  | none =>
      throw ("Expected a positive decimal integer argument to " ++ predicate ++ ", but got " ++
        "'" ++ text ++ "'")

/-- The bound that an argument such as `+3` writes. -/
def boundOf? (text : List Char) : Option Bound :=
  let (order, digits) := match text with
    | '+' :: rest => (Ordering.gt, rest)
    | '-' :: rest => (Ordering.lt, rest)
    | _ => (Ordering.eq, text)
  (natural? (String.ofList digits)).map fun amount => { order, amount }

/-- A bound on how old a file is, where files are always as old as `age` says. -/
def ageBound (predicate : String) (age : Nat) : ReadM Primary := do
  let text ← argument predicate
  match boundOf? text.toList with
  | some bound => return .constant (bound.holds age)
  | none => throw ("invalid argument " ++ quotedOld text ++ " to " ++ quotedOld predicate)

def unitOf? : Char → Option Nat
  | 'b' => some 512
  | 'c' => some 1
  | 'w' => some 2
  | 'k' => some 1024
  | 'M' => some 1048576
  | 'G' => some 1073741824
  | _ => none

def sizeBound : ReadM Primary := do
  let text ← argument "-size"
  let chars := text.toList
  match chars.getLast? with
  | none => throw "invalid null argument to -size"
  | some last => do
      let (digits, unit) ←
        if last.isDigit then pure (chars, 512)
        else match unitOf? last with
          | some unit => pure (chars.dropLast, unit)
          | none => throw ("invalid -size type " ++ quotedOld (String.singleton last))
      match boundOf? digits with
      | some bound => return .size bound unit
      | none => throw ("Invalid argument " ++ quotedOld text ++ " to -size")

def hole : String := "\x7b\x7d"

/-- The words of a command up to its end; the flag says that it is run for all files. -/
def commandWords (predicate : String) : Nat → List String → ReadM (List String × Bool)
  | 0, _ => throw ("missing argument to " ++ quotedOld predicate)
  | fuel + 1, words => do
      match ← argument predicate with
      | ";" =>
          if words.isEmpty then throw ("invalid argument " ++ quotedOld ";" ++ " to " ++
            quotedOld predicate)
          else return (words, false)
      | "+" =>
          if words.getLast? = some hole then together words.dropLast
          else if words.getLast?.any fun word => (word.splitOn hole).length > 1 then
            throw ("In '" ++ predicate ++ " ... " ++ hole ++ " +' the '" ++ hole ++
              "' must appear by itself, but you specified '" ++ words.getLastD "" ++ "'")
          else commandWords predicate fuel (words ++ ["+"])
      | word => commandWords predicate fuel (words ++ [word])
where
  together (words : List String) : ReadM (List String × Bool) :=
    if words.any fun word => (word.splitOn hole).length > 1 then
      throw ("Only one instance of " ++ hole ++ " is supported with " ++ predicate ++ " ... +")
    else return (words, true)

def kindLetters (text : String) : Except String (List Char) := do
  if text.isEmpty then throw "Arguments to -type should contain at least one letter"
  let rec read : List Char → List Char → Except String (List Char)
    | [], known => return known
    | letter :: rest, known => do
        if !("bcdflps".toList.contains letter) then
          throw ("Unknown argument to -type: " ++ String.singleton letter)
        if known.contains letter then
          throw ("Duplicate file type '" ++ String.singleton letter ++
            "' in the argument list to -type.")
        match rest with
        | [] => return letter :: known
        | [','] => throw ("Last file type in list argument to -type is missing, i.e., list is " ++
            "ending on: ','")
        | ',' :: rest => read rest (letter :: known)
        | _ => throw "Must separate multiple arguments to -type using: ','"
  read text.toList []

def primary (predicate : String) : ReadM Primary := do
  match predicate with
  | "-name" => return .name (← argument predicate) false
  | "-iname" => return .name (← argument predicate) true
  | "-path" => return .path (← argument predicate) false
  | "-wholename" => return .path (← argument predicate) false
  | "-ipath" => return .path (← argument predicate) true
  | "-lname" => return .target (← argument predicate)
  | "-regex" => do
      let text ← argument predicate
      match Regex.ofText false text.toList with
      | .ok (regex, _) => return .regex (Regex.wholeLine regex)
      | .error reason =>
          throw ("failed to compile regular expression '" ++ text ++ "': " ++ reason)
  | "-type" => do
      let text ← argument predicate
      return .kind (← kindLetters text)
  | "-empty" => return .empty
  | "-size" => sizeBound
  | "-mtime" => ageBound "-mtime" 0
  | "-atime" => ageBound "-atime" 0
  | "-ctime" => ageBound "-ctime" 0
  | "-mmin" => ageBound "-mmin" 1
  | "-amin" => ageBound "-amin" 1
  | "-cmin" => ageBound "-cmin" 1
  | "-perm" => do
      let text ← argument predicate
      let (how, digits) := match text.toList with
        | '-' :: rest => (some '-', String.ofList rest)
        | '/' :: rest => (some '/', String.ofList rest)
        | _ => (none, text)
      match modeText? digits with
      | some mode => return .mode how (mode.apply false 0)
      | none => throw ("invalid mode '" ++ text ++ "'")
  | "-newer" => return .newer (← number predicate)
  | "-true" => return .constant true
  | "-false" => return .constant false
  | "-readable" => return .constant true
  | "-writable" => return .constant true
  | "-executable" => return .mode (some '/') 0o111
  | "-nouser" => return .constant false
  | "-nogroup" => return .constant false
  | "-daystart" => return .constant true
  | "-noleaf" => return .constant true
  | "-warn" => return .constant true
  | "-nowarn" => return .constant true
  | "-maxdepth" => do
      let most ← number predicate
      changeWalk fun walk => { walk with most := some most }
      return .constant true
  | "-mindepth" => do
      let least ← number predicate
      changeWalk fun walk => { walk with least }
      return .constant true
  | "-depth" => deep
  | "-d" => deep
  | "-follow" => do
      changeWalk fun walk => { walk with follows := true }
      return .constant true
  | "-xdev" => return .constant true
  | "-mount" => return .constant true
  | "-print" => act (.print "\n")
  | "-print0" => act (.print "\x00")
  | "-printf" => do
      let format ← argument predicate
      act (.format format.toList)
  | "-delete" => do
      changeWalk fun walk => { walk with bottomUp := true }
      act .delete
  | "-prune" => return .prune
  | "-quit" => act .quit
  | "-exec" => do
      let (argv, together) ← commandWords predicate ((← get).rest.length + 1) []
      act (if together then .runTogether argv else .run argv)
  | _ => throw ("unknown predicate " ++ quotedOld predicate)
where
  deep : ReadM Primary := do
    changeWalk fun walk => { walk with bottomUp := true }
    return .constant true
  act (primary : Primary) : ReadM Primary := do
    acts
    return primary

inductive Part where
  | primary (primary : Primary)
  /-- A parenthesis, a negation or a join, as it is spelled. -/
  | operator (spelling : String)

def isNegation (text : String) : Bool :=
  ["!", "-not"].contains text

def isJoin (text : String) : Bool :=
  [",", "-o", "-or", "-a", "-and"].contains text

def isOperator (text : String) : Bool :=
  isJoin text || isNegation text || ["(", ")"].contains text

/-- Reads the parts of an expression; `fuel` bounds their number. -/
def parts : Nat → List Part → ReadM (List Part)
  | 0, read => return read
  | fuel + 1, read => do
      match (← get).rest with
      | [] => return read
      | text :: rest => do
          modify fun reading => { reading with rest }
          if isOperator text then parts fuel (read ++ [.operator text])
          else if text.startsWith "-" && text != "-" then
            parts fuel (read ++ [.primary (← primary text)])
          else throw ("paths must precede expression: " ++ quotedOld text)

/-- Which operators a part of an expression may hold, from the loosest on. -/
inductive Level where
  | list
  | or
  | and
  | unary

abbrev PartM := StateT (List Part) (Except String)

def endsAfter (operator : String) : String :=
  if operator = "(" then
    "invalid expression; expected to find a ')' but didn't see one. Perhaps you need an extra " ++
      "predicate after '('"
  else "expected an expression after '" ++ operator ++ "'"

/-- The complaint about an operator that stands where an expression has to begin, behind
another one. -/
def misplaced (operator before : String) : String :=
  if operator = ")" then
    if before = "(" then "invalid expression; empty parentheses are not allowed."
    else if before = "" then "invalid expression; you have too many ')'"
    else "expected an expression between '" ++ before ++ "' and ')'"
  else
    "invalid expression; you have used a binary operator '" ++ operator ++
      "' with nothing before it."

/-- Reads an expression behind an operator; `fuel` bounds how deep it is nested. -/
def expression : Nat → Level → String → PartM Expression
  | 0, _, _ => throw "invalid expression"
  | fuel + 1, .list, before => do
      let first ← expression fuel .or before
      match ← get with
      | .operator "," :: rest => do
          set rest
          return .both first (← expression fuel .list ",")
      | _ => return first
  | fuel + 1, .or, before => do
      let first ← expression fuel .and before
      match ← get with
      | .operator join :: rest =>
          if join = "-o" || join = "-or" then
            set rest
            return .or first (← expression fuel .or join)
          else return first
      | _ => return first
  | fuel + 1, .and, before => do
      let first ← expression fuel .unary before
      match ← get with
      | [] => return first
      | .operator join :: rest =>
          if join = "-a" || join = "-and" then
            set rest
            return .and first (← expression fuel .and join)
          else if isJoin join || join = ")" then return first
          else return .and first (← expression fuel .and "")
      | .primary _ :: _ => return .and first (← expression fuel .and "")
  | fuel + 1, .unary, before => do
      match ← get with
      | [] => throw (endsAfter before)
      | .primary primary :: rest => do
          set rest
          return .primary primary
      | .operator operator :: rest => do
          set rest
          if isNegation operator then return .not (← expression fuel .unary operator)
          else if operator = "(" then
            let inner ← expression fuel .list "("
            match ← get with
            | .operator ")" :: rest => do
                set rest
                return inner
            | _ =>
                throw ("invalid expression; I was expecting to find a ')' somewhere but did not " ++
                  "see one.")
          else throw (misplaced operator before)

def ofWords (words : List String) (walk : Walk) : Except String (Expression × Walk) := do
  if words.isEmpty then return (.primary (.constant true), walk)
  let (read, reading) ← (parts words.length []).run { rest := words, walk }
  let (whole, rest) ← (expression (read.length * 4 + 8) .list "").run read
  if rest.isEmpty then return (whole, reading.walk)
  else throw "you have too many ')'"

structure Found where
  path : String
  /-- The path at which the walk began. -/
  root : String
  location : Location
  entry : FileEntry
  depth : Nat

structure Progress where
  ended : Bool := false
  failed : Bool := false
  /-- Whether the directory at hand is passed over. -/
  pruned : Bool := false
  /-- The files that programs are run for at the end. -/
  kept : List (List String × List String) := []

abbrev WalkM := StateT Progress (Program Machine)

def machine {α : Type} (program : Program Machine α) : WalkM α :=
  StateT.lift program

def blame (call : ToolCall) (text : String) : WalkM Unit := do
  machine (complain call text)
  modify fun progress => { progress with failed := true }

def lowered (caseless : Bool) (text : String) : String :=
  if caseless then String.ofList (text.toList.map Char.toLower) else text

def accepts (pattern text : String) (caseless : Bool) : Bool :=
  Shell.Pattern.test (Shell.lettersOf (lowered caseless pattern) false false)
    (lowered caseless text)

def letterOf (entry : FileEntry) : Char :=
  let letter := kindLetter entry
  if letter == '-' then 'f' else letter

def shown (found : Found) : Nat → List Char → String
  | 0, _ => ""
  | fuel + 1, chars =>
      match chars with
      | '\\' :: letter :: rest =>
          let text := match letter with
            | 'n' => "\n"
            | 't' => "\t"
            | '0' => "\x00"
            | '\\' => "\\"
            | c => "\\" ++ String.singleton c
          text ++ shown found fuel rest
      | '%' :: letter :: rest =>
          let text := match letter with
            | 'p' => found.path
            | 'f' => lastPart found.path
            | 'h' => (above? found.path).getD "."
            | 'P' => ((found.path.drop found.root.length).dropWhile (· == '/')).toString
            | 'H' => found.root
            | 's' => toString (sizeOf found.entry)
            | 'm' => String.ofList (Nat.toDigits 8 (modeOf found.entry))
            | 'M' => modeLetters found.entry
            | 'y' => String.singleton (letterOf found.entry)
            | 'd' => toString found.depth
            | 'l' => match found.entry with
              | .link target => Text.spelled target
              | _ => ""
            | '%' => "%"
            | c => "%" ++ String.singleton c
          text ++ shown found fuel rest
      | c :: rest => String.singleton c ++ shown found fuel rest
      | [] => ""

def unitsOf (entry : FileEntry) (unit : Nat) : Nat :=
  (sizeOf entry + unit - 1) / unit

/-- How new a file is: the later it was made, the more. -/
def ageOf : FileEntry → Nat
  | .file id _ _ => id
  | .database id _ => id
  | _ => 0

def discard (call : ToolCall) (found : Found) : WalkM Bool := do
  let result ← machine (match found.entry with
    | .directory => if found.path = "." then pure (.ok ()) else removeDirectory found.path
    | _ => unlink found.path)
  match result with
  | .ok () => return true
  | .error fault => do
      blame call ("cannot delete " ++ quoted found.path ++ ": " ++ fault.reason)
      return false

/-- Whether a part of an expression holds for a file; deeds are done. -/
def decide (call : ToolCall) (found : Found) : Primary → WalkM Bool
  | .name pattern caseless => return accepts pattern (lastPart found.path) caseless
  | .path pattern caseless => return accepts pattern found.path caseless
  | .target pattern => return match found.entry with
    | .link target => accepts pattern (Text.spelled target) false
    | _ => false
  | .regex regex => return regex.test { chars := found.path.toList.toArray, folded := false }
  | .kind letters => return letters.contains (letterOf found.entry)
  | .empty => do
      match found.entry with
      | .directory => return (← machine (Machine.call (.children found.location))).isEmpty
      | entry => return letterOf entry == 'f' && sizeOf entry = 0
  | .size bound unit => return bound.holds (unitsOf found.entry unit)
  | .newer age => return age < ageOf found.entry
  | .mode how bits =>
      let mode := modeOf found.entry
      return match how with
        | none => mode = bits
        | some '-' => mode &&& bits = bits
        | some _ => bits = 0 || mode &&& bits != 0
  | .constant value => return value
  | .print ending => do
      machine (Tool.print call (found.path ++ ending))
      return true
  | .format format => do
      machine (Tool.print call (shown found (format.length + 1) format))
      return true
  | .delete => discard call found
  | .prune => do
      modify fun progress => { progress with pruned := true }
      return true
  | .quit => do
      modify fun progress => { progress with ended := true }
      return true
  | .run argv => do
      let status ← machine (runOther call quoted
        (argv.map fun part => part.replace hole found.path))
      return status == success
  | .runTogether argv => do
      modify fun progress =>
        let files := (progress.kept.lookup argv).getD []
        let others := progress.kept.filter fun e => e.1 != argv
        { progress with kept := others ++ [(argv, files ++ [found.path])] }
      return true

def value (call : ToolCall) (found : Found) : Expression → WalkM Bool
  | .primary primary => decide call found primary
  | .not operand => do
      let value ← value call found operand
      return !value
  | .and first second => do
      if ← value call found first then
        if (← get).ended then return true else value call found second
      else return false
  | .or first second => do
      if ← value call found first then return true
      else if (← get).ended then return true
      else value call found second
  | .both first second => do
      let _ ← value call found first
      if (← get).ended then return true else value call found second

/-- Judges a file, unless it is too near to the top. -/
def judge (call : ToolCall) (walk : Walk) (whole : Expression) (found : Found) : WalkM Unit := do
  if walk.least ≤ found.depth && !(← get).ended then
    let _ ← value call found whole

def visit (call : ToolCall) (walk : Walk) (whole : Expression) :
    Nat → String → String → Nat → WalkM Unit
  | 0, _, _, _ => return
  | fuel + 1, root, path, depth => do
      if (← get).ended then return
      match ← machine (inspect path walk.follows) with
      | .error fault => blame call (quoted path ++ ": " ++ fault.reason)
      | .ok (location, entry) => do
          let found : Found := { path, root, location, entry, depth }
          modify fun progress => { progress with pruned := false }
          unless walk.bottomUp do judge call walk whole found
          let passed := (← get).pruned && !walk.bottomUp
          let goesOn := entry == .directory && !passed && walk.most.all (depth < ·)
          if goesOn then
            let names ← machine (namesIn location)
            names.forM fun name => visit call walk whole fuel root (under path name) (depth + 1)
          if walk.bottomUp then judge call walk whole found

/-- Puts the age of the file in the place of its name after `-newer`. -/
def withAges (call : ToolCall) : List String → Program Machine (List String)
  | "-newer" :: path :: rest => do
      match ← inspect path true with
      | .error fault => refuse call 1 (quoted path ++ ": " ++ fault.reason)
      | .ok (_, entry) => do
          let rest ← withAges call rest
          return "-newer" :: toString (ageOf entry) :: rest
  | word :: rest => do
      let rest ← withAges call rest
      return word :: rest
  | [] => return []

def isExpression (text : String) : Bool :=
  (text.startsWith "-" && text != "-") || ["(", "!"].contains text

def program : Tool := fun call => do
  let leading := call.arguments.takeWhile fun text => ["-H", "-L", "-P"].contains text
  let arguments := call.arguments.drop leading.length
  let paths := arguments.takeWhile fun text => !isExpression text
  let words ← withAges call (arguments.drop paths.length)
  match ofWords words { follows := leading.getLast? == some "-L" } with
  | .error reason => refuse call 1 reason
  | .ok (whole, walk) => do
      let whole := if walk.acts then whole else .and whole (.primary (.print "\n"))
      let roots := if paths.isEmpty then ["."] else paths
      let walkAll : WalkM Unit := roots.forM fun root => visit call walk whole depthMax root root 0
      let ((), progress) ← walkAll.run {}
      let codes ← progress.kept.mapM fun (argv, files) => runOther call quoted (argv ++ files)
      return codeOf (!progress.failed && codes.all (· == success))

end Handoff.Tool.Find
