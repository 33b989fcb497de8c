import Handoff.Host.Tool.Files
/-!
# Listing files

The tools that show what is in directories and what is known about files.
-/

namespace Handoff.Tool

def sizeOf : FileEntry → Nat
  | .directory => 4096
  | .link target => target.utf8ByteSize
  | .device _ => 0
  | entry => (FileTree.contentOf entry).size

def modeOf : FileEntry → Nat
  | .directory => 0o755
  | .link _ => 0o777
  | .file _ _ mode => mode
  | .tool _ => 0o755
  | .device _ => 0o666
  | .database _ _ => FileTree.plainMode

def kindLetter : FileEntry → Char
  | .directory => 'd'
  | .link _ => 'l'
  | .device _ => 'c'
  | _ => '-'

/-- The kind of an entry and its permissions, such as `-rw-r--r--`. -/
def modeLetters (entry : FileEntry) : String :=
  let mode := modeOf entry
  let triple (shift : Nat) : List Char :=
    let bits := mode / shift % 8
    [if bits &&& 4 != 0 then 'r' else '-', if bits &&& 2 != 0 then 'w' else '-',
      if bits &&& 1 != 0 then 'x' else '-']
  String.ofList (kindLetter entry :: triple 64 ++ triple 8 ++ triple 1)

structure Listed where
  name : String
  path : String
  location : Location
  entry : FileEntry

def kindMark (given : List GivenOption) (entry : FileEntry) : String :=
  match entry with
  | .directory => if has given 'F' || has given 'p' then "/" else ""
  | .link _ => if has given 'F' then "@" else ""
  | entry => if has given 'F' && modeOf entry &&& 0o111 != 0 && kindLetter entry != 'c' then "*"
      else ""

def rightIn (width n : Nat) : String :=
  let digits := toString n
  String.ofList (List.replicate (width - digits.length) ' ') ++ digits

def blocksOf (entry : FileEntry) : Nat :=
  match entry with
  | .directory => 4
  | .link _ => 0
  | entry => (sizeOf entry + 4095) / 4096 * 4

def shownTime : String := "Jan  1 00:00"

def listLines (given : List GivenOption) (entries : List Listed) : List String :=
  let width := (entries.map fun e => (toString (sizeOf e.entry)).length).foldl max 0
  let blockWidth := (entries.map fun e => (toString (blocksOf e.entry)).length).foldl max 0
  entries.map fun e =>
    let name := if has given 'Q' then "\"" ++ e.name ++ "\"" else e.name
    let blocks := if has given 's' then rightIn blockWidth (blocksOf e.entry) ++ " " else ""
    if has given 'l' then
      let target := match e.entry with
        | .link target => " -> " ++ Text.spelled target
        | entry => kindMark given entry
      let links := match e.entry with
        | .directory => "2"
        | _ => "1"
      let owner := if has given 'n' then " 0 0 " else " root root "
      blocks ++ modeLetters e.entry ++ " " ++ links ++ owner ++ rightIn width (sizeOf e.entry) ++
        " " ++ shownTime ++ " " ++ name ++ target
    else blocks ++ name ++ kindMark given e.entry

def inOrder (given : List GivenOption) (entries : List Listed) : List Listed :=
  let byName := entries.mergeSort fun a b => !(b.name < a.name)
  let ordered := if has given 'S' then
      byName.mergeSort fun a b => sizeOf b.entry ≤ sizeOf a.entry
    else byName
  if has given 'r' then ordered.reverse else ordered

def printEntries (call : ToolCall) (given : List GivenOption) (withTotal : Bool)
    (entries : List Listed) : Program Machine Unit := do
  let lines := listLines given entries
  let total := if withTotal && (has given 'l' || has given 's') then
      "total " ++ toString ((entries.map fun e => blocksOf e.entry).foldl (· + ·) 0) ++ "\n"
    else ""
  if has given 'm' then
    print call (total ++ ", ".intercalate lines ++ (if lines.isEmpty then "" else "\n"))
  else print call (total ++ String.join (lines.map (· ++ "\n")))

def entriesIn (given : List GivenOption) (path : String) (location : Location)
    (children : List (FileName × FileEntry)) : List Listed :=
  let all := children.map fun (name, entry) =>
    let text := match name with
      | .named text => Text.spelled text
      | .undecodable bytes => Text.byteText ⟨bytes.toArray⟩
    { name := text, path := under path text, location := location ++ [name], entry : Listed }
  let shown := if has given 'a' || has given 'A' then all
    else all.filter fun e => !e.name.startsWith "."
  if has given 'a' && !has given 'A' then
    { name := ".", path, location, entry := .directory } ::
      { name := "..", path, location := location.dropLast, entry := .directory } :: shown
  else shown

def listDirectories (call : ToolCall) (given : List GivenOption) :
    Nat → Bool → Bool → List Listed → Program Machine Unit
  | 0, _, _, _ => return
  | _, _, _, [] => return
  | fuel + 1, titled, first, directory :: rest => do
      let entries := inOrder given (entriesIn given directory.path directory.location
        (← Machine.call (.children directory.location)))
      unless first do print call "\n"
      if titled then print call (directory.path ++ ":\n")
      printEntries call given true entries
      let below := if has given 'R' then
          entries.filter fun e => e.name != "." && e.name != ".." && e.entry == .directory
        else []
      listDirectories call given fuel titled false (below ++ rest)

def listingMax : Nat := 1000000

def listFiles : Tool := fun call => do
  let (given, operands) ← options call
    { plain := "1aAbBcCdfFghHiklLmnNopqQrRsStuUvxXZ", valued := "ITw", code := 2
      long := [("all", 'a'), ("almost-all", 'A'), ("directory", 'd'), ("recursive", 'R'),
        ("reverse", 'r'), ("classify", 'F'), ("quote-name", 'Q')] }
  let given := if has given 'n' || has given 'g' || has given 'o' then ('l', "") :: given else given
  let operands := if operands.isEmpty then ["."] else operands
  let one (path : String) : Program Machine (Option Listed) := do
    let follow := !has given 'l' && !has given 'd' && !has given 'F'
    let found ← match ← inspect path true with
      | .ok (location, .directory) =>
          if follow || (← isItself path) then pure (Except.ok (location, FileEntry.directory))
          else entryAt path
      | _ => entryAt path
    match found with
    | .ok (location, entry) => return some { name := path, path, location, entry }
    | .error fault => do
        complain call (cannot "cannot access" path fault)
        return none
  let found ← operands.mapM one
  let listed := found.filterMap id
  let isOpened (e : Listed) : Bool := e.entry == .directory && !has given 'd'
  let files := inOrder given (listed.filter fun e => !isOpened e)
  let directories := inOrder given (listed.filter isOpened)
  unless files.isEmpty do printEntries call given false files
  let titled := 1 < operands.length || has given 'R'
  listDirectories call given listingMax titled files.isEmpty directories
  return exited (if found.all Option.isSome then 0 else 2)
where
  /-- Whether the path names a directory itself and not a link to it. -/
  isItself (path : String) : Program Machine Bool := do
    match ← entryAt path with
    | .ok (_, .directory) => return true
    | _ => return path.endsWith "/"

def kindName : FileEntry → String
  | .directory => "directory"
  | .link _ => "symbolic link"
  | .device _ => "character special file"
  | entry => if sizeOf entry = 0 then "regular empty file" else "regular file"

/-- What a format of `stat` shows for a file. -/
def statText (path : String) (entry : FileEntry) : Nat → List Char → String
  | 0, _ => ""
  | fuel + 1, chars =>
      match chars with
      | '%' :: letter :: rest =>
          let text := match letter with
            | 'n' => path
            | 's' => toString (sizeOf entry)
            | 'a' => String.ofList (Nat.toDigits 8 (modeOf entry))
            | 'A' => modeLetters entry
            | 'F' => kindName entry
            | 'N' => match entry with
              | .link target => quoted path ++ " -> " ++ quoted (Text.spelled target)
              | _ => quoted path
            | 'h' => "1"
            | 'u' => "0"
            | 'g' => "0"
            | 'U' => "root"
            | 'G' => "root"
            | '%' => "%"
            | _ => "?"
          text ++ statText path entry fuel rest
      | c :: rest => String.singleton c ++ statText path entry fuel rest
      | [] => ""

def describeFiles : Tool := fun call => do
  let (given, operands) ← options call
    { plain := "Lftp", valued := "cP", long := [("format", 'c'), ("printf", 'P'),
        ("dereference", 'L'), ("terse", 't')] }
  if operands.isEmpty then missingOperand call
  let (format, ending) := match valueOf? given 'P' with
    | some format => ((format.replace "\\n" "\n").replace "\\t" "\t", "")
    | none => ((valueOf? given 'c').getD "  File: %n\n  Size: %s\nAccess: (%a/%A)", "\n")
  let one (path : String) : Program Machine Bool := do
    match ← inspect path (has given 'L') with
    | .ok (_, entry) => do
        print call (statText path entry (format.length + 1) format.toList ++ ending)
        return true
    | .error fault => do
        complain call (cannot "cannot statx" path fault)
        return false
  return codeOf (← each one operands)

/-- The name that is tried for a temporary file: the marks of the pattern become letters. -/
def temporaryName (template : String) (attempt : Nat) : Option String :=
  let chars := template.toList.reverse
  let tail := chars.takeWhile (· != 'X')
  let marks := (chars.drop tail.length).takeWhile (· == 'X')
  if marks.length < 3 then none
  else
    let letters := (List.range marks.length).map fun place =>
      Char.ofNat (97 + attempt / Nat.pow 26 place % 26)
    some (String.ofList ((chars.drop (tail.length + marks.length)).reverse ++ letters.reverse ++
      tail.reverse))

/-- Makes the first temporary file or directory whose name is free. -/
def makeTemporary (call : ToolCall) (template : String) (directory dry : Bool) :
    Nat → Nat → Program Machine ExitStatus
  | 0, _ => return exited 1
  | fuel + 1, attempt => do
      match temporaryName template attempt with
      | none => refuse call 1 ("too few X's in template " ++ quoted (lastPart template))
      | some path => do
          let made ← if dry then
              match ← entryAt path with
              | .ok _ => pure (Except.error OsFault.alreadyExists)
              | .error _ => pure (.ok ())
            else if directory then makeDirectory path
            else
              match ← openFile path .create with
              | .ok descriptor => do
                  Machine.call (.close descriptor)
                  pure (.ok ())
              | .error fault => pure (.error fault)
          match made with
          | .ok () => do
              print call (path ++ "\n")
              return success
          | .error .alreadyExists => makeTemporary call template directory dry fuel (attempt + 1)
          | .error fault =>
              refuse call 1 ("failed to create " ++ (if directory then "directory" else "file") ++
                " via template " ++ quoted template ++ ": " ++ fault.reason)

def temporaryFile : Tool := fun call => do
  let (given, operands) ← options call
    { plain := "duqt", valued := "p", long := [("directory", 'd'), ("dry-run", 'u'),
        ("tmpdir", 'p'), ("quiet", 'q')] }
  let process ← Machine.call .identify
  let inTmp := operands.isEmpty || has given 't' || has given 'p'
  let name := operands.head?.getD "tmp.XXXXXXXXXX"
  let root := match valueOf? given 'p' with
    | some directory => directory
    | none => (call.env.get? "TMPDIR").getD "/tmp"
  let template := if inTmp then under root name else name
  makeTemporary call template (has given 'd') (has given 'u') readings (process.1 * 31)

/-- The size that a text such as `+3` or `2K` asks for, given the size that there is. -/
def sizeAsked? (text : String) (size : Nat) : Option Nat :=
  let (sign, digits) := match text.toList with
    | c :: rest => if "+-<>/%".toList.contains c then (some c, String.ofList rest) else (none, text)
    | [] => (none, text)
  let amount := natural? digits |>.or
    (match digits.toList.getLast? with
      | some 'K' => (natural? (digits.dropEnd 1).toString).map (· * 1024)
      | some 'M' => (natural? (digits.dropEnd 1).toString).map (· * 1048576)
      | _ => none)
  amount.map fun n => match sign with
    | some '+' => size + n
    | some '-' => size - n
    | some '<' => min size n
    | some '>' => max size n
    | some '/' => if n = 0 then size else size / n * n
    | some '%' => if n = 0 then size else (size + n - 1) / n * n
    | _ => n

def resize (call : ToolCall) (creates : Bool) (sizeFor : Nat → Nat) (path : String) :
    Program Machine Bool := do
  let before ← match ← inspect path true with
    | .ok (_, entry) => pure (some (sizeOf entry))
    | .error _ => pure none
  if before.isNone && !creates then return true
  match ← openFile path OpenMode.change with
  | .error fault => do
      complain call ("cannot open " ++ quoted path ++ " for writing: " ++ fault.reason)
      return false
  | .ok descriptor => do
      let size := sizeFor (before.getD 0)
      let result ← Machine.call (.setSize descriptor size)
      Machine.call (.close descriptor)
      match result with
      | .ok () => return true
      | .error fault => do
          complain call ("failed to truncate " ++ quoted path ++ " at " ++ toString size ++
            " bytes: " ++ fault.reason)
          return false

def truncateFiles : Tool := fun call => do
  let (given, operands) ← options call
    { plain := "co", valued := "sr", long := [("no-create", 'c'), ("size", 's'),
        ("reference", 'r')] }
  let reference ← match valueOf? given 'r' with
    | none => pure none
    | some path =>
        match ← inspect path true with
        | .ok (_, entry) => pure (some (sizeOf entry))
        | .error fault => refuse call 1 (cannot "cannot stat" path fault)
  let text := valueOf? given 's'
  if text.isNone && reference.isNone then
    misuse call 1 "you must specify either '--size' or '--reference'"
  match text with
  | some text => if (sizeAsked? text 0).isNone then refuse call 1 ("Invalid number: " ++ quoted text)
  | none => pure ()
  if operands.isEmpty then misuse call 1 "missing file operand"
  let sizeFor (before : Nat) : Nat :=
    match text with
    | some text => (sizeAsked? text (reference.getD before)).getD before
    | none => reference.getD before
  return codeOf (← each (resize call (!has given 'c') sizeFor) operands)

end Handoff.Tool
