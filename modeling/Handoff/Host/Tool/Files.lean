import Handoff.Host.Tool.Basic
/-!
# Making and removing files

The tools that make files, directories and links, remove them, and set their
permissions.
-/

namespace Handoff.Tool

def spoken (path : String) : Path :=
  ⟨Text.unspelled path⟩

def makeDirectory (path : String) : Program Machine (Except OsFault Unit) :=
  Machine.call (.file (.makeDir (spoken path)))

def removeDirectory (path : String) : Program Machine (Except OsFault Unit) :=
  Machine.call (.removeDir (Text.unspelled path))

def unlink (path : String) : Program Machine (Except OsFault Unit) :=
  Machine.call (.file (.remove (spoken path)))

def isDirectory (path : String) : Program Machine Bool :=
  Machine.call (.file (.isDir (spoken path)))

/-- What stands at a path; a link at its end is not followed. -/
def entryAt (path : String) : Program Machine (Except OsFault (Location × FileEntry)) :=
  inspect path false

def cannot (deed path : String) (fault : OsFault) : String :=
  deed ++ " " ++ quoted path ++ ": " ++ fault.reason

def touchOne (call : ToolCall) (given : List GivenOption) (path : String) :
    Program Machine Bool := do
  if path = "-" then return true
  let kept := has given 'c' || has given 'h'
  let made ← if kept then pure (Except.error OsFault.isDirectory)
    else openFile path OpenMode.change
  match made with
  | .ok descriptor => do
      Machine.call (.close descriptor)
      return true
  | .error .isDirectory => do
      match ← inspect path true with
      | .ok _ => return true
      | .error fault => do
          if kept && fault = .notFound then return true
          complain call (cannot "setting times of" path fault)
          return false
  | .error fault => do
      complain call (cannot "cannot touch" path fault)
      return false

def each (operation : String → Program Machine Bool) : List String → Program Machine Bool
  | [] => return true
  | path :: rest => do
      let ok ← operation path
      let others ← each operation rest
      return ok && others

def touch : Tool := fun call => do
  let (given, operands) ← options call
    { plain := "acfhm", valued := "drt", long := [("no-create", 'c'), ("date", 'd'),
        ("reference", 'r'), ("no-dereference", 'h')] }
  if operands.isEmpty then misuse call 1 "missing file operand"
  return codeOf (← each (touchOne call given) operands)

def stages (path : String) : List String :=
  let step (stages : List String × String) (piece : String) : List String × String :=
    let (found, before) := stages
    let here := if before = "" then piece else before ++ "/" ++ piece
    if piece = "" then (found, if before = "" then "/" else before)
    else if before = "/" then (found ++ ["/" ++ piece], "/" ++ piece)
    else (found ++ [here], here)
  ((path.splitOn "/").foldl step ([], "")).1

def makeStages (call : ToolCall) (talks : Bool) : List String → Program Machine Bool
  | [] => return true
  | path :: rest => do
      let last := rest.isEmpty
      match ← makeDirectory path with
      | .ok () => do
          if talks then
            print call (call.name ++ ": created directory " ++ quoted path ++ "\n")
          makeStages call talks rest
      | .error fault => do
          if fault = .alreadyExists && (← isDirectory path) then makeStages call talks rest
          else
            let fault := if fault = .alreadyExists && !last then .notDirectory else fault
            complain call (cannot "cannot create directory" path fault)
            return false

def octal? (text : String) : Option Nat :=
  let value := text.toList.foldl
    (fun value c => value.bind fun value =>
      if '0' ≤ c ∧ c ≤ '7' then some (value * 8 + (c.toNat - 48)) else none) (some 0)
  if text.isEmpty then none else value.filter (· < 0o10000)

/-- The bits of the permissions that letters such as `ug` or `rx` stand for. -/
def classBits (letters : List Char) : Nat :=
  letters.foldl
    (fun bits c => bits ||| (match c with
      | 'u' => 0o4700
      | 'g' => 0o2070
      | 'o' => 0o1007
      | _ => 0o7777)) 0

def rightBits (directory : Bool) (mode : Nat) (letters : List Char) : Nat :=
  letters.foldl
    (fun bits c => bits ||| (match c with
      | 'r' => 0o444
      | 'w' => 0o222
      | 'x' => 0o111
      | 'X' => if directory || mode &&& 0o111 != 0 then 0o111 else 0
      | 's' => 0o6000
      | 't' => 0o1000
      | 'u' => (mode / 64 % 8) * 0o111
      | 'g' => (mode / 8 % 8) * 0o111
      | _ => (mode % 8) * 0o111)) 0

/-- One change of permissions: for whom, how, and which. -/
structure ModeChange where
  who : List Char
  sign : Char
  rights : List Char

def withheld : Nat := 0o022

def ModeChange.apply (directory : Bool) (mode : Nat) (change : ModeChange) : Nat :=
  let whom := if change.who.isEmpty then 0o7777 else classBits change.who
  let rights := rightBits directory mode change.rights &&& whom
  let rights := if change.who.isEmpty then rights &&& (0o7777 - withheld) else rights
  match change.sign with
  | '+' => mode ||| rights
  | '-' => mode - (mode &&& rights)
  | _ => (mode - (mode &&& whom &&& 0o777)) ||| rights

/-- The changes after one letter that says for whom; `fuel` bounds their number. -/
def modeActions (who : List Char) : Nat → List Char → Option (List ModeChange)
  | _, [] => some []
  | 0, _ => none
  | fuel + 1, sign :: rest =>
      if "+-=".toList.contains sign then
        let rights := rest.takeWhile fun c => "rwxXstugo".toList.contains c
        (modeActions who fuel (rest.drop rights.length)).map ({ who, sign, rights } :: ·)
      else none

inductive ModeText where
  | exact (mode : Nat)
  | changes (list : List ModeChange)

/-- The change of permissions that a text such as `755` or `u+x,g-w` writes. -/
def modeText? (text : String) : Option ModeText :=
  match octal? text with
  | some mode => some (.exact mode)
  | none =>
      let clause (part : String) : Option (List ModeChange) :=
        let letters := part.toList
        let who := letters.takeWhile fun c => "ugoa".toList.contains c
        let rest := letters.drop who.length
        if rest.isEmpty then none else modeActions who rest.length rest
      ((text.splitOn ",").mapM clause).map fun parts => .changes parts.flatten

def ModeText.apply (directory : Bool) (mode : Nat) : ModeText → Nat
  | .exact mode => mode
  | .changes list => list.foldl (ModeChange.apply directory) mode

def makeDirectories : Tool := fun call => do
  let (given, operands) ← options call
    { plain := "pv", valued := "m", long := [("parents", 'p'), ("verbose", 'v'), ("mode", 'm')] }
  if operands.isEmpty then missingOperand call
  match valueOf? given 'm' with
  | some mode => if (modeText? mode).isNone then refuse call 1 ("invalid mode " ++ quoted mode)
  | none => pure ()
  let talks := has given 'v'
  let one (path : String) : Program Machine Bool := do
    if has given 'p' then
      if path = "" then
        complain call (cannot "cannot create directory" path .notFound)
        return false
      makeStages call talks (stages path)
    else
      match ← makeDirectory path with
      | .ok () => do
          if talks then print call (call.name ++ ": created directory " ++ quoted path ++ "\n")
          return true
      | .error fault => do
          complain call (cannot "cannot create directory" path fault)
          return false
  return codeOf (← each one operands)

def above? (path : String) : Option String :=
  let pieces := path.splitOn "/"
  let kept := pieces.dropLast
  let parent := "/".intercalate kept
  if kept.isEmpty || parent = "" then none else some parent

/-- Removes the directories above a path that has gone, as far as they are empty. -/
def removeAbove (call : ToolCall) (talks forgives : Bool) : Nat → String → Program Machine Bool
  | 0, _ => return true
  | fuel + 1, path => do
      match above? path with
      | none => return true
      | some parent => do
          if talks then
            print call (call.name ++ ": removing directory, " ++ quoted parent ++ "\n")
          match ← removeDirectory parent with
          | .ok () => removeAbove call talks forgives fuel parent
          | .error fault => do
              if forgives && fault = .notEmpty then return true
              complain call (cannot "failed to remove directory" parent fault)
              return false

def removeDirectories : Tool := fun call => do
  let (given, operands) ← options call
    { plain := "pvI", long := [("parents", 'p'), ("verbose", 'v'),
        ("ignore-fail-on-non-empty", 'I')] }
  if operands.isEmpty then missingOperand call
  let talks := has given 'v'
  let forgives := has given 'I'
  let one (path : String) : Program Machine Bool := do
    if talks then print call (call.name ++ ": removing directory, " ++ quoted path ++ "\n")
    match ← removeDirectory path with
    | .ok () =>
        if has given 'p' then removeAbove call talks forgives path.length path else return true
    | .error fault => do
        if forgives && fault = .notEmpty then return true
        complain call (cannot "failed to remove" path fault)
        return false
  return codeOf (← each one operands)

def depthMax : Nat := 4096

structure Removal where
  recursive : Bool
  /-- Whether an empty directory may be removed. -/
  emptyDirs : Bool
  /-- Whether a missing file is no fault. -/
  force : Bool
  talks : Bool

/-- Asks whether something is to be removed; only the input can say yes. -/
def confirmed (call : ToolCall) (question : String) : Program Machine Bool := do
  remark (call.name ++ ": " ++ question ++ "? ")
  match ← Machine.call (.read 0 chunk) with
  | .ok answer => return (Text.byteText answer).startsWith "y"
  | .error _ => return false

def removeTree (call : ToolCall) (way : Removal) : Nat → String → Program Machine Bool
  | 0, _ => return true
  | depth + 1, path => do
      let refused (fault : OsFault) : Program Machine Bool := do
        complain call (cannot "cannot remove" path fault)
        return false
      let gone (what : String) : Program Machine Bool := do
        if way.talks then print call ("removed " ++ what ++ quoted path ++ "\n")
        return true
      let empty : Program Machine Bool := do
        match ← removeDirectory path with
        | .ok () => gone "directory "
        | .error fault => refused fault
      match ← entryAt path with
      | .error fault =>
          if way.force && (fault = .notFound || fault = .notDirectory) then return true
          else refused fault
      | .ok (location, .directory) =>
          if !way.recursive then
            if way.emptyDirs then empty else refused .isDirectory
          else
            let names ← namesIn location
            let all ← each (removeTree call way depth) (names.map (under path))
            if all then empty else return false
      | .ok _ =>
          match ← unlink path with
          | .ok () => gone ""
          | .error fault => refused fault

def remove : Tool := fun call => do
  let (given, operands) ← options call
    { plain := "dfiIrRv", long := [("recursive", 'r'), ("force", 'f'), ("dir", 'd'),
        ("verbose", 'v'), ("no-preserve-root", 'N')] }
  let force := has given 'f'
  if operands.isEmpty then
    if force then return success else missingOperand call
  let way : Removal :=
    { recursive := has given 'r' || has given 'R', emptyDirs := has given 'd', force
      talks := has given 'v' }
  let one (path : String) : Program Machine Bool := do
    let name := lastPart path
    if way.recursive && (name = "." || name = "..") then
      complain call ("refusing to remove '.' or '..' directory: skipping " ++ quoted path)
      return false
    else if way.recursive && name = "/" then
      complain call "it is dangerous to operate recursively on '/'"
      complain call "use --no-preserve-root to override this failsafe"
      return false
    else if has given 'i' then
      match ← entryAt path with
      | .ok (_, entry) => do
          let what := match entry with
            | .directory => "directory"
            | .link _ => "symbolic link"
            | entry => if (FileTree.contentOf entry).isEmpty then "regular empty file"
                else "regular file"
          let sure ← confirmed call ("remove " ++ what ++ " " ++ quoted path)
          if sure then removeTree call way depthMax path else return true
      | .error _ => removeTree call way depthMax path
    else removeTree call way depthMax path
  return codeOf (← each one operands)

/-- Sets the permissions of what is at a path, and with `recursive` of all below it. -/
def setModes (call : ToolCall) (recursive : Bool) (mode : ModeText) :
    Nat → String → Program Machine Bool
  | 0, _ => return true
  | depth + 1, path => do
      match ← inspect path true with
      | .error fault => do
          complain call (cannot "cannot access" path fault)
          return false
      | .ok (location, .directory) => do
          if recursive then
            let names ← namesIn location
            each (setModes call recursive mode depth) (names.map (under path))
          else return true
      | .ok (_, .file _ _ before) => do
          match ← Machine.call (.setMode (Text.unspelled path) (mode.apply false before)) with
          | .ok () => return true
          | .error fault => do
              complain call (cannot "changing permissions of" path fault)
              return false
      | .ok _ => return true

def takesAway (argument : String) : Bool :=
  match argument.toList with
  | '-' :: c :: _ => "rwxXstugoa,+=01234567".toList.contains c
  | _ => false

def changeModes : Tool := fun call => do
  -- A change such as `-x` looks like options.
  let removal := call.arguments.find? takesAway
  let others := match removal with
    | some text => call.arguments.erase text
    | none => call.arguments
  let (given, operands) ← options { call with arguments := others }
    { plain := "Rcfv", long := [("recursive", 'R'), ("quiet", 'f'), ("silent", 'f')] }
  let words := removal.toList ++ operands
  match words with
  | [] => missingOperand call
  | [text] => misuse call 1 ("missing operand after " ++ quoted text)
  | text :: paths =>
      match modeText? text with
      | none => misuse call 1 ("invalid mode: " ++ quoted text)
      | some mode => return codeOf (← each (setModes call (has given 'R') mode depthMax) paths)

structure Linking where
  symbolic : Bool
  force : Bool
  talks : Bool

def linkOne (call : ToolCall) (way : Linking) (target path : String) : Program Machine Bool := do
  let said : Program Machine Bool := do
    if way.talks then
      print call (quoted path ++ (if way.symbolic then " -> " else " => ") ++ quoted target ++ "\n")
    return true
  let refused (fault : OsFault) : Program Machine Bool := do
    complain call (
      if way.symbolic then
        if target = "" then
          "failed to create symbolic link " ++ quoted path ++ " -> " ++ quoted target ++ ": " ++
            fault.reason
        else cannot "failed to create symbolic link" path fault
      else if fault = .alreadyExists then cannot "failed to create hard link" path fault
      else
        "failed to create hard link " ++ quoted path ++ " => " ++ quoted target ++ ": " ++
          fault.reason)
    return false
  let attempt : Program Machine (Except OsFault Unit) :=
    if way.symbolic then Machine.call (.makeLink (Text.unspelled path) (Text.unspelled target))
    else Machine.call (.addName (Text.unspelled target) (Text.unspelled path))
  let source ← if way.symbolic then pure none else
    match ← inspect target true with
    | .ok found => pure (some (Except.ok found))
    | .error fault => pure (some (.error fault))
  match source with
  | some (.error fault) => do
      complain call (cannot "failed to access" target fault)
      return false
  | some (.ok (_, .directory)) => do
      complain call (target ++ ": hard link not allowed for directory")
      return false
  | _ =>
      match ← attempt with
      | .ok () => said
      | .error .alreadyExists =>
          if !way.force then refused .alreadyExists
          else
            match source, ← entryAt path with
            | some (.ok (there, _)), .ok (here, _) =>
                if there == here then do
                  complain call (quoted target ++ " and " ++ quoted path ++ " are the same file")
                  return false
                else replace attempt refused said
            | _, .ok (_, .directory) => do
                complain call (quoted path ++ ": cannot overwrite directory")
                return false
            | _, _ => replace attempt refused said
      | .error fault => refused fault
where
  /-- Makes the link in place of what is there. -/
  replace (attempt : Program Machine (Except OsFault Unit))
      (refused : OsFault → Program Machine Bool) (said : Program Machine Bool) :
      Program Machine Bool := do
    match ← unlink path with
    | .error fault => refused fault
    | .ok () =>
        match ← attempt with
        | .ok () => said
        | .error fault => refused fault

/-- Where several files go: the directory, and what goes there. -/
inductive Destination where
  /-- Each of the files goes into a directory. -/
  | directory (path : String) (sources : List String)
  | single (source target : String)

/-- Where the operands of a tool such as `cp` say that files go. -/
def destinationOf (call : ToolCall) (given : List GivenOption) (operands : List String)
    (isPlace : String → Program Machine Bool) : Program Machine Destination := do
  match valueOf? given 't', operands.reverse with
  | some directory, _ => do
      if operands.isEmpty then misuse call 1 "missing file operand"
      match ← inspect directory true with
      | .ok (_, .directory) => return .directory directory operands
      | .ok _ => refuse call 1 ("target directory " ++ quoted directory ++ ": " ++
          OsFault.notDirectory.reason)
      | .error fault =>
          refuse call 1 ("target directory " ++ quoted directory ++ ": " ++ fault.reason)
  | none, [] => misuse call 1 "missing file operand"
  | none, [only] => misuse call 1 ("missing destination file operand after " ++ quoted only)
  | none, [target, source] => do
      if !has given 'T' && (← isPlace target) then return .directory target [source]
      else return .single source target
  | none, last :: others => do
      if has given 'T' then
        misuse call 1 ("extra operand " ++ quoted (operands[2]?.getD ""))
      else if ← isPlace last then return .directory last others.reverse
      else
        match ← inspect last true with
        | .ok _ => refuse call 1 ("target " ++ quoted last ++ ": " ++ OsFault.notDirectory.reason)
        | .error fault => refuse call 1 ("target " ++ quoted last ++ ": " ++ fault.reason)

def link : Tool := fun call => do
  let (given, operands) ← options call
    { plain := "sfnTvLPri", valued := "tS", long := [("symbolic", 's'), ("force", 'f'),
        ("no-dereference", 'n'), ("no-target-directory", 'T'), ("verbose", 'v'),
        ("target-directory", 't'), ("relative", 'r')] }
  let way : Linking :=
    { symbolic := has given 's', force := has given 'f', talks := has given 'v' }
  let isPlace (path : String) : Program Machine Bool := do
    if has given 'n' then
      match ← entryAt path with
      | .ok (_, .directory) => return true
      | _ => return false
    else isDirectory path
  let operands := if operands.length = 1 && !has given 't' then operands ++ ["."] else operands
  match ← destinationOf call given operands isPlace with
  | .directory directory sources =>
      let one (source : String) : Program Machine Bool :=
        let name := lastPart source
        linkOne call way source (if directory = "." then "./" ++ name else under directory name)
      return codeOf (← each one sources)
  | .single source target => return codeOf (← linkOne call way source target)

def readLinks : Tool := fun call => do
  let (given, operands) ← options call
    { plain := "femnqsvz", long := [("canonicalize", 'f'), ("canonicalize-existing", 'e'),
        ("canonicalize-missing", 'm'), ("no-newline", 'n'), ("quiet", 'q'), ("verbose", 'v')] }
  if operands.isEmpty then missingOperand call
  let ending := if has given 'n' && operands.length = 1 then "" else "\n"
  let whole := has given 'f' || has given 'e' || has given 'm'
  let one (path : String) : Program Machine Bool := do
    let refused (fault : OsFault) : Program Machine Bool := do
      if has given 'v' then complain call (named path ++ ": " ++ fault.reason)
      return false
    if whole then
      match ← inspect path true with
      | .ok (location, _) => do
          print call (Text.spelled location.text ++ ending)
          return true
      | .error .notFound => do
          let parent := match above? path with
            | some parent => parent
            | none => if path.startsWith "/" then "/" else "."
          match ← inspect parent true with
          | .ok (location, _) =>
              if has given 'e' then refused .notFound
              else do
                print call (under (Text.spelled location.text) (lastPart path) ++ ending)
                return true
          | .error fault => refused fault
      | .error fault => refused fault
    else
      match ← entryAt path with
      | .ok (_, .link target) => do
          print call (Text.spelled target ++ ending)
          return true
      | .ok _ => refused .invalidArgument
      | .error fault => refused fault
  return codeOf (← each one operands)

def realPaths : Tool := fun call => do
  let (given, operands) ← options call
    { plain := "emqsPLz", long := [("canonicalize-existing", 'e'), ("canonicalize-missing", 'm'),
        ("quiet", 'q'), ("no-symlinks", 's')] }
  if operands.isEmpty then missingOperand call
  let one (path : String) : Program Machine Bool := do
    let refused (fault : OsFault) : Program Machine Bool := do
      unless has given 'q' do complain call (named path ++ ": " ++ fault.reason)
      return false
    match ← inspect path true with
    | .ok (location, _) => do
        print call (Text.spelled location.text ++ "\n")
        return true
    | .error .notFound => do
        let parent := match above? path with
          | some parent => parent
          | none => if path.startsWith "/" then "/" else "."
        match ← inspect parent true with
        | .ok (location, _) =>
            if has given 'e' || path = "" then refused .notFound
            else do
              print call (under (Text.spelled location.text) (lastPart path) ++ "\n")
              return true
        | .error fault => refused fault
    | .error fault => refused fault
  return codeOf (← each one operands)

end Handoff.Tool
