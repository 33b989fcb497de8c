import Handoff.Host.Tool.Files
/-!
# Copying and moving files

The tools that copy files and directories, and that move them.
-/

namespace Handoff.Tool

structure Copying where
  recursive : Bool
  /-- Whether links are followed. -/
  follows : Bool
  /-- Whether files that are there stay as they are. -/
  keeps : Bool
  force : Bool
  /-- Whether the permissions are copied in full. -/
  exact : Bool
  talks : Bool

def copiedBytes (entry : FileEntry) (path : String) :
    Program Machine (Except OsFault ByteArray) :=
  match entry with
  | .tool name => return .ok (Text.bytesOf (Launch.programMark ++ name))
  | _ => readFile (if path = "-" then "./-" else path)

def copiedMode (way : Copying) : FileEntry → Nat
  | .file _ _ mode => if way.exact then mode else mode - (mode &&& withheld)
  | .tool _ => 0o755
  | _ => FileTree.plainMode

def writeCopy (call : ToolCall) (way : Copying) (content : ByteArray) (mode : Nat)
    (isNew : Bool) (target : String) : Program Machine Bool := do
  let refused (fault : OsFault) : Program Machine Bool := do
    let fault := if target.endsWith "/" && fault = .isDirectory then .notDirectory else fault
    complain call (cannot "cannot create regular file" target fault)
    return false
  match ← openFile target .replace with
  | .error fault =>
      if way.force && !isNew then
        match ← unlink target, ← openFile target .replace with
        | .ok (), .ok descriptor => fill descriptor
        | _, _ => refused fault
      else refused fault
  | .ok descriptor => fill descriptor
where
  /-- Fills the file that was opened. -/
  fill (descriptor : Nat) : Program Machine Bool := do
    let written ← Machine.call (.write descriptor content)
    Machine.call (.close descriptor)
    if isNew || way.exact then
      let _ ← Machine.call (.setMode (Text.unspelled target) mode)
    match written with
    | .ok () => return true
    | .error fault => do
        complain call ("error writing " ++ quoted target ++ ": " ++ fault.reason)
        return false

def sayCopied (call : ToolCall) (way : Copying) (source target : String) :
    Program Machine Unit := do
  if way.talks then print call (quoted source ++ " -> " ++ quoted target ++ "\n")

def copyFile (call : ToolCall) (way : Copying) (source target : String) (location : Location)
    (entry : FileEntry) : Program Machine Bool := do
  let there ← inspect target (match entry with | .link _ => false | _ => true)
  let write (isNew : Bool) : Program Machine Bool := do
    match entry with
    | .link text => do
        unless isNew do
          let _ ← unlink target
        match ← Machine.call (.makeLink (Text.unspelled target) text) with
        | .ok () => do
            sayCopied call way source target
            return true
        | .error fault => do
            complain call (cannot "cannot create symbolic link" target fault)
            return false
    | entry =>
        match ← copiedBytes entry source with
        | .error fault => do
            complain call ("cannot open " ++ quoted source ++ " for reading: " ++ fault.reason)
            return false
        | .ok content => do
            let ok ← writeCopy call way content (copiedMode way entry) isNew target
            if ok then sayCopied call way source target
            return ok
  match there with
  | .error _ => do
      match entry, ← entryAt target with
      | .link _, _ => write true
      | _, .ok (_, .link _) => do
          complain call ("not writing through dangling symlink " ++ quoted target)
          return false
      | _, _ => write true
  | .ok (_, .directory) => do
      complain call ("cannot overwrite directory " ++ quoted target ++ " with non-directory")
      return false
  | .ok (other, found) => do
      if other == location || sameFile entry found then
        complain call (quoted source ++ " and " ++ quoted target ++ " are the same file")
        return false
      else if way.keeps then return true
      else write false
where
  /-- Whether two entries are names of one file. -/
  sameFile (a b : FileEntry) : Bool :=
    match a, b with
    | .file id _ _, .file other _ _ => id == other
    | _, _ => false

/-- Copies what is at a path, with all below it.  `copied` is where the whole copy goes:
it is not copied into itself. -/
def copyTree (call : ToolCall) (way : Copying) (top : String × String)
    (copied : Option Location) : Nat → Bool → String → String → Program Machine Bool
  | 0, _, _, _ => return true
  | depth + 1, first, source, target => do
      match ← inspect source way.follows with
      | .error fault => do
          complain call (cannot "cannot stat" source fault)
          return false
      | .ok (location, .directory) => do
          if !way.recursive then
            complain call ("-r not specified; omitting directory " ++ quoted source)
            return false
          else if copied == some location then
            complain call ("cannot copy a directory, " ++ quoted top.1 ++ ", into itself, " ++
              quoted top.2)
            return false
          else
            let names ← namesIn location
            let made ← makeThere target
            match made with
            | none => return false
            | some (isNew, here) => do
                if isNew then sayCopied call way source target
                if here == location then
                  complain call (quoted source ++ " and " ++ quoted target ++ " are the same file")
                  return false
                else
                  -- The directory that was just made inside the source is met there too.
                  let met := if isNew && here.dropLast == location then [lastPart target] else []
                  each
                    (fun name => copyTree call way top (if first then some here else copied) depth
                      false (under source name) (under target name))
                    (sorted (names ++ met))
      | .ok (location, entry) => copyFile call way source target location entry
where
  /-- The directory that is copied to: whether it is new, and where it is. -/
  makeThere (target : String) : Program Machine (Option (Bool × Location)) := do
    match ← inspect target true with
    | .ok (here, .directory) => return some (false, here)
    | .ok _ => do
        complain call ("cannot overwrite non-directory " ++ quoted target ++ " with directory " ++
          quoted top.1)
        return none
    | .error _ => do
        match ← makeDirectory target with
        | .error fault => do
            complain call (cannot "cannot create directory" target fault)
            return none
        | .ok () =>
            match ← inspect target true with
            | .ok (here, _) => return some (true, here)
            | .error _ => return none

def movingOptions : OptionTable :=
  { plain := "abdfHilLnPpRrsTuvx", valued := "tS",
    long := [("recursive", 'r'), ("archive", 'a'), ("force", 'f'), ("no-clobber", 'n'),
      ("verbose", 'v'), ("target-directory", 't'), ("no-target-directory", 'T'),
      ("dereference", 'L'), ("no-dereference", 'P'), ("update", 'u')] }

def copy : Tool := fun call => do
  let (given, operands) ← options call movingOptions
  let recursive := has given 'r' || has given 'R' || has given 'a'
  let way : Copying :=
    { recursive
      follows := has given 'L' || (!recursive && !has given 'P' && !has given 'd')
      keeps := has given 'n', force := has given 'f'
      exact := has given 'p' || has given 'a', talks := has given 'v' }
  let one (source target : String) : Program Machine Bool :=
    copyTree call way (source, target) none depthMax true source target
  match ← destinationOf call given operands isDirectory with
  | .directory directory sources =>
      return codeOf (← each (fun source => one source (under directory (lastPart source))) sources)
  | .single source target => return codeOf (← one source target)

def moveOne (call : ToolCall) (given : List GivenOption) (source target : String) :
    Program Machine Bool := do
  let refused (text : String) : Program Machine Bool := do
    complain call text
    return false
  let go : Program Machine Bool := do
    match ← Machine.call (.file (.rename (spoken source) (spoken target))) with
    | .ok () => do
        if has given 'v' then
          print call ("renamed " ++ quoted source ++ " -> " ++ quoted target ++ "\n")
        return true
    | .error .notEmpty => refused (cannot "cannot overwrite" target .notEmpty)
    | .error fault =>
        refused ("cannot move " ++ quoted source ++ " to " ++ quoted target ++ ": " ++ fault.reason)
  match ← entryAt source with
  | .error fault => refused (cannot "cannot stat" source fault)
  | .ok (location, entry) =>
      let isDir : Bool := match entry with
        | .directory => true
        | _ => false
      match ← entryAt target with
      | .error .notFound => intoItself location isDir refused go
      | .error _ => go
      | .ok (other, found) =>
          match isDir, found with
          | false, .directory =>
              refused ("cannot overwrite directory " ++ quoted target ++ " with non-directory")
          | true, .directory =>
              if other == location then
                refused (quoted source ++ " and " ++ quoted target ++ " are the same file")
              else intoItself location isDir refused go
          | true, _ =>
              refused ("cannot overwrite non-directory " ++ quoted target ++ " with directory " ++
                quoted source)
          | false, _ =>
              if other == location then
                refused (quoted source ++ " and " ++ quoted target ++ " are the same file")
              else if has given 'n' then return true
              else go
where
  /-- Goes on unless a directory would be moved below itself. -/
  intoItself (location : Location) (isDir : Bool) (refused : String → Program Machine Bool)
      (go : Program Machine Bool) : Program Machine Bool := do
    let parent := (above? target).getD (if target.startsWith "/" then "/" else ".")
    match isDir, ← inspect parent true with
    | true, .ok (here, _) =>
        if location.isPrefixOf here then
          refused ("cannot move " ++ quoted source ++ " to a subdirectory of itself, " ++
            quoted target)
        else go
    | _, _ => go

def move : Tool := fun call => do
  let (given, operands) ← options call movingOptions
  match ← destinationOf call given operands isDirectory with
  | .directory directory sources =>
      return codeOf
        (← each (fun source => moveOne call given source (under directory (lastPart source))) sources)
  | .single source target => return codeOf (← moveOne call given source target)

end Handoff.Tool
