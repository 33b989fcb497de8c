import Handoff.Blob.Table
import Handoff.Files
import Handoff.Text.Utf8
/-!
# A file tree

The files of a host: directories, regular files and symbolic links, each at its
location, with the path lookup and the elementary operations of a POSIX system.  A
regular file keeps its number when it is moved, so whoever has it open finds it again.
-/

namespace Handoff

abbrev Location := List FileName

namespace Location

def nameText : FileName → String
  | .named text => text
  | .undecodable bytes => Text.decodeLossy ⟨bytes.toArray⟩

def text (location : Location) : String :=
  if location = [] then "/" else String.join (location.map fun name => "/" ++ nameText name)

/-- The path of a location as seen from another one above it; `none` if it is not above. -/
def below? (top location : Location) : Option String :=
  if top.isPrefixOf location && top != location then
    some ("/".intercalate ((location.drop top.length).map nameText))
  else none

end Location

inductive DeviceName where
  /-- Swallows what is written, and is empty. -/
  | null
  /-- Never ends; all its bytes are zero. -/
  | zero
  /-- Reads like `zero`, and takes nothing. -/
  | full
  /-- The terminal of the process, which has none. -/
  | terminal
  /-- What a descriptor of the process itself leads to. -/
  | descriptor (number : Nat)
  deriving DecidableEq

inductive FileEntry where
  | directory
  /-- A regular file with its number and its permissions. -/
  | file (id : Nat) (content : ByteArray) (mode : Nat)
  | link (target : String)
  /-- A database file, known by its table alone. -/
  | database (id : Nat) (rows : BlobTable)
  /-- A program of the system. -/
  | tool (name : String)
  | device (name : DeviceName)
  deriving DecidableEq

/-- The files of a host.  The top directory is always there. -/
structure FileTree where
  entries : List (Location × FileEntry)
  /-- The number of the next new file. -/
  nextId : Nat

namespace FileTree

def nameMax : Nat := 255

/-- The longest path, in bytes, with the byte that ends it. -/
def pathMax : Nat := 4096

def linkMax : Nat := 40

/-- The permissions of a file that is just made: read and write, but not run. -/
def plainMode : Nat := 0o644

def lookup (tree : FileTree) (location : Location) : Option FileEntry :=
  if location = [] then some .directory else tree.entries.lookup location

def set (tree : FileTree) (location : Location) (entry : FileEntry) : FileTree :=
  { tree with entries := (location, entry) :: tree.entries.filter fun e => e.1 != location }

def unset (tree : FileTree) (location : Location) : FileTree :=
  { tree with entries := tree.entries.filter fun e => e.1 != location }

def setNew (tree : FileTree) (location : Location) (content : ByteArray) : FileTree :=
  { tree.set location (.file tree.nextId content plainMode) with nextId := tree.nextId + 1 }

def prune (tree : FileTree) (location : Location) : FileTree :=
  { tree with entries := tree.entries.filter fun e => !location.isPrefixOf e.1 }

def children (tree : FileTree) (location : Location) : List (FileName × FileEntry) :=
  tree.entries.filterMap fun e =>
    match e.1.getLast? with
    | some name => if e.1.dropLast = location then some (name, e.2) else none
    | none => none

inductive Target where
  | present (location : Location) (entry : FileEntry)
  /-- The parent directory is there, the last name is not. -/
  | absent (parent : Location) (name : FileName)

def start (cwd : Location) (path : String) : Location :=
  if path.toList.head? = some '/' then [] else cwd

/-- Follows `pieces` from a directory.  What becomes of a path at a link is left to `detour`, which
is given the place of the link, its target and the pieces after it; a link at the end is followed
if `follow?` says so. -/
def walk (tree : FileTree) (follow? : Bool)
    (detour : Location → String → List String → Except OsFault Target) :
    Location → List String → Except OsFault Target
  | location, [] => .ok (.present location .directory)
  | location, piece :: rest =>
      if Path.isIdle piece then walk tree follow? detour location rest
      else if piece = ".." then walk tree follow? detour location.dropLast rest
      else if nameMax < piece.utf8ByteSize then .error .nameTooLong
      else
        let next := location ++ [.named piece]
        match tree.lookup next with
        | none =>
            if rest.all (· == "") then .ok (.absent location (.named piece))
            else .error .notFound
        | some .directory => walk tree follow? detour next rest
        | some (.link target) =>
            if rest.isEmpty && !follow? then .ok (.present next (.link target))
            else detour location target rest
        | some entry =>
            if rest.isEmpty then .ok (.present next entry) else .error .notDirectory

/-- Follows `pieces` from a directory, through so many links on the way at most. -/
def follow (tree : FileTree) (follow? : Bool) : Nat → Location → List String →
    Except OsFault Target
  | 0 => tree.walk follow? fun _ _ _ => .error .tooManyLinks
  | links + 1 => tree.walk follow? fun location target rest =>
      if target = "" then .error .notFound
      else tree.follow follow? links (start location target) (BlobKey.segmentsOf target ++ rest)

theorem follow_nil (tree : FileTree) (f : Bool) (links : Nat) (location : Location) :
    tree.follow f links location [] = .ok (.present location .directory) := by
  cases links <;> rfl

/-- What the way of a path begins with, whatever the number of links. -/
theorem follow_cons (tree : FileTree) (f : Bool) (links : Nat) (location : Location)
    (piece : String) (rest : List String) :
    tree.follow f links location (piece :: rest) =
      if Path.isIdle piece then tree.follow f links location rest
      else if piece = ".." then tree.follow f links location.dropLast rest
      else if nameMax < piece.utf8ByteSize then .error .nameTooLong
      else
        match tree.lookup (location ++ [.named piece]) with
        | none =>
            if rest.all (· == "") then .ok (.absent location (.named piece)) else .error .notFound
        | some .directory => tree.follow f links (location ++ [.named piece]) rest
        | some (.link text) =>
            if rest.isEmpty && !f then .ok (.present (location ++ [.named piece]) (.link text))
            else
              match links with
              | 0 => .error .tooManyLinks
              | links + 1 =>
                  if text = "" then .error .notFound
                  else tree.follow f links (start location text) (BlobKey.segmentsOf text ++ rest)
        | some entry =>
            if rest.isEmpty then .ok (.present (location ++ [.named piece]) entry)
            else .error .notDirectory := by
  cases links <;> rfl

-- Paths are followed by these equations, and by evaluation where everything is known.
attribute [irreducible] walk follow

/-- Where `path` leads, as seen from the directory `cwd`. -/
def resolve (tree : FileTree) (follow? : Bool) (cwd : Location) (path : String) :
    Except OsFault Target :=
  if path.toList.contains '\x00' then .error .nulInPath
  else if path = "" then .error .notFound
  else if pathMax ≤ path.utf8ByteSize then .error .nameTooLong
  else tree.follow follow? linkMax (start cwd path) (BlobKey.segmentsOf path)

def hasFinalSlash (path : String) : Bool :=
  path.toList.getLast? == some '/' && path.toList.any (· != '/')

def withoutFinalSlash (path : String) : String :=
  if hasFinalSlash path then
    String.ofList (path.toList.reverse.dropWhile (· == '/')).reverse
  else path

/-- Where the last name of a path stands; a link is not followed, even before a slash. -/
def resolveName (tree : FileTree) (cwd : Location) (path : String) : Except OsFault Target :=
  if pathMax ≤ path.utf8ByteSize then .error .nameTooLong
  else tree.resolve false cwd (withoutFinalSlash path)

def makeDir (tree : FileTree) (cwd : Location) (path : String) : Except OsFault FileTree :=
  match tree.resolveName cwd path with
  | .error fault => .error fault
  | .ok (.present _ _) => .error .alreadyExists
  | .ok (.absent parent name) => .ok (tree.set (parent ++ [name]) .directory)

def isDir (tree : FileTree) (cwd : Location) (path : String) : Bool :=
  match tree.resolve true cwd path with
  | .ok (.present _ .directory) => true
  | _ => false

def isThere (tree : FileTree) (cwd : Location) (path : String) : Bool :=
  match tree.resolve true cwd path with
  | .ok (.present _ _) => true
  | _ => false

def databaseBytes : ByteArray := "SQLite format 3".toUTF8

def contentOf : FileEntry → ByteArray
  | .file _ content _ => content
  | .database _ _ => databaseBytes
  | _ => ByteArray.empty

def read (tree : FileTree) (cwd : Location) (path : String) : Except OsFault ByteArray :=
  match tree.resolve true cwd path with
  | .error fault => .error fault
  | .ok (.absent _ _) => .error .notFound
  | .ok (.present _ .directory) => .error .isDirectory
  | .ok (.present _ entry) => .ok (contentOf entry)

def write (tree : FileTree) (cwd : Location) (path : String) (content : ByteArray) :
    Except OsFault FileTree :=
  if hasFinalSlash path then
    match tree.resolveName cwd path with
    | .error fault => .error fault
    | .ok _ => .error .isDirectory
  else
    match tree.resolve true cwd path with
    | .error fault => .error fault
    | .ok (.present _ .directory) => .error .isDirectory
    | .ok (.present location (.file id _ mode)) =>
        .ok (tree.set location (.file id content mode))
    | .ok (.present location (.database id _)) =>
        .ok (tree.set location (.file id content plainMode))
    | .ok (.present _ (.device _)) => .ok tree
    | .ok (.present location _) => .ok (tree.setNew location content)
    | .ok (.absent parent name) => .ok (tree.setNew (parent ++ [name]) content)

def remove (tree : FileTree) (cwd : Location) (path : String) : Except OsFault FileTree :=
  match tree.resolveName cwd path with
  | .error fault => .error fault
  | .ok (.absent _ _) => .error .notFound
  | .ok (.present _ .directory) => .error .isDirectory
  | .ok (.present location _) =>
      if hasFinalSlash path then .error .notDirectory else .ok (tree.unset location)

def removeDir (tree : FileTree) (cwd : Location) (path : String) : Except OsFault FileTree :=
  match tree.resolveName cwd path with
  | .error fault => .error fault
  | .ok (.absent _ _) => .error .notFound
  | .ok (.present location .directory) =>
      match (BlobKey.segmentsOf (withoutFinalSlash path)).getLast? with
      | some "." => .error .invalidArgument
      | some ".." => .error .notEmpty
      | _ =>
          if (tree.children location).isEmpty then .ok (tree.unset location)
          else .error .notEmpty
  | .ok (.present _ _) => .error .notDirectory

/-- The tree with all that is at or below `old` moved to `new`. -/
def moved (tree : FileTree) (old new : Location) : FileTree :=
  { tree with
    entries := tree.entries.map fun e =>
      if old.isPrefixOf e.1 then (new ++ e.1.drop old.length, e.2) else e }

/-- Moves a directory; an empty one may be in its way. -/
def renameDir (tree : FileTree) (old : Location) : Target → Except OsFault FileTree
  | .absent parent name =>
      if old.isPrefixOf parent then .error .invalidArgument
      else .ok (tree.moved old (parent ++ [name]))
  | .present new .directory =>
      if new = old then .ok tree
      else if old.isPrefixOf new then .error .invalidArgument
      else if (tree.children new).isEmpty then .ok ((tree.unset new).moved old new)
      else .error .notEmpty
  | .present _ _ => .error .notDirectory

/-- Moves an entry; a file or link takes the place of what the target held. -/
def rename (tree : FileTree) (cwd : Location) (source target : String) :
    Except OsFault FileTree :=
  match tree.resolveName cwd source with
  | .error fault => .error fault
  | .ok (.absent _ _) => .error .notFound
  | .ok (.present old .directory) =>
      match tree.resolveName cwd target with
      | .error fault => .error fault
      | .ok found => tree.renameDir old found
  | .ok (.present old entry) =>
      match tree.resolveName cwd target with
      | .error fault => .error fault
      | .ok (.present _ .directory) => .error .isDirectory
      | .ok found =>
          if hasFinalSlash source || hasFinalSlash target then .error .notDirectory
          else
            match found with
            | .present new _ => .ok ((tree.unset old).set new entry)
            | .absent parent name => .ok ((tree.unset old).set (parent ++ [name]) entry)

def kindOf : FileEntry → FileKind
  | .directory => .directory
  | .link _ => .other
  | .device _ => .other
  | _ => .file

def list (tree : FileTree) (cwd : Location) (path : String) :
    Except OsFault (List (FileName × FileKind)) :=
  match tree.resolve true cwd path with
  | .error fault => .error fault
  | .ok (.absent _ _) => .error .notFound
  | .ok (.present location .directory) =>
      .ok ((tree.children location).map fun e => (e.1, kindOf e.2))
  | .ok (.present _ _) => .error .notDirectory

def answer (cwd : Location) : (call : FileCall) → FileTree → call.Answer × FileTree
  | .makeDir path, tree => changed tree (tree.makeDir cwd path.text)
  | .isDir path, tree => (tree.isDir cwd path.text, tree)
  | .isThere path, tree => (tree.isThere cwd path.text, tree)
  | .read path, tree => (tree.read cwd path.text, tree)
  | .write path content, tree => changed tree (tree.write cwd path.text content)
  | .rename source target, tree => changed tree (tree.rename cwd source.text target.text)
  | .remove path, tree => changed tree (tree.remove cwd path.text)
  | .entries path, tree => (tree.list cwd path.text, tree)
where
  /-- An operation that was refused changes nothing. -/
  changed (tree : FileTree) : Except OsFault FileTree → Except OsFault Unit × FileTree
    | .ok after => (.ok (), after)
    | .error fault => (.error fault, tree)

def run {α : Type} (cwd : Location) (program : Program Files α) (tree : FileTree) :
    α × FileTree :=
  Program.run (I := Files) (m := StateM FileTree) (fun call => answer cwd call) program tree

def withId? (tree : FileTree) (id : Nat) : Option FileEntry :=
  (tree.entries.find? fun e =>
    match e.2 with
    | .file other _ _ => other == id
    | .database other _ => other == id
    | _ => false).map Prod.snd

def setId (tree : FileTree) (id : Nat) (entry : FileEntry) : FileTree :=
  { tree with
    entries := tree.entries.map fun e =>
      match e.2 with
      | .file other _ _ => if other = id then (e.1, entry) else e
      | .database other _ => if other = id then (e.1, entry) else e
      | _ => e }

def withDirs (tree : FileTree) (location : Location) : FileTree :=
  (List.range location.length).foldl
    (fun tree count =>
      let above := location.take count
      match tree.lookup above with
      | some _ => tree
      | none => tree.set above .directory)
    tree

/-- Puts `entry` at `location`, with the directories on the way. -/
def place (tree : FileTree) (location : Location) (entry : FileEntry) : FileTree :=
  (tree.withDirs location).set location entry

end FileTree

end Handoff
