import Handoff.Text.ByteText
/-!
# Names of databases

What the name of a database says: the path of its file and how the file is opened.  A
name with the scheme `file:` may hold escapes, and settings after a question mark; any
other name is the path itself.
-/

namespace Handoff

inductive DatabaseAccess where
  | readOnly
  /-- It is changed, but not made. -/
  | existing
  | create
  deriving DecidableEq

structure DatabaseName where
  path : String
  access : DatabaseAccess
  /-- Whether the database has no file and is gone when it is closed. -/
  transient : Bool
  deriving DecidableEq

namespace DatabaseName

def scheme : String := "file:"

/-- The path that stands for a database without a file. -/
def memoryPath : String := ":memory:"

def fileSystems : List String :=
  ["unix", "unix-dotfile", "unix-excl", "unix-none", memorySystem]
where
  memorySystem : String := "memdb"

def isHexDigit (c : Char) : Bool :=
  c.isDigit || ('a' ≤ c && c ≤ 'f') || ('A' ≤ c && c ≤ 'F')

def hexDigit (c : Char) : Nat :=
  if c.isDigit then c.toNat - 48 else c.toLower.toNat - 87

/-- A part of a name with its escapes resolved, one character for each byte.  An escaped
NUL ends it. -/
def unescape : List Char → List Char
  | '%' :: a :: b :: rest =>
      if isHexDigit a && isHexDigit b then
        let byte := hexDigit a * 16 + hexDigit b
        if byte = 0 then [] else Char.ofNat byte :: unescape rest
      else '%' :: unescape (a :: b :: rest)
  | c :: rest => c :: unescape rest
  | [] => []

def partText (part : List Char) : String :=
  Text.unspelled (String.ofList (unescape part))

/-- What follows the first character for which `stops` holds. -/
def after (stops : Char → Bool) (text : List Char) : List Char :=
  (text.dropWhile fun c => !stops c).drop 1

def settings (text : List Char) : List (String × String) :=
  let parts := (String.ofList text).splitOn "&"
  let pairs := parts.map fun part =>
    (partText (part.toList.takeWhile (· != '=')), partText (after (· == '=') part.toList))
  pairs.filter fun e => e.1 != ""

def apply (name : DatabaseName) : String × String → Except String DatabaseName
  | ("mode", "ro") => .ok { name with access := .readOnly }
  | ("mode", "rw") => .ok { name with access := .existing }
  | ("mode", "rwc") => .ok { name with access := .create }
  | ("mode", "memory") => .ok { name with transient := true }
  | ("mode", other) => .error ("no such access mode: " ++ other)
  | ("cache", value) =>
      if value = "shared" || value = "private" then .ok name
      else .error ("no such cache mode: " ++ value)
  | _ => .ok name

/-- The path after a host that may be named, which can only be this one. -/
def afterAuthority (text : List Char) : Except String (List Char) :=
  match text with
  | '/' :: '/' :: rest =>
      let authority := String.ofList (rest.takeWhile (· != '/'))
      if authority = "" || authority = "localhost" then .ok (rest.dropWhile (· != '/'))
      else .error ("invalid uri authority: " ++ authority)
  | _ => .ok text

def ofUri (rest : List Char) : Except String DatabaseName := do
  let text ← afterAuthority (rest.takeWhile (· != '#'))
  let path := partText (text.takeWhile (· != '?'))
  let settings := settings (after (· == '?') text)
  let name ← settings.foldlM apply { path, access := .create, transient := path = "" }
  match (settings.reverse.lookup "vfs") with
  | none => return name
  | some system =>
      if !fileSystems.contains system then throw ("no such vfs: " ++ system)
      else return { name with transient := name.transient || system = fileSystems.memorySystem }

def ofText (text : String) : Except String DatabaseName :=
  let read := match scheme.toList.isPrefixOf? text.toList with
    | some rest => ofUri (Text.spelled (String.ofList rest)).toList
    | none => .ok { path := text, access := .create, transient := false }
  read.map fun name => { name with transient := name.transient || name.path = memoryPath }

end DatabaseName

end Handoff
