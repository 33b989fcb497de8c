import Handoff.Host.SystemCall
import Handoff.StringMap
import Handoff.Text.ByteText
/-!
# Launching programs

Which program a name leads to, by way of the search path and of the first line of a
script, and what it is given.  Arguments and settings are byte texts.
-/

namespace Handoff

structure Image where
  tool : String
  argv : List String

abbrev Launcher := Image → StringMap String → Program Machine ExitStatus

namespace Launch

def defaultPath : String := "/bin:/usr/bin"

def shellPath : String := "/bin/sh"

/-- The longest argument or setting, in bytes, with the byte that ends it. -/
def argumentMax : Nat := 131072

/-- The most that all arguments and settings may take, in bytes. -/
def totalMax : Nat := 2097152

/-- The bytes that each text takes apart from its own. -/
def textOverhead : Nat := 9

def settingTexts (env : StringMap String) : List String :=
  env.entries.map fun (name, value) => name ++ "=" ++ value

/-- Whether the arguments and settings, whose sizes in bytes are given, can be passed on. -/
def fit (sizes : List Nat) : Bool :=
  sizes.all (· < argumentMax) &&
    sizes.foldl (fun total size => total + size + textOverhead) 0 ≤ totalMax

def accepts (argv : List String) (env : StringMap String) : Bool :=
  fit ((argv ++ settingTexts env).map String.length)

def markMax : Nat := 256

/-- What the content of a copied program starts with; the name of the program follows. -/
def programMark : String := "\x7fELF"

def isGap (c : Char) : Bool :=
  c == ' ' || c == '\t'

def interpreter? (content : ByteArray) : Option (String × Option String) :=
  match (Text.byteText (content.extract 0 markMax)).toList with
  | '#' :: '!' :: rest =>
      let line := rest.takeWhile (· != '\n')
      let words := ((line.dropWhile isGap).reverse.dropWhile isGap).reverse
      let name := words.takeWhile fun c => !isGap c && c != '\x00'
      let argument := ((words.drop name.length).dropWhile isGap).takeWhile (· != '\x00')
      if name.isEmpty || (line.length = rest.length && markMax ≤ content.size) then none
      else
        some (String.ofList name,
          if argument.isEmpty then none else some (String.ofList argument))
  | _ => none

def copied? (content : ByteArray) : Option String :=
  ((programMark.toList.isPrefixOf? (Text.byteText (content.extract 0 markMax)).toList)).map
    String.ofList

def scriptDepth : Nat := 5

def imageAt : Nat → String → List String → Program Machine (Except OsFault Image)
  | 0, _, _ => return .error .tooManyLinks
  | depth + 1, path, argv => do
      match ← Machine.call (.inspect (Text.unspelled path) true) with
      | .error fault => return .error fault
      | .ok (_, .tool tool) => return .ok { tool, argv }
      | .ok (_, .file _ content mode) =>
          if mode &&& 0o111 = 0 then return .error .permissionDenied
          match interpreter? content, copied? content with
          | some (name, argument), _ =>
              imageAt depth name (name :: argument.toList ++ path :: argv.tail)
          | none, some tool => return .ok { tool, argv }
          | none, none => return .error .notProgram
      | .ok _ => return .error .permissionDenied

/-- The program at a path, if its arguments can be passed on.  With `scripts`, a file that
is no program is a script of the shell. -/
def atPath (scripts : Bool) (argv : List String) (env : StringMap String) (path : String) :
    Program Machine (Except OsFault Image) := do
  match ← imageAt scriptDepth path argv with
  | .error .notProgram =>
      if scripts then imageAt scriptDepth shellPath (shellPath :: path :: argv.tail)
      else return .error .notProgram
  | .error fault => return .error fault
  | .ok image => return if accepts image.argv env then .ok image else .error .argumentsTooLong

def pathIn (directory name : String) : String :=
  if directory = "" then name else directory ++ "/" ++ name

/-- The program of a name in the first of the directories that has it.  A refusal on the
way counts when none has. -/
def inDirectories (scripts : Bool) (argv : List String) (env : StringMap String)
    (name : String) : Option OsFault → OsFault → List String →
    Program Machine (Except OsFault Image)
  | refused, last, [] => return .error (refused.getD last)
  | refused, _, directory :: rest => do
      match ← atPath scripts argv env (pathIn directory name) with
      | .ok image => return .ok image
      | .error .permissionDenied =>
          inDirectories scripts argv env name (some .permissionDenied) .permissionDenied rest
      | .error .notFound => inDirectories scripts argv env name refused .notFound rest
      | .error .notDirectory => inDirectories scripts argv env name refused .notDirectory rest
      | .error fault => return .error fault

def find (scripts : Bool) (searchPath : String) (argv : List String)
    (env : StringMap String) : Program Machine (Except OsFault Image) :=
  let name := argv.head?.getD ""
  if name = "" then return .error .notFound
  else if name.toList.contains '/' then atPath scripts argv env name
  else if FileTree.nameMax < name.length then return .error .nameTooLong
  else inDirectories scripts argv env name none .notFound (searchPath.splitOn ":")

def pathOf (env : StringMap String) : String :=
  (env.get? "PATH").getD defaultPath

def become {α : Type} (launch : Launcher) (image : Image) (env : StringMap String) :
    Program Machine α := do
  Machine.call .replaceProgram
  Machine.exit (← launch image env)

/-- The process goes on as the program that the arguments name; the answer is why it
could not. -/
def execute (launch : Launcher) (argv : List String) (env : StringMap String) :
    Program Machine OsFault := do
  match ← find true (pathOf env) argv env with
  | .error fault => return fault
  | .ok image => become launch image env

end Launch

end Handoff
