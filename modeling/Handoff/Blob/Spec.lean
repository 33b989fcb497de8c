import Handoff.Blob.Call
import Handoff.Path
/-!
# Store specs

Where a store lives, as it is given on the command line, and how it is printed.
-/

namespace Handoff

inductive StoreSpec where
  | directory (root : Path)
  | database (path : Path)
  | memory
  deriving DecidableEq

namespace StoreSpec

def directoryScheme : String := "dir:"
def databaseScheme : String := "sqlite:"
def memoryScheme : String := "memory:"

def afterScheme? (scheme text : String) : Option String :=
  (scheme.toList.isPrefixOf? text.toList).map String.ofList

def hasAuthority : List Char → Bool
  | [] => false
  | c :: rest => [':', '/', '/'].isPrefixOf (c :: rest) || hasAuthority rest

/-- Reads a spec; blanks around it do not count and a bare path is a directory. -/
def ofText (raw : String) : Except StoreFault StoreSpec :=
  let text := Text.trim raw
  if text = "" then .error (.invalidSpec raw)
  else if text = memoryScheme then .ok .memory
  else
    match afterScheme? directoryScheme text with
    | some path => if path = "" then .error (.invalidSpec raw) else .ok (.directory ⟨path⟩)
    | none =>
        match afterScheme? databaseScheme text with
        | some path => if path = "" then .error (.invalidSpec raw) else .ok (.database ⟨path⟩)
        | none =>
            if hasAuthority text.toList then .error (.invalidSpec raw)
            else .ok (.directory ⟨text⟩)

def display : StoreSpec → String
  | directory root => directoryScheme ++ root.text
  | database path => databaseScheme ++ path.text
  | memory => memoryScheme

/-- Whether two specs name the same store: their paths have the same parts. -/
def same : StoreSpec → StoreSpec → Bool
  | directory a, directory b => a.same b
  | database a, database b => a.same b
  | memory, memory => true
  | _, _ => false

end StoreSpec

end Handoff
