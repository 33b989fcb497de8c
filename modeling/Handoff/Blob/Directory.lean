import Handoff.Blob.Call
import Handoff.Files
/-!
# The store in a directory tree

One file for each key.  A value is written to a temporary file beside its place and
renamed into it, so a reader sees the old value or the new one.  Listings pass over
the temporary files, over everything that is not a regular file, and over names that
are no valid key.
-/

namespace Handoff

/-- What tells the temporary files of two writers apart. -/
structure WriterStamp where
  process : Nat
  serial : Nat
  deriving DecidableEq

namespace DirectoryStore

def temporaryStart : String := ".ho-tmp-"

def temporaryName (stamp : WriterStamp) : String :=
  temporaryStart ++ toString stamp.process ++ "-" ++ toString stamp.serial

def pathFor (root : Path) (key : BlobKey) : Path :=
  key.segments.foldl Path.join root

def openRoot (root : Path) : Program Files (Except StoreFault Unit) := do
  match ← Files.makeDirAll root with
  | .ok () => return .ok ()
  | .error fault => return .error (.os fault)

def get (root : Path) (key : BlobKey) : Program Files (Except StoreFault (Option ByteArray)) := do
  let path := pathFor root key
  if ← Files.isDir path then return .ok none
  match ← Files.read path with
  | .ok content => return .ok (some content)
  | .error .notFound => return .ok none
  | .error fault => return .error (.os fault)

def discard (temporary : Path) (fault : OsFault) : Program Files (Except StoreFault Unit) := do
  let _ ← Files.remove temporary
  return .error (.os fault)

def put (root : Path) (stamp : WriterStamp) (key : BlobKey) (value : ByteArray) :
    Program Files (Except StoreFault Unit) := do
  let path := pathFor root key
  match path.parent? with
  | none => return .error (.os (.other "blob path has no parent directory"))
  | some parent =>
      match ← Files.makeDirAll parent with
      | .error fault => return .error (.os fault)
      | .ok () =>
          let temporary := parent.join (temporaryName stamp)
          match ← Files.write temporary value with
          | .error fault => discard temporary fault
          | .ok () =>
              match ← Files.rename temporary path with
              | .error fault => discard temporary fault
              | .ok () => return .ok ()

def delete (root : Path) (key : BlobKey) : Program Files (Except StoreFault Unit) := do
  match ← Files.remove (pathFor root key) with
  | .ok () => return .ok ()
  | .error .notFound => return .ok ()
  | .error fault => return .error (.os fault)

/-- The keys of the given entries of `path`, where `below` lists a directory.  The
segments on the way to `path` are `above`. -/
def keysOf (below : Path → List String → Program Files (Except StoreFault (List BlobKey)))
    (path : Path) (above : List String) :
    List (FileName × FileKind) → Program Files (Except StoreFault (List BlobKey))
  | [] => return .ok []
  | (.undecodable _, _) :: rest => keysOf below path above rest
  | (.named name, kind) :: rest => do
      if temporaryStart.toList.isPrefixOf name.toList then keysOf below path above rest
      else
        let segments := above ++ [name]
        let found ← match kind with
          | .directory => below (path.join name) segments
          | .file =>
              match BlobKey.ofText ("/".intercalate segments) with
              | .ok key => pure (.ok [key])
              | .error _ => pure (.ok [])
          | .other => pure (.ok [])
        match found with
        | .error fault => return .error fault
        | .ok keys =>
            match ← keysOf below path above rest with
            | .error fault => return .error fault
            | .ok more => return .ok (keys ++ more)

/-- The keys in the tree at `path`, in the order of the walk.  A walk goes at most
`depth` directories down; deeper paths are too long to be opened. -/
def walk : Nat → Path → List String → Program Files (Except StoreFault (List BlobKey))
  | 0, _, _ => return .error (.os .nameTooLong)
  | depth + 1, path, above => do
      match ← Files.entries path with
      | .error .notFound => return .ok []
      | .error fault => return .error (.os fault)
      | .ok entries => keysOf (walk depth) path above entries

/-- The longest path that can be opened, in bytes. -/
def pathMax : Nat := 4096

def list (root : Path) (start : String) : Program Files (Except StoreFault (List BlobKey)) := do
  match ← walk pathMax root [] with
  | .error fault => return .error fault
  | .ok keys =>
      let wanted := keys.filter fun key => start.toList.isPrefixOf key.text.toList
      return .ok (wanted.mergeSort fun a b => decide (a.text ≤ b.text))

/-- Carries out one store call by file calls. -/
def answer (root : Path) (stamp : WriterStamp) :
    (call : StoreCall) → Program Files (Except StoreFault call.Result)
  | .get key => get root key
  | .put key value => put root stamp key value
  | .delete key => delete root key
  | .has key => do
      match ← get root key with
      | .ok value => return .ok value.isSome
      | .error fault => return .error fault
  | .list start => list root start

end DirectoryStore

end Handoff
