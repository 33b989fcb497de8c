import Handoff.Blob.Spec
import Handoff.Host.Basic
import Handoff.Host.DatabaseName
/-!
# Open stores

A store that was opened on a host, and how it answers calls there.
-/

namespace Handoff

structure OpenDatabase where
  /-- The number of its file. -/
  file : Nat
  /-- Where the file stood when it was opened. -/
  location : Location
  readOnly : Bool
  /-- What it held last; that can still be read when the file is gone. -/
  rows : BlobTable

inductive OpenStore where
  | memory (blobs : MemoryStore)
  | database (handle : OpenDatabase)
  /-- A database without a file. -/
  | transient (rows : BlobTable)
  | directory (root : Path)

namespace OpenDatabase

/-- The longest path of a database file, in bytes. -/
def pathMax : Nat := 504

def journalMark : Nat := "-journal".utf8ByteSize

def linkMax : Nat := 200

/-- Where a path leads when links are followed and dots are taken by their letter: what is
before them need not be there. -/
def locate (files : FileTree) : Nat → Location → List String → Option Location
  | _, location, [] => some location
  | links, location, piece :: rest =>
      if Path.isIdle piece then locate files links location rest
      else if piece = ".." then locate files links location.dropLast rest
      else
        let next := location ++ [.named piece]
        match files.lookup next with
        | some (.link target) =>
            match links with
            | 0 => none
            | links + 1 =>
                locate files links (FileTree.start location target)
                  (BlobKey.segmentsOf target ++ rest)
        | _ => locate files links next rest
termination_by links _ pieces => (links, pieces.length)

def nulPosition (path : String) : Nat :=
  (String.ofList (path.toList.takeWhile (· != '\x00'))).utf8ByteSize

def readOnlyFault : StoreFault :=
  .sql "attempt to write a readonly database"

def notDatabaseFault : StoreFault :=
  .sql "file is not a database"

def unopened : String := "unable to open database file"

def hasJournal (location : Location) : Bool :=
  match location.getLast? with
  | some (.named name) => name.utf8ByteSize + journalMark ≤ FileTree.nameMax
  | _ => true

def makeTable (location : Location) (file : Nat) (access : DatabaseAccess) (host : Host) :
    Except StoreFault OpenStore × Host :=
  if access = .readOnly then (.error readOnlyFault, host)
  else if !hasJournal location then (.error (.sql unopened), host)
  else
    (.ok (.database { file, location, readOnly := false, rows := [] }),
      host.withFiles (host.files.setId file (.database file [])))

def openAt (text : String) (location : Location) (access : DatabaseAccess) (host : Host) :
    Except StoreFault OpenStore × Host :=
  let refused := (Except.error (StoreFault.sql (unopened ++ ": " ++ text)), host)
  let nameFits := match location.getLast? with
    | some (.named name) => decide (name.utf8ByteSize ≤ FileTree.nameMax)
    | _ => false
  if pathMax < location.text.utf8ByteSize || !nameFits ||
      host.files.lookup location.dropLast != some .directory then refused
  else
    match host.files.lookup location with
    | none =>
        if access = .create then
          let file := host.files.nextId
          makeTable location file access
            (host.withFiles (host.files.setNew location ByteArray.empty))
        else refused
    | some (.database file rows) =>
        (.ok (.database { file, location, readOnly := access = .readOnly, rows }), host)
    | some (.file file content _) =>
        if content.isEmpty then makeTable location file access host
        else (.error notDatabaseFault, host)
    | some _ => refused

def ofName (text : String) (host : Host) : Except StoreFault OpenStore × Host :=
  if text.toList.contains '\x00' then
    (.error (.sql ("nul byte found in provided data at position: " ++
      toString (nulPosition text))), host)
  else
    match DatabaseName.ofText text with
    | .error reason => (.error (.sql reason), host)
    | .ok name =>
        if name.transient then (.ok (.transient []), host)
        else
          match locate host.files linkMax (FileTree.start host.cwd name.path)
              (BlobKey.segmentsOf name.path) with
          | none => (.error (.sql (unopened ++ ": " ++ text)), host)
          | some location => openAt text location name.access host

def ofPath (path : Path) (host : Host) : Except StoreFault OpenStore × Host :=
  let (made, host) : Except OsFault Unit × Host := match path.parent? with
    | some parent =>
        if parent.text = "" then (.ok (), host) else host.runFiles (Files.makeDirAll parent)
    | none => (.ok (), host)
  match made with
  | .error fault => (.error (.os fault), host)
  | .ok () => ofName path.text host

def isWriting : StoreCall → Bool
  | .put _ _ => true
  | .delete _ => true
  | _ => false

def hasMoved (handle : OpenDatabase) (host : Host) : Bool :=
  match host.files.lookup handle.location with
  | some (.database file _) => file != handle.file
  | some (.file file _ _) => file != handle.file
  | _ => true

def rowsOn (handle : OpenDatabase) (host : Host) : Except StoreFault BlobTable :=
  match host.files.withId? handle.file with
  | some (.database _ rows) => .ok rows
  | some (.file _ content _) =>
      if content.isEmpty then .error (.sql "no such table: blobs") else .error notDatabaseFault
  | _ => .ok handle.rows

def answer (call : StoreCall) (handle : OpenDatabase) (host : Host) :
    Except StoreFault call.Result × OpenDatabase × Host :=
  match handle.rowsOn host with
  | .error fault => (.error fault, handle, host)
  | .ok rows =>
      if isWriting call && handle.readOnly then (.error readOnlyFault, handle, host)
      else
        let (result, after) := BlobTable.answer call rows
        let changes := after != rows || (match call with
          | .put _ _ => true
          | _ => false)
        if changes && handle.hasMoved host then (.error readOnlyFault, handle, host)
        else
          (result, { handle with rows := after },
            if changes then
              host.withFiles (host.files.setId handle.file (.database handle.file after))
            else host)

end OpenDatabase

namespace OpenStore

def ofSpec (spec : StoreSpec) (host : Host) : Except StoreFault OpenStore × Host :=
  match spec with
  | .memory => (.ok (.memory StringMap.empty), host)
  | .directory root =>
      let (made, host) := host.runFiles (DirectoryStore.openRoot root)
      (made.map fun _ => .directory root, host)
  | .database path => OpenDatabase.ofPath path host

def answer (call : StoreCall) (store : OpenStore) (host : Host) :
    Except StoreFault call.Result × OpenStore × Host :=
  match store with
  | .memory blobs =>
      let (result, blobs) := MemoryStore.answer call blobs
      (result, .memory blobs, host)
  | .transient rows =>
      let (result, rows) := BlobTable.answer call rows
      (result, .transient rows, host)
  | .database handle =>
      let (result, handle, host) := handle.answer call host
      (result, .database handle, host)
  | .directory root =>
      let (stamp, host) := host.stamp
      let (result, host) := host.runFiles (DirectoryStore.answer root stamp call)
      (result, store, host)

end OpenStore

structure Session where
  host : Host
  store : OpenStore

namespace Session

def answer : StoreModel Session := fun call session =>
  let (result, store, host) := session.store.answer call session.host
  (result, { host, store })

def run {α : Type} (program : Program Storage α) (session : Session) : α × Session :=
  StoreModel.run answer program session

end Session

end Handoff
