import Handoff.Blob.Memory
/-!
# The store in a database table

One table of rows with a key and a value, and the statements over it: a point query,
an insertion that updates on conflict, a deletion, and a listing that compares the
first characters of every key with the wanted start.
-/

namespace Handoff

structure BlobRow where
  key : String
  value : ByteArray
  deriving DecidableEq

abbrev BlobTable := List BlobRow

namespace BlobTable

def textLength (text : String) : Nat :=
  (text.toList.takeWhile (· != '\x00')).length

def firstChars (text : String) (count : Nat) : String :=
  String.ofList (text.toList.take count)

/-- Runs `SELECT value FROM blobs WHERE key = ?` -/
def select (rows : BlobTable) (key : String) : Option ByteArray :=
  (rows.find? fun row => row.key = key).map BlobRow.value

/-- Runs `INSERT INTO blobs … ON CONFLICT(key) DO UPDATE` -/
def upsert (rows : BlobTable) (key : String) (value : ByteArray) : BlobTable :=
  if rows.any fun row => row.key = key then
    rows.map fun row => if row.key = key then { row with value } else row
  else rows ++ [⟨key, value⟩]

/-- Runs `DELETE FROM blobs WHERE key = ?` -/
def remove (rows : BlobTable) (key : String) : BlobTable :=
  rows.filter fun row => row.key != key

/-- Runs `SELECT key FROM blobs WHERE substr(key, 1, length(?)) = ? ORDER BY key` -/
def keysFrom (rows : BlobTable) (start : String) : List String :=
  ((rows.map BlobRow.key).filter fun key =>
    firstChars key (textLength start) = start).mergeSort fun a b => decide (a ≤ b)

def answer : StoreModel BlobTable
  | .get key, rows => (.ok (rows.select key.text), rows)
  | .put key value, rows => (.ok (), rows.upsert key.text value)
  | .delete key, rows => (.ok (), rows.remove key.text)
  | .has key, rows => (.ok (rows.select key.text).isSome, rows)
  | .list start, rows => (MemoryStore.checkKeys (rows.keysFrom start), rows)

end BlobTable

end Handoff
