import Handoff.Blob.Call
/-!
# The store in memory

A map in key order.  A listing scans the keys from the wanted start on and stops at
the first that does not start with it.
-/

namespace Handoff

abbrev MemoryStore := StringMap ByteArray

namespace MemoryStore

def startsWith (start text : String) : Bool :=
  start.toList.isPrefixOf text.toList

/-- The listed keys as valid keys, or the first rule that one of them breaks. -/
def checkKeys (keys : List String) : Except StoreFault (List BlobKey) :=
  keys.mapM fun key =>
    match BlobKey.ofText key with
    | .ok key => .ok key
    | .error fault => .error (.invalidKey fault)

/-- The stored keys that start with `start`, read off the ordered keys. -/
def scan (blobs : MemoryStore) (start : String) : List String :=
  (blobs.keys.dropWhile (· < start)).takeWhile (startsWith start)

def answer : StoreModel MemoryStore
  | .get key, blobs => (.ok (blobs.get? key.text), blobs)
  | .put key value, blobs => (.ok (), blobs.insert key.text value)
  | .delete key, blobs => (.ok (), blobs.erase key.text)
  | .has key, blobs => (.ok (blobs.get? key.text).isSome, blobs)
  | .list start, blobs => (checkKeys (blobs.scan start), blobs)

end MemoryStore

end Handoff
