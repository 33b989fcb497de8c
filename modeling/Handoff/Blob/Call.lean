import Handoff.Blob.Key
import Handoff.OsFault
import Handoff.Program
/-!
# Calls on a blob store

The five calls of the shared namespace and the ways in which they fail.  Each call
is atomic for its key; nothing is atomic across keys.
-/

namespace Handoff

inductive StoreFault where
  | os (fault : OsFault)
  | sql (text : String)
  | invalidKey (fault : KeyFault)
  | invalidSpec (spec : String)
  | notUtf8 (key : BlobKey)
  | invalidPayload (key : BlobKey) (fault : IdFault)
  | poisoned
  deriving DecidableEq

def StoreFault.message : StoreFault → String
  | os fault => "io: " ++ fault.message
  | sql text => "sqlite: " ++ text
  | invalidKey fault => "invalid key: " ++ fault.message
  | invalidSpec spec =>
      "invalid store spec `" ++ spec ++ "` (expected dir:PATH, sqlite:PATH or memory:)"
  | notUtf8 key => "blob " ++ key.text ++ " is not valid utf-8"
  | invalidPayload key fault =>
      "blob " ++ key.text ++ " does not hold a work unit id: " ++ fault.message
  | poisoned => "store lock poisoned"

inductive StoreCall where
  | get (key : BlobKey)
  | put (key : BlobKey) (value : ByteArray)
  | delete (key : BlobKey)
  | has (key : BlobKey)
  /-- All keys that start with `start`, in ascending order. -/
  | list (start : String)
  deriving DecidableEq

namespace StoreCall

abbrev Result : StoreCall → Type
  | get _ => Option ByteArray
  | put _ _ => Unit
  | delete _ => Unit
  | has _ => Bool
  | list _ => List BlobKey

end StoreCall

def Storage : Interface where
  Request := StoreCall
  Answer call := Except StoreFault call.Result

abbrev StoreM (α : Type) := ExceptT StoreFault (Program Storage) α

def storeCall (call : StoreCall) : StoreM call.Result :=
  ExceptT.mk (Program.request (I := Storage) call)

def storeValues : List BlobKey → StoreM (List (BlobKey × Option ByteArray))
  | [] => return []
  | key :: rest => do
      let value ← storeCall (.get key)
      return (key, value) :: (← storeValues rest)

def storeContent : StoreM (List (BlobKey × Option ByteArray)) := do
  storeValues (← storeCall (.list ""))

/-- A store as the answer and next state for every call. -/
abbrev StoreModel (σ : Type) := (call : StoreCall) → σ → Except StoreFault call.Result × σ

def StoreModel.run {σ α : Type} (model : StoreModel σ) (program : Program Storage α) :
    σ → α × σ :=
  Program.run (m := StateM σ) model program

end Handoff
