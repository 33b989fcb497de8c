import Handoff.Blob.Call
import Handoff.Text.Utf8
/-!
# The signal board

Read and write access to the three signals of a handoff.
-/

namespace Handoff.SignalBoard

def isUp (signal : Signal) : StoreM Bool :=
  storeCall (.has (BlobKey.signal signal))

def decodePayload (signal : Signal) (payload : ByteArray) : Except StoreFault WorkUnitId :=
  match Text.decode? payload with
  | none => .error (.notUtf8 (BlobKey.signal signal))
  | some text =>
      match WorkUnitId.ofText text with
      | .ok id => .ok id
      | .error fault => .error (.invalidPayload (BlobKey.signal signal) fault)

/-- The id that a signal holds; `none` when it is not up. -/
def read (signal : Signal) : StoreM (Option WorkUnitId) := do
  match ← storeCall (.get (BlobKey.signal signal)) with
  | none => return none
  | some payload => some <$> ExceptT.mk (pure (decodePayload signal payload))

def put (signal : Signal) (id : WorkUnitId) : StoreM Unit :=
  storeCall (.put (BlobKey.signal signal) id.text.toUTF8)

def delete (signal : Signal) : StoreM Unit :=
  storeCall (.delete (BlobKey.signal signal))

def snapshot : StoreM SignalSnapshot := do
  let offered ← read .offered
  let claimed ← read .claimed
  let finished ← read .finished
  return { offered, claimed, finished }

def clear : List Signal → StoreM (List Signal)
  | [] => return []
  | signal :: rest => do
      if ← isUp signal then
        delete signal
        return signal :: (← clear rest)
      else clear rest

/-- Recovery from a broken round: takes down every signal that is up, whatever it
holds, and returns those. -/
def clearStale : StoreM (List Signal) :=
  clear Signal.all

/-- Looks at `signals` for the log; what they hold and whether the calls fail makes no
difference. -/
def observe : List Signal → Program Storage Unit
  | [] => return
  | signal :: rest => do
      let _ ← Program.request (I := Storage) (.get (BlobKey.signal signal))
      observe rest

def logState : Program Storage Unit :=
  observe Signal.all

end Handoff.SignalBoard
