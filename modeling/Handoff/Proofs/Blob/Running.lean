import Handoff.Proofs.Blob.KeyValue
/-!
# Store programs that run

Runs of a store program against a model: on a store that answers every call, and on one
whose calls may break down, before or after they have taken effect.
-/

namespace Handoff

inductive CallFate where
  | served
  /-- The call fails and has no effect. -/
  | lost (fault : StoreFault)
  /-- The call fails, though it took effect. -/
  | hidden (fault : StoreFault)
  deriving DecidableEq

namespace StoreModel

variable {σ α β : Type} (model : StoreModel σ)

/-- Runs a store program whose calls have the given fates, one after the other; those
beyond the list are served. -/
def endure : Program Storage α → List CallFate → σ → α × σ
  | .done value, _, s => (value, s)
  | .ask call next, [], s => endure (next (model call s).1) [] (model call s).2
  | .ask call next, .served :: fates, s => endure (next (model call s).1) fates (model call s).2
  | .ask call next, .lost fault :: fates, s =>
      endure (next (.error fault : Except StoreFault call.Result)) fates s
  | .ask call next, .hidden fault :: fates, s =>
      endure (next (.error fault : Except StoreFault call.Result)) fates (model call s).2

variable {model}

theorem endure_nil (program : Program Storage α) (s : σ) :
    model.endure program [] s = model.run program s := by
  induction program generalizing s with
  | done value => rfl
  | ask call next ih => exact ih _ _

theorem run_bind (program : Program Storage α) (next : α → Program Storage β) (s : σ) :
    model.run (program >>= next) s =
      model.run (next (model.run program s).1) (model.run program s).2 := by
  induction program generalizing s with
  | done value => rfl
  | ask call rest ih => exact ih _ _

theorem run_storeCall (call : StoreCall) (s : σ) :
    model.run (storeCall call).run s = model call s := rfl

theorem run_bind_ok {program : StoreM α} {next : α → StoreM β} {value : α} {s t : σ}
    (h : model.run program.run s = (.ok value, t)) :
    model.run (program >>= next).run s = model.run (next value).run t := by
  rw [ExceptT.run_bind, run_bind, h]

theorem run_bind_error {program : StoreM α} {next : α → StoreM β} {fault : StoreFault}
    {s t : σ} (h : model.run program.run s = (.error fault, t)) :
    model.run (program >>= next).run s = (.error fault, t) := by
  rw [ExceptT.run_bind, run_bind, h]
  rfl

/-! ## Calls that may break down -/

theorem endure_call_ok {call : StoreCall} {next : call.Result → StoreM α} {value : call.Result}
    {s t : σ} (h : model call s = (.ok value, t)) :
    model.endure (storeCall call >>= next).run [] s = model.endure (next value).run [] t := by
  change model.endure (_ : Program Storage _) [] (model call s).2 = _
  rw [h]
  rfl

theorem endure_call_served {call : StoreCall} {next : call.Result → StoreM α}
    {value : call.Result} {s t : σ} (fates : List CallFate) (h : model call s = (.ok value, t)) :
    model.endure (storeCall call >>= next).run (.served :: fates) s =
      model.endure (next value).run fates t := by
  change model.endure (_ : Program Storage _) fates (model call s).2 = _
  rw [h]
  rfl

theorem endure_call_lost (call : StoreCall) (next : call.Result → StoreM α)
    (fault : StoreFault) (fates : List CallFate) (s : σ) :
    model.endure (storeCall call >>= next).run (.lost fault :: fates) s = (.error fault, s) := by
  cases fates <;> rfl

theorem endure_call_hidden (call : StoreCall) (next : call.Result → StoreM α)
    (fault : StoreFault) (fates : List CallFate) (s : σ) :
    model.endure (storeCall call >>= next).run (.hidden fault :: fates) s =
      (.error fault, (model call s).2) := by
  cases fates <;> rfl

end StoreModel

namespace KeyValue

variable {σ : Type} {model : StoreModel σ} (map : KeyValue model)
include map

theorem run_get (key : BlobKey) (s : σ) :
    model.run (storeCall (.get key)).run s = (.ok (map.contents s key), s) :=
  map.get_eq key s

theorem put_eq (key : BlobKey) (value : ByteArray) (s : σ) :
    model (.put key value) s = (.ok (), (model (.put key value) s).2) :=
  Prod.ext (map.put_fst key value s) rfl

theorem run_put (key : BlobKey) (value : ByteArray) (s : σ) :
    model.run (storeCall (.put key value)).run s = (.ok (), (model (.put key value) s).2) :=
  map.put_eq key value s

end KeyValue

end Handoff
