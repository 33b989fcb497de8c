import Handoff.Archive
import Handoff.Proofs.Blob.Layout
import Handoff.SignalBoard
import Handoff.Work
/-!
# Exchanges with the surroundings

A request of an agent together with its answer, the requests of a round by what they
are for, and what a record of exchanges says about the commands that were run.
Records hold the latest exchange first.
-/

namespace Handoff

abbrev WorkUnitId.payload (id : WorkUnitId) : ByteArray :=
  id.text.toUTF8

abbrev Status.payload (status : Status) : ByteArray :=
  status.text.toUTF8

theorem WorkUnitId.payload_injective : Function.Injective WorkUnitId.payload := by
  intro a b h
  have htext := congrArg Text.decode? h
  rw [Text.decode?_toUTF8, Text.decode?_toUTF8, Option.some.injEq] at htext
  cases a
  cases b
  simpa using htext

namespace WorkRequest

abbrev look (signal : Signal) : WorkRequest :=
  .store (.get (BlobKey.signal signal))

abbrev probe (signal : Signal) : WorkRequest :=
  .store (.has (BlobKey.signal signal))

abbrev raise (signal : Signal) (id : WorkUnitId) : WorkRequest :=
  .store (.put (BlobKey.signal signal) id.payload)

abbrev lower (signal : Signal) : WorkRequest :=
  .store (.delete (BlobKey.signal signal))

abbrev report (id : WorkUnitId) (status : Status) : WorkRequest :=
  .store (.put (BlobKey.status id) status.payload)

/-- Whether the request changes what is kept under the key. -/
def writes (key : BlobKey) : WorkRequest → Prop
  | .store (.put other _) => other = key
  | .store (.delete other) => other = key
  | _ => False

theorem raise_injective {signal other : Signal} {a b : WorkUnitId}
    (h : raise signal a = raise other b) : signal = other ∧ a = b := by
  obtain ⟨hkey, hpayload⟩ := StoreCall.put.inj (WorkRequest.store.inj h)
  exact ⟨BlobKey.signal_injective hkey, WorkUnitId.payload_injective hpayload⟩

theorem report_ne_raise (id other : WorkUnitId) (status : Status) (signal : Signal) :
    report id status ≠ raise signal other := fun h =>
  BlobKey.status_ne_signal id signal (StoreCall.put.inj (WorkRequest.store.inj h)).1

end WorkRequest

structure Exchange where
  request : WorkRequest
  answer : request.Answer

namespace Exchange

/-- Whether a command of the plan was run and did not pass.  A command with a limit of
its own is the cleanup, which does not count. -/
def isFailedRun : Exchange → Bool
  | ⟨.run _ none, .error _⟩ => true
  | ⟨.run _ none, .ok (some record)⟩ => record.failed
  | _ => false

end Exchange

def verdict (record : List Exchange) : Status :=
  Status.ofFailed (record.any Exchange.isFailedRun)

theorem Status.ofText_payload (status : Status) :
    Status.ofText (Text.decodeLossy status.payload) = status := by
  rw [Text.decodeLossy_toUTF8]
  cases status <;> decide

namespace SignalBoard

def reading (signal : Signal) :
    Except StoreFault (Option ByteArray) → Except StoreFault (Option WorkUnitId)
  | .ok none => .ok none
  | .ok (some payload) => some <$> decodePayload signal payload
  | .error fault => .error fault

theorem run_read (signal : Signal) :
    (read signal).run =
      Program.ask (I := Storage) (.get (BlobKey.signal signal)) fun answer =>
        .done (reading signal answer) := by
  refine congrArg (Program.ask (I := Storage) (.get (BlobKey.signal signal))) (funext ?_)
  rintro (fault | _ | payload)
  · rfl
  · rfl
  · change ((some <$> ExceptT.mk (pure (decodePayload signal payload)) : StoreM _).run) =
      .done (some <$> decodePayload signal payload)
    cases decodePayload signal payload <;> rfl

theorem decodePayload_payload (signal : Signal) (id : WorkUnitId) :
    decodePayload signal id.payload = .ok id := by
  unfold decodePayload
  rw [Text.decode?_toUTF8]
  simp only [WorkUnitId.ofText_text]

@[simp] theorem reading_payload (signal : Signal) (id : WorkUnitId) :
    reading signal (.ok (some id.payload)) = .ok (some id) := by
  simp only [reading, decodePayload_payload]
  rfl

@[simp] theorem reading_none (signal : Signal) : reading signal (.ok none) = .ok none := rfl

end SignalBoard

namespace Archive

def statusOf (entry : Option ByteArray) : Option Status :=
  entry.map fun bytes => Status.ofText (Text.decodeLossy bytes)

theorem run_readStatus (id : WorkUnitId) :
    (readStatus id).run =
      Program.ask (I := Storage) (.get (BlobKey.status id)) fun answer =>
        .done (statusOf <$> answer) := by
  refine congrArg (Program.ask (I := Storage) (.get (BlobKey.status id))) (funext ?_)
  rintro (fault | _ | bytes)
  · rfl
  · rfl
  · rfl

@[simp] theorem statusOf_payload (status : Status) :
    statusOf (some status.payload) = some status := by
  simp only [statusOf, Option.map_some, Status.ofText_payload]

end Archive

end Handoff
