import Handoff.Proofs.Round.Interleaving
/-!
# No stale answer

Whatever the store holds at the start, and however often the tester breaks down and
starts again, a producer that returns a status has seen FINISHED raised after its sweep,
by a poll that had written a status before, and the status it returns is the one that a
poll wrote last.
-/

namespace Handoff

namespace Interleaving

open WorkRequest

/-- Who wrote last under a key, and what. -/
def lastPut (key : BlobKey) : List Event → Option (Party × ByteArray)
  | [] => none
  | ⟨party, ⟨.store (.put other value), _⟩⟩ :: past =>
      if other = key then some (party, value) else lastPut key past
  | _ :: past => lastPut key past

theorem lastPut_cons_of_not_writes {key : BlobKey} {party : Party} {x : Exchange}
    {past : List Event} (h : ¬x.request.writes key) :
    lastPut key (⟨party, x⟩ :: past) = lastPut key past := by
  obtain ⟨request, answer⟩ := x
  cases request with
  | store call =>
      cases call with
      | put other value => exact if_neg h
      | delete other => rfl
      | get other => rfl
      | has other => rfl
      | list start => rfl
  | _ => rfl

@[simp] theorem lastPut_cons_put {key : BlobKey} {party : Party} {value : ByteArray}
    {answer : Except StoreFault Unit} {past : List Event} :
    lastPut key (⟨party, ⟨.store (.put key value), answer⟩⟩ :: past) = some (party, value) :=
  if_pos rfl

theorem lastPut_cons_ne_none {key : BlobKey} {event : Event} {past : List Event}
    (h : lastPut key past ≠ none) : lastPut key (event :: past) ≠ none := by
  obtain ⟨party, request, answer⟩ := event
  cases request with
  | store call =>
      cases call with
      | put other value =>
          by_cases hkey : other = key
          · subst hkey
            rw [lastPut_cons_put]
            exact Option.some_ne_none _
          · exact (if_neg hkey).trans_ne h
      | _ => exact h
  | _ => exact h

theorem lastPut_ne_none {key : BlobKey} {party : Party} {value : ByteArray}
    {answer : Except StoreFault Unit} {history : List Event}
    (h : ⟨party, ⟨.store (.put key value), answer⟩⟩ ∈ history) :
    lastPut key history ≠ none := by
  induction history with
  | nil => exact absurd h List.not_mem_nil
  | cons event past ih =>
      rcases List.mem_cons.1 h with rfl | hpast
      · rw [lastPut_cons_put]
        exact Option.some_ne_none _
      · exact lastPut_cons_ne_none (ih hpast)

def DealsWithFinished (x : Exchange) : Prop :=
  x = ⟨probe .finished, .ok false⟩ ∨ x = ⟨lower .finished, .ok ()⟩

/-- FINISHED has been dealt with by the producer. -/
def Swept (history : List Event) : Prop :=
  ∃ x, DealsWithFinished x ∧ ⟨.producer 0, x⟩ ∈ history

/-- A poll announced the unit after the producer's sweep had dealt with FINISHED, and
had written its status before that. -/
def FreshlyAnnounced (id : WorkUnitId) (history : List Event) : Prop :=
  ∃ later poll status before,
    history = later ++ ⟨.poll poll, ⟨raise .finished id, .ok ()⟩⟩ :: before ∧ Swept before ∧
      ⟨.poll poll, ⟨report id status, .ok ()⟩⟩ ∈ before

/-- The producer read the status that a poll had written last, after the unit had been
freshly announced. -/
def FreshlyCollected (id : WorkUnitId) (status : Status) (history : List Event) : Prop :=
  ∃ later poll before,
    history = later ++
      ⟨.producer 0, ⟨.store (.get (BlobKey.status id)), .ok (some status.payload)⟩⟩ :: before ∧
      lastPut (BlobKey.status id) before = some (.poll poll, status.payload) ∧
      FreshlyAnnounced id before

section History

variable {id : WorkUnitId} {status : Status} {event : Event} {past : List Event}

theorem Swept.cons (h : Swept past) : Swept (event :: past) := by
  obtain ⟨x, hx, hmem⟩ := h
  exact ⟨x, hx, List.mem_cons_of_mem _ hmem⟩

theorem FreshlyAnnounced.cons (h : FreshlyAnnounced id past) :
    FreshlyAnnounced id (event :: past) := by
  obtain ⟨later, poll, status, before, rfl, hrest⟩ := h
  exact ⟨event :: later, poll, status, before, rfl, hrest⟩

theorem FreshlyCollected.cons (h : FreshlyCollected id status past) :
    FreshlyCollected id status (event :: past) := by
  obtain ⟨later, poll, before, rfl, hrest⟩ := h
  exact ⟨event :: later, poll, before, rfl, hrest⟩

theorem FreshlyAnnounced.reported (h : FreshlyAnnounced id past) :
    lastPut (BlobKey.status id) past ≠ none := by
  obtain ⟨later, poll, status, before, rfl, -, hreport⟩ := h
  exact lastPut_ne_none (List.mem_append_right _ (List.mem_cons_of_mem _ hreport))

end History

/-- The statuses that were written are still there, and polls wrote them. -/
def StatusesStand (contents : Contents) (history : List Event) : Prop :=
  ∀ id party value, lastPut (BlobKey.status id) history = some (party, value) →
    contents (BlobKey.status id) = some value ∧
      ∃ (poll : Nat) (status : Status), party = .poll poll ∧ value = status.payload

/-- What FINISHED holds was announced after the sweep. -/
structure FinishedFresh (contents : Contents) (history : List Event) : Prop where
  swept : Swept history
  fresh : ∀ value, contents (BlobKey.signal .finished) = some value →
    ∃ id : WorkUnitId, value = id.payload ∧ FreshlyAnnounced id history

/-- What holds where the producer of `id` is. -/
def FreshAt (id : WorkUnitId) (contents : Contents) (history : List Event) :
    OfferPhase → Prop
  | .sweeping rest => .finished ∉ rest → FinishedFresh contents history
  | .removing signal rest => .finished ∉ signal :: rest → FinishedFresh contents history
  | .clear => FinishedFresh contents history
  | .waiting => FinishedFresh contents history
  | .peeking => FinishedFresh contents history
  | .seen => FreshlyAnnounced id history
  | .collected entry => ∀ status, entry = some status → FreshlyCollected id status history
  | .returned entry => ∀ status, entry = some status → FreshlyCollected id status history
  | .failed fault => ∀ signal expected observed,
      fault = .protocolViolation signal expected observed →
        signal = .finished ∧ expected = id ∧ observed ≠ id ∧ FreshlyAnnounced observed history

section Phases

variable {id : WorkUnitId} {contents after : Contents} {history : List Event} {event : Event}
  {bot : OfferPhase}

theorem FinishedFresh.cons (h : FinishedFresh contents history)
    (hfinished : ∀ value, after (BlobKey.signal .finished) = some value →
      contents (BlobKey.signal .finished) = some value) :
    FinishedFresh after (event :: history) where
  swept := h.swept.cons
  fresh value hvalue := by
    obtain ⟨unit, hunit, hannounced⟩ := h.fresh value (hfinished value hvalue)
    exact ⟨unit, hunit, hannounced.cons⟩

/-- One more event does no harm when it leaves FINISHED fresh. -/
theorem FreshAt.mono (h : FreshAt id contents history bot)
    (hfresh : FinishedFresh contents history → FinishedFresh after (event :: history)) :
    FreshAt id after (event :: history) bot := by
  cases bot with
  | sweeping rest => exact fun hrest => hfresh (h hrest)
  | removing signal rest => exact fun hrest => hfresh (h hrest)
  | clear => exact hfresh h
  | waiting => exact hfresh h
  | peeking => exact hfresh h
  | seen => exact FreshlyAnnounced.cons h
  | collected entry => exact fun status hentry => (h status hentry).cons
  | returned entry => exact fun status hentry => (h status hentry).cons
  | failed fault =>
      intro signal expected observed hfault
      obtain ⟨hsignal, hexpected, hobserved, hannounced⟩ := h signal expected observed hfault
      exact ⟨hsignal, hexpected, hobserved, hannounced.cons⟩

theorem FinishedFresh.announce {unit : WorkUnitId} {poll : Nat} {status : Status}
    (h : FinishedFresh contents history)
    (hreport : ⟨.poll poll, ⟨report unit status, .ok ()⟩⟩ ∈ history)
    (hfinished : after (BlobKey.signal .finished) = some unit.payload) :
    FinishedFresh after (⟨.poll poll, ⟨raise .finished unit, .ok ()⟩⟩ :: history) where
  swept := h.swept.cons
  fresh value hvalue := by
    refine ⟨unit, Option.some.inj (hvalue.symm.trans hfinished), ?_⟩
    exact ⟨[], poll, status, history, rfl, h.swept, hreport⟩

theorem FinishedFresh.deal {x : Exchange} (hx : DealsWithFinished x)
    (hfinished : after (BlobKey.signal .finished) = none) :
    FinishedFresh after (⟨.producer 0, x⟩ :: history) where
  swept := ⟨x, hx, List.mem_cons_self⟩
  fresh _ hvalue := nomatch hfinished.symm.trans hvalue

end Phases

end Interleaving

end Handoff
