import Handoff.Proofs.Round.Interleaving
/-!
# What matters of a state

The part of a state that decides how an orderly round goes on: the numbers of the
producer and the poll, whose offer stands, whose offer the poll has read, and what
FINISHED and the statuses hold.  Most requests leave all of it alone.
-/

namespace Handoff

/-- The request writes no signal but CLAIMED, and no status. -/
structure WorkRequest.Quiet (request : WorkRequest) : Prop where
  offered : ¬request.writes (BlobKey.signal .offered)
  finished : ¬request.writes (BlobKey.signal .finished)
  status : ∀ id, ¬request.writes (BlobKey.status id)

namespace WorkRequest.Quiet

theorem get (key : BlobKey) : Quiet (.store (.get key)) :=
  ⟨id, id, fun _ => id⟩

theorem has (key : BlobKey) : Quiet (.store (.has key)) :=
  ⟨id, id, fun _ => id⟩

theorem checkOut (unit : WorkUnitId) : Quiet (.checkOut unit) :=
  ⟨id, id, fun _ => id⟩

theorem reloadWanted : Quiet .reloadWanted :=
  ⟨id, id, fun _ => id⟩

theorem run (command : Command) (limit : Option Duration) : Quiet (.run command limit) :=
  ⟨id, id, fun _ => id⟩

theorem now : Quiet .now :=
  ⟨id, id, fun _ => id⟩

theorem sleep (span : Duration) : Quiet (.sleep span) :=
  ⟨id, id, fun _ => id⟩

theorem raise_claimed (unit : WorkUnitId) : Quiet (raise .claimed unit) :=
  ⟨by simp [writes], by simp [writes], by simp [writes]⟩

theorem lower_claimed : Quiet (lower .claimed) :=
  ⟨by simp [writes], by simp [writes], by simp [writes]⟩

theorem put_log (unit : WorkUnitId) (label : CommandLabel) (field : LogField)
    (content : ByteArray) : Quiet (.store (.put (BlobKey.log unit label field) content)) :=
  ⟨by simp [writes], by simp [writes], by simp [writes]⟩

theorem ne_raise_offered {request : WorkRequest} (h : Quiet request) (unit : WorkUnitId) :
    request ≠ raise .offered unit := by
  rintro rfl
  exact h.offered rfl

theorem ne_raise_finished {request : WorkRequest} (h : Quiet request) (unit : WorkUnitId) :
    request ≠ raise .finished unit := by
  rintro rfl
  exact h.finished rfl

end WorkRequest.Quiet

namespace Interleaving

open WorkRequest

/-- What matters of a state in an orderly round. -/
@[ext]
structure View where
  turn : Nat
  shift : Nat
  /-- The producer whose offer OFFERED holds. -/
  standing : Option Nat
  /-- The producer whose offer the poll has read. -/
  read : Option Nat
  finished : Option ByteArray
  status : WorkUnitId → Option ByteArray

variable {σ : Type} {model : StoreModel σ}

def view (map : KeyValue model) (turn shift : Nat) (history : List Event) (store : σ) : View where
  turn
  shift
  standing := standing history
  read := offerRead shift history
  finished := map.contents store (BlobKey.signal .finished)
  status id := map.contents store (BlobKey.status id)

def State.view (map : KeyValue model) (s : State σ) : View :=
  Interleaving.view map s.turn s.shift s.history s.store

section Exchanges

variable (map : KeyValue model) (turn shift : Nat) (history : List Event) (party : Party)
  {before after : σ}

/-- A quiet exchange changes the view only where it reads the offer. -/
theorem view_of_quiet {request : WorkRequest} {answer : request.Answer}
    (h : Served model request before answer after) (hquiet : request.Quiet)
    (hlook : party ≠ .poll shift ∨ request ≠ look .offered) :
    view map turn shift (⟨party, ⟨request, answer⟩⟩ :: history) after =
      view map turn shift history before := by
  have hread : offerRead shift (⟨party, ⟨request, answer⟩⟩ :: history) =
      offerRead shift history := by
    rcases hlook with hparty | hlook
    · exact offerRead_cons_of_ne hparty
    · exact offerRead_cons_of_ne_look hlook
  refine View.ext rfl rfl ?_ hread ?_ ?_
  · exact standing_cons_of_not_writes hquiet.offered
  · exact h.contents_of_not_writes map hquiet.finished
  · exact funext fun id => h.contents_of_not_writes map (hquiet.status id)

theorem view_look {answer : Except StoreFault (Option ByteArray)}
    (h : Served model (look .offered) before answer after) :
    view map turn shift (⟨.poll shift, ⟨look .offered, answer⟩⟩ :: history) after =
      { view map turn shift history before with read := standing history } := by
  refine View.ext rfl rfl rfl (offerRead_cons_look answer) ?_ ?_
  · exact h.contents_of_not_writes map id
  · exact funext fun unit => h.contents_of_not_writes map id

theorem view_offer (number : Nat) {unit : WorkUnitId} {answer : Except StoreFault Unit}
    (h : Served model (raise .offered unit) before answer after) :
    view map turn shift (⟨.producer number, ⟨raise .offered unit, answer⟩⟩ :: history) after =
      { view map turn shift history before with standing := some number } := by
  refine View.ext rfl rfl ?_ (offerRead_cons_of_ne_look nofun) ?_ ?_
  · simp only [view, standing_raise_offered]
  · exact h.contents_of_not_writes map (by simp [writes])
  · exact funext fun other => h.contents_of_not_writes map (by simp [writes])

theorem view_lower_offered {answer : Except StoreFault Unit}
    (h : Served model (lower .offered) before answer after) :
    view map turn shift (⟨party, ⟨lower .offered, answer⟩⟩ :: history) after =
      { view map turn shift history before with standing := none } := by
  refine View.ext rfl rfl ?_ (offerRead_cons_of_ne_look nofun) ?_ ?_
  · simp only [view, standing_lower_offered]
  · exact h.contents_of_not_writes map (by simp [writes])
  · exact funext fun other => h.contents_of_not_writes map (by simp [writes])

theorem view_announce {unit : WorkUnitId} {answer : Except StoreFault Unit}
    (h : Served model (raise .finished unit) before answer after) :
    view map turn shift (⟨party, ⟨raise .finished unit, answer⟩⟩ :: history) after =
      { view map turn shift history before with finished := some unit.payload } := by
  refine View.ext rfl rfl ?_ (offerRead_cons_of_ne_look nofun) ?_ ?_
  · exact standing_cons_of_not_writes (by simp [writes])
  · change map.contents after _ = _
    rw [h.contents map, StoreCall.effect_put, Function.update_self]
  · exact funext fun other => h.contents_of_not_writes map (by simp [writes])

theorem view_lower_finished {answer : Except StoreFault Unit}
    (h : Served model (lower .finished) before answer after) :
    view map turn shift (⟨party, ⟨lower .finished, answer⟩⟩ :: history) after =
      { view map turn shift history before with finished := none } := by
  refine View.ext rfl rfl ?_ (offerRead_cons_of_ne_look nofun) ?_ ?_
  · exact standing_cons_of_not_writes (by simp [writes])
  · change map.contents after _ = _
    rw [h.contents map, StoreCall.effect_delete, Function.update_self]
  · exact funext fun other => h.contents_of_not_writes map (by simp [writes])

theorem view_report {unit : WorkUnitId} {status : Status} {answer : Except StoreFault Unit}
    (h : Served model (report unit status) before answer after) :
    view map turn shift (⟨party, ⟨report unit status, answer⟩⟩ :: history) after =
      { view map turn shift history before with
        status := Function.update (view map turn shift history before).status unit
          (some status.payload) } := by
  refine View.ext rfl rfl ?_ (offerRead_cons_of_ne_look nofun) ?_ ?_
  · exact standing_cons_of_not_writes (by simp [writes])
  · exact h.contents_of_not_writes map (by simp [writes])
  · funext other
    simp only [view, h.contents map, StoreCall.effect_put]
    by_cases hother : other = unit
    · subst hother
      rw [Function.update_self, Function.update_self]
    · rw [Function.update_of_ne hother, Function.update_of_ne (by simpa using hother)]

end Exchanges

end Interleaving

end Handoff
