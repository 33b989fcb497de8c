import Handoff.Proofs.Blob.Running
import Handoff.Proofs.Conversation
import Handoff.Proofs.Round.Grounds
/-!
# Offers that predate a recovery

A consumer, from the start of its recovery on, at a store that others use as well.  Every store
call may break down, its own as much as another's, before or after it has taken effect.  A fresh
consumer has dealt with OFFERED before it polls, so that what it finds there has been put there
since.
-/

namespace Handoff

open Program WorkRequest

def CallFate.lands : CallFate → Bool
  | .lost _ => false
  | _ => true

/-- What becomes of a request, by its fate. -/
inductive Fares {σ : Type} (model : StoreModel σ) :
    (request : WorkRequest) → CallFate → σ → request.Answer → σ → Prop
  | served {request : WorkRequest} {before after : σ} {answer : request.Answer}
      (served : Interleaving.Served model request before answer after) :
      Fares model request .served before answer after
  | lost {call : StoreCall} {before : σ} (fault : StoreFault) :
      Fares model (.store call) (.lost fault) before (.error fault) before
  | hidden {call : StoreCall} {before : σ} (fault : StoreFault) :
      Fares model (.store call) (.hidden fault) before (.error fault) (model call before).2

namespace Duty

inductive Actor where
  | consumer
  | other
  deriving DecidableEq

structure Event where
  actor : Actor
  exchange : Exchange
  fate : CallFate

def Event.Sets (key : BlobKey) (event : Event) : Prop :=
  event.exchange.request.writes key ∧ event.fate.lands = true

def record (history : List Event) : List Exchange :=
  (history.filter fun event => event.actor = .consumer).map Event.exchange

def talk (history : List Event) : Work.Talk :=
  ((record history).map fun x => ⟨x.request, x.answer⟩).reverse

section Cons

variable {x : Exchange} {fate : CallFate} {past : List Event}

@[simp] theorem record_consumer : record (⟨.consumer, x, fate⟩ :: past) = x :: record past := by
  simp [record]

@[simp] theorem record_other : record (⟨.other, x, fate⟩ :: past) = record past := by
  simp [record]

@[simp] theorem talk_consumer :
    talk (⟨.consumer, x, fate⟩ :: past) = talk past ++ [⟨x.request, x.answer⟩] := by
  simp [talk]

@[simp] theorem talk_other : talk (⟨.other, x, fate⟩ :: past) = talk past := by
  simp [talk]

end Cons

end Duty

/-- A consumer on duty: the store, all that has happened, the latest event first, and what is left
to do. -/
structure Duty (σ : Type) where
  store : σ
  history : List Duty.Event
  rest : Program Work (Except RoundFault (Option ConsumerExit))

namespace Duty

variable {σ : Type} {model : StoreModel σ}

/-- The consumer makes its next request, or somebody else makes a store call. -/
inductive Goes (model : StoreModel σ) : Duty σ → Duty σ → Prop
  | own {d : Duty σ} {request : WorkRequest} {fate : CallFate}
      {next : request.Answer → Program Work (Except RoundFault (Option ConsumerExit))}
      {answer : request.Answer} {store : σ} (asks : d.rest = .ask (I := Work) request next)
      (fares : Fares model request fate d.store answer store) :
      Goes model d ⟨store, ⟨.consumer, ⟨request, answer⟩, fate⟩ :: d.history, next answer⟩
  | other {d : Duty σ} {call : StoreCall} {fate : CallFate}
      {answer : Except StoreFault call.Result} {store : σ}
      (fares : Fares model (.store call) fate d.store answer store) :
      Goes model d ⟨store, ⟨.other, ⟨.store call, answer⟩, fate⟩ :: d.history, d.rest⟩

def start (consumer : Consumer) (once : Bool) (polls : Nat) (store : σ) : Duty σ where
  store
  history := []
  rest := (consumer.run once polls).run

/-! ## What a history says -/

def DealsWithOffered (x : Exchange) : Prop :=
  x = ⟨probe .offered, .ok false⟩ ∨ x = ⟨lower .offered, .ok ()⟩

/-- The recovery of the consumer has dealt with OFFERED: up to there the consumer has said nothing
that is not part of its recovery. -/
def Dealt (consumer : Consumer) (history : List Event) : Prop :=
  ∃ x fate before rest, ⟨.consumer, x, fate⟩ :: before <:+ history ∧ DealsWithOffered x ∧
    Converses consumer.recover.run (talk (⟨.consumer, x, fate⟩ :: before)) rest

/-- OFFERED holds what another has put there, after the recovery had dealt with it. -/
inductive Renewed (consumer : Consumer) (value : ByteArray) : List Event → Prop
  | put {answer : Except StoreFault Unit} {fate : CallFate} {past : List Event}
      (lands : fate.lands = true) (dealt : Dealt consumer past) :
      Renewed consumer value
        (⟨.other, ⟨.store (.put (BlobKey.signal .offered) value), answer⟩, fate⟩ :: past)
  | later {event : Event} {past : List Event} (spares : ¬event.Sets (BlobKey.signal .offered))
      (earlier : Renewed consumer value past) : Renewed consumer value (event :: past)

/-- When the consumer last looked at OFFERED it read the unit from an offer that had been put there
after the recovery had dealt with OFFERED. -/
inductive NewlyRead (consumer : Consumer) (id : WorkUnitId) : List Event → Prop
  | look {payload : ByteArray} {fate : CallFate} {past : List Event}
      (decodes : SignalBoard.decodePayload .offered payload = .ok id)
      (renewed : Renewed consumer payload past) :
      NewlyRead consumer id
        (⟨.consumer, ⟨WorkRequest.look .offered, .ok (some payload)⟩, fate⟩ :: past)
  | later {event : Event} {past : List Event}
      (other : event.actor = .other ∨ event.exchange.request ≠ WorkRequest.look .offered)
      (earlier : NewlyRead consumer id past) : NewlyRead consumer id (event :: past)

end Duty

/-- The request takes a unit on: it asks for a checkout, runs a command or puts something. -/
def WorkRequest.TakesOn : WorkRequest → Prop
  | .checkOut _ => True
  | .run _ _ => True
  | .store (.put _ _) => True
  | _ => False

/-- The request is made for the unit, after the exchanges of `past`. -/
inductive WorkRequest.IsFor (id : WorkUnitId) (past : List Exchange) : WorkRequest → Prop
  | checkOut : IsFor id past (.checkOut id)
  /-- The last checkout was that of the unit. -/
  | run {command : Command} {limit : Option Duration}
      (out : (checkOuts past).head? = some (id, .ok (some id))) : IsFor id past (.run command limit)
  | log (label : CommandLabel) (field : LogField) (content : ByteArray) :
      IsFor id past (.store (.put (BlobKey.log id label field) content))
  | status (status : Status) : IsFor id past (report id status)
  | claim : IsFor id past (raise .claimed id)
  | finish : IsFor id past (raise .finished id)

namespace Duty

/-- The request may be made: if it takes a unit on, this has been read from a new offer. -/
def Permitted (consumer : Consumer) (history : List Event) (request : WorkRequest) : Prop :=
  request.TakesOn → ∃ id, request.IsFor id (record history) ∧ NewlyRead consumer id history

/-- The consumer has taken on no units but those that it had read from new offers. -/
def Lawful (consumer : Consumer) (history : List Event) : Prop :=
  ∀ x fate before, ⟨.consumer, x, fate⟩ :: before <:+ history →
    Permitted consumer before x.request

end Duty

/-! ## The moves of a poll -/

namespace PollPhase

def CheckedOut (record : List Exchange) : PollPhase → Prop
  | arrived id found => (checkOuts record).head? = some (id, .ok (some found))
  | ready id => (checkOuts record).head? = some (id, .ok (some id))
  | claimed id => (checkOuts record).head? = some (id, .ok (some id))
  | running id _ => (checkOuts record).head? = some (id, .ok (some id))
  | _ => True

variable {phase after : PollPhase} {request : WorkRequest} {answer : request.Answer}
  {record : List Exchange}

theorem CheckedOut.step (h : phase.CheckedOut record) (moves : Moves phase request answer after) :
    after.CheckedOut (⟨request, answer⟩ :: record) := by
  have hkeep (hother : (⟨request, answer⟩ : Exchange).checkOut? = none) :
      checkOuts (⟨request, answer⟩ :: record) = checkOuts record :=
    checkOuts_cons_of_none hother
  cases moves with
  | arrive found => rfl
  | agree => exact (congrArg List.head? (hkeep rfl)).trans h
  | run command answer => exact (congrArg List.head? (hkeep rfl)).trans h
  | cleanUp command limit answer => exact (congrArg List.head? (hkeep rfl)).trans h
  | archive label field content answer => exact (congrArg List.head? (hkeep rfl)).trans h
  | write result writes =>
      cases writes with
      | claim => exact (congrArg List.head? (hkeep rfl)).trans h
      | take => exact (congrArg List.head? (hkeep rfl)).trans h
      | _ => trivial
  | _ => trivial

theorem Rests.checkedOut (h : phase.Rests) : phase.CheckedOut record := by
  cases phase with
  | arrived id found => exact h.elim
  | ready id => exact h.elim
  | claimed id => exact h.elim
  | running id failed => exact h.elim
  | _ => trivial

theorem Moves.isFor (moves : Moves phase request answer after) (h : phase.CheckedOut record)
    (htakes : request.TakesOn) : ∃ id, phase.unit? = some id ∧ request.IsFor id record := by
  have hwrites {id : WorkUnitId} {call : StoreCall} {later : PollPhase}
      (writes : Writes id phase call later) (htakes : (WorkRequest.store call).TakesOn) :
      ∃ id, phase.unit? = some id ∧ (WorkRequest.store call).IsFor id record := by
    refine ⟨id, writes.unit?.1, ?_⟩
    cases writes with
    | excuse => exact .status .passed
    | claim => exact .claim
    | judge => exact .status _
    | announce => exact .finish
    | _ => exact htakes.elim
  cases moves with
  | stuck fault => exact ⟨_, rfl, .checkOut⟩
  | missing => exact ⟨_, rfl, .checkOut⟩
  | arrive found => exact ⟨_, rfl, .checkOut⟩
  | run command answer => exact ⟨_, rfl, .run h⟩
  | cleanUp command limit answer => exact ⟨_, rfl, .run h⟩
  | archive label field content answer => exact ⟨_, rfl, .log label field content⟩
  | write result writes => exact hwrites writes htakes
  | fault fault writes => exact hwrites writes htakes
  | _ => exact htakes.elim

end PollPhase

/-! ## The recovery -/

namespace Consumer

variable {consumer : Consumer} {first : Work.Talk}

def Recovered : Except RoundFault (List Signal) → OfferPhase → Prop
  | .ok _, phase => phase = .sweeping []
  | .error fault, phase => ∃ cause, fault = .store cause ∧ phase = .failed (.store cause)

theorem follows_recover_fresh (h : consumer.start = .fresh) :
    consumer.recover.run.Follows OfferPhase.SweepMoves Recovered (.sweeping Signal.all) := by
  unfold recover
  rw [h]
  have hobserve : (Work.ofStorage (SignalBoard.observe Signal.all)).Follows
      OfferPhase.SweepMoves (fun _ phase => phase = .sweeping Signal.all)
      (.sweeping Signal.all) := Work.follows_observe _ fun _ => .observe
  refine WorkM.follows_bind (WorkM.follows_lift (hobserve.mono ?_))
  rintro _ _ rfl
  refine Work.follows_store (Producer.follows_sweep.mono ?_)
  intro result phase hphase
  cases result with
  | ok cleared => exact hphase
  | error fault => exact ⟨fault, rfl, hphase⟩

theorem fault_of_recover {fault : RoundFault} (hfresh : consumer.start = .fresh)
    (h : Converses consumer.recover.run first (done (.error fault))) :
    ∃ cause, fault = .store cause := by
  obtain ⟨phase, -, cause, hfault, -⟩ := (follows_recover_fresh hfresh).converses h
  exact ⟨cause, hfault⟩

theorem eq_of_failed {here : Program Work (Except RoundFault (List Signal))} {cause : StoreFault}
    (h : here.Follows OfferPhase.SweepMoves Recovered (.failed (.store cause))) :
    here = done (.error (.store cause)) := by
  cases here with
  | ask request next =>
      obtain ⟨after, hmove, -⟩ := h.step (Interleaving.steady some none request)
      cases hmove
  | done result =>
      cases result with
      | ok cleared => cases h
      | error fault =>
          obtain ⟨other, rfl, hphase⟩ := h
          cases hphase
          rfl

/-- A call of the recovery that breaks down ends it, unless the recovery only looks. -/
theorem recover_of_fault {call : StoreCall} {cause : StoreFault}
    {here : Program Work (Except RoundFault (List Signal))} (hfresh : consumer.start = .fresh)
    (h : Converses consumer.recover.run (first ++ [⟨.store call, .error cause⟩]) here)
    (hlook : ∀ key, call ≠ .get key) : here = done (.error (.store cause)) := by
  obtain ⟨before, hfirst, hlast⟩ := h.split
  obtain ⟨phase, -, hfollows⟩ := (follows_recover_fresh hfresh).converses hfirst
  cases hlast with
  | ask later =>
      obtain rfl := converses_nil.1 later
      obtain ⟨after, hmove, hnext⟩ := hfollows.step (.error cause)
      cases hmove with
      | observe answer => exact absurd rfl (hlook _)
      | sweepFault fault => exact eq_of_failed hnext
      | removeFault fault => exact eq_of_failed hnext

def afterRecovery (consumer : Consumer) (once : Bool) (polls : Nat) :
    Except RoundFault (List Signal) → Program Work (Except RoundFault (Option ConsumerExit))
  | .ok _ => (consumer.loop once polls).run
  | .error fault => done (.error fault)

theorem run_eq (consumer : Consumer) (once : Bool) (polls : Nat) :
    (consumer.run once polls).run =
      consumer.recover.run >>= consumer.afterRecovery once polls := by
  unfold run
  rw [ExceptT.run_bind]
  refine congrArg (consumer.recover.run >>= ·) (funext fun result => ?_)
  cases result <;> rfl

end Consumer

namespace Fares

variable {σ : Type} {model : StoreModel σ} {map : KeyValue model} {before after : σ}
  {request : WorkRequest} {answer : request.Answer} {fate : CallFate}

theorem endured (h : Fares model request fate before answer after) :
    Endured model request before answer after := by
  cases h with
  | served served => exact .served served
  | lost fault => exact .lost fault
  | hidden fault => exact .hidden fault

theorem contents_of_lands {call : StoreCall} {answer : Except StoreFault call.Result}
    (h : Fares model (.store call) fate before answer after) (hlands : fate.lands = true) :
    map.contents after = call.effect (map.contents before) := by
  cases h with
  | served served => exact served.contents map
  | lost fault => cases hlands
  | hidden fault => exact map.contents_snd call before

theorem contents_of_spared {key : BlobKey} (h : Fares model request fate before answer after)
    (hspared : ¬(request.writes key ∧ fate.lands = true)) :
    map.contents after key = map.contents before key := by
  by_cases hwrites : request.writes key
  · cases h with
    | served served => exact absurd ⟨hwrites, rfl⟩ hspared
    | lost fault => rfl
    | hidden fault => exact absurd ⟨hwrites, rfl⟩ hspared
  · exact h.endured.contents_of_not_writes map hwrites

end Fares

namespace Duty

section Cons

variable {consumer : Consumer} {event : Event} {past : List Event}

theorem Dealt.cons (h : Dealt consumer past) : Dealt consumer (event :: past) := by
  obtain ⟨x, fate, before, rest, hpast, hdeals, hsaid⟩ := h
  exact ⟨x, fate, before, rest, hpast.trans (List.suffix_cons event past), hdeals, hsaid⟩

theorem Lawful.cons (h : Lawful consumer past)
    (hevent : event.actor = .consumer → Permitted consumer past event.exchange.request) :
    Lawful consumer (event :: past) := by
  intro x fate before hsuffix
  rcases List.suffix_cons_iff.1 hsuffix with hlast | hpast
  · cases hlast
    exact hevent rfl
  · exact h x fate before hpast

end Cons

/-- The recovery has dealt with OFFERED, and what is there has been put there since. -/
structure Fresh (consumer : Consumer) (contents : Contents) (history : List Event) : Prop where
  dealt : Dealt consumer history
  renewed : ∀ value, contents (BlobKey.signal .offered) = some value →
    Renewed consumer value history

def SweptAt (consumer : Consumer) (contents : Contents) (history : List Event) :
    OfferPhase → Prop
  | .sweeping rest => .offered ∉ rest → Fresh consumer contents history
  | .removing signal rest => .offered ∉ signal :: rest → Fresh consumer contents history
  | _ => True

variable {σ : Type} {model : StoreModel σ} {map : KeyValue model} {consumer : Consumer}
  {store later : σ} {history : List Event} {request : WorkRequest} {answer : request.Answer}
  {fate : CallFate}

theorem Fresh.step {actor : Actor} (h : Fresh consumer (map.contents store) history)
    (fares : Fares model request fate store answer later)
    (hown : actor = .consumer → ∀ value, request ≠ .store (.put (BlobKey.signal .offered) value)) :
    Fresh consumer (map.contents later) (⟨actor, ⟨request, answer⟩, fate⟩ :: history) where
  dealt := h.dealt.cons
  renewed value hvalue := by
    by_cases hsets : Event.Sets (BlobKey.signal .offered) ⟨actor, ⟨request, answer⟩, fate⟩
    · obtain ⟨hwrites, hlands⟩ := hsets
      cases request with
      | store call =>
          rw [fares.contents_of_lands hlands] at hvalue
          cases call with
          | put key written =>
              obtain rfl : key = BlobKey.signal .offered := hwrites
              rw [StoreCall.effect_put, Function.update_self, Option.some.injEq] at hvalue
              subst hvalue
              cases actor with
              | consumer => exact absurd rfl (hown rfl written)
              | other => exact .put hlands h.dealt
          | delete key =>
              obtain rfl : key = BlobKey.signal .offered := hwrites
              rw [StoreCall.effect_delete, Function.update_self] at hvalue
              cases hvalue
          | _ => exact hwrites.elim
      | _ => exact hwrites.elim
    · rw [fares.contents_of_spared hsets] at hvalue
      exact .later hsets (h.renewed value hvalue)

theorem contents_of_deals (fares : Fares model request fate store answer later)
    (hdeals : DealsWithOffered ⟨request, answer⟩) :
    map.contents later (BlobKey.signal .offered) = none := by
  rcases hdeals with hdown | htaken
  · cases hdown
    have hfound : (map.contents store (BlobKey.signal .offered)).isSome = false :=
      (Except.ok.inj (fares.endured.ok.has map)).symm
    calc
      map.contents later (BlobKey.signal .offered)
          = map.contents store (BlobKey.signal .offered) :=
        fares.contents_of_spared fun hsets => hsets.1
      _ = none := by simpa using hfound
  · cases htaken
    rw [fares.endured.ok.contents map, StoreCall.effect_delete, Function.update_self]

theorem Fresh.deal {rest : Program Work (Except RoundFault (List Signal))}
    (fares : Fares model request fate store answer later)
    (hdeals : DealsWithOffered ⟨request, answer⟩)
    (said : Converses consumer.recover.run
      (talk (⟨.consumer, ⟨request, answer⟩, fate⟩ :: history)) rest) :
    Fresh consumer (map.contents later) (⟨.consumer, ⟨request, answer⟩, fate⟩ :: history) where
  dealt := ⟨_, fate, history, rest, List.suffix_refl _, hdeals, said⟩
  renewed _ hvalue := nomatch (contents_of_deals fares hdeals).symm.trans hvalue

theorem SweptAt.step {phase after : OfferPhase}
    {rest : Program Work (Except RoundFault (List Signal))}
    (h : SweptAt consumer (map.contents store) history phase)
    (moves : OfferPhase.SweepMoves phase request answer after)
    (fares : Fares model request fate store answer later)
    (said : Converses consumer.recover.run
      (talk (⟨.consumer, ⟨request, answer⟩, fate⟩ :: history)) rest) :
    SweptAt consumer (map.contents later) (⟨.consumer, ⟨request, answer⟩, fate⟩ :: history)
      after := by
  have hnext {signal : Signal} {left : List Signal}
      (hfresh : .offered ∉ signal :: left → Fresh consumer (map.contents store) history)
      (hdeals : signal = .offered → DealsWithOffered ⟨request, answer⟩)
      (hput : ∀ value, request ≠ .store (.put (BlobKey.signal .offered) value))
      (hleft : .offered ∉ left) :
      Fresh consumer (map.contents later) (⟨.consumer, ⟨request, answer⟩, fate⟩ :: history) := by
    by_cases hsignal : signal = .offered
    · exact .deal fares (hdeals hsignal) said
    · have hunswept := List.not_mem_cons_of_ne_of_not_mem (Ne.symm hsignal) hleft
      exact (hfresh hunswept).step fares fun _ => hput
  cases moves with
  | observe answer => exact fun hrest => (h hrest).step fares fun _ _ => nofun
  | down => exact hnext h (fun hsignal => hsignal ▸ .inl rfl) nofun
  | up => exact fun hrest => (h hrest).step fares fun _ _ => nofun
  | removed => exact hnext h (fun hsignal => hsignal ▸ .inr rfl) nofun
  | sweepFault fault => trivial
  | removeFault fault => trivial

theorem SweptAt.mono {contents after : Contents} {phase : OfferPhase} {event : Event}
    (h : SweptAt consumer contents history phase)
    (hfresh : Fresh consumer contents history → Fresh consumer after (event :: history)) :
    SweptAt consumer after (event :: history) phase := by
  cases phase with
  | sweeping rest => exact fun hrest => hfresh (h hrest)
  | removing signal rest => exact fun hrest => hfresh (h hrest)
  | _ => trivial

/-! ## The polls -/

/-- A unit that a poll has read comes from a new offer. -/
theorem NewlyRead.step {phase after : PollPhase}
    (h : ∀ id, phase.unit? = some id → NewlyRead consumer id history)
    (fresh : Fresh consumer (map.contents store) history)
    (moves : PollPhase.Moves phase request answer after)
    (fares : Fares model request fate store answer later) (id : WorkUnitId)
    (hid : after.unit? = some id) :
    NewlyRead consumer id (⟨.consumer, ⟨request, answer⟩, fate⟩ :: history) := by
  by_cases hlook : request = WorkRequest.look .offered
  · cases moves with
    | look answer =>
        obtain ⟨payload, rfl, hdecodes⟩ := PollPhase.of_unit?_looking hid
        have hheld := Except.ok.inj (fares.endured.ok.get map)
        exact .look hdecodes (fresh.renewed payload hheld.symm)
    | observe answer other =>
        have hkey := StoreCall.get.inj (WorkRequest.store.inj hlook)
        exact absurd (BlobKey.signal_injective hkey) other
    | inspect answer => cases hid
    | write result writes => cases writes <;> cases hlook
    | fault fault writes => cases writes <;> cases hlook
    | _ => cases hlook
  · rw [moves.unit?_of_ne_look hlook] at hid
    exact .later (.inr hlook) (h id hid)

structure PollingAt (consumer : Consumer) (contents : Contents) (history : List Event)
    (phase : PollPhase) : Prop where
  fresh : Fresh consumer contents history
  read : ∀ id, phase.unit? = some id → NewlyRead consumer id history
  checkedOut : phase.CheckedOut (record history)

theorem Fresh.polling {contents : Contents} (h : Fresh consumer contents history) :
    PollingAt consumer contents history (.looking (.ok none)) where
  fresh := h
  read _ hnone := nomatch hnone
  checkedOut := trivial

theorem PollingAt.move {phase after : PollPhase}
    (h : PollingAt consumer (map.contents store) history phase)
    (moves : PollPhase.Moves phase request answer after)
    (fares : Fares model request fate store answer later) :
    PollingAt consumer (map.contents later) (⟨.consumer, ⟨request, answer⟩, fate⟩ :: history)
      after ∧ Permitted consumer history request := by
  have hput (value : ByteArray) : request ≠ .store (.put (BlobKey.signal .offered) value) := by
    rintro rfl
    obtain ⟨hlower, -⟩ := moves.writes_offered rfl
    cases hlower
  constructor
  · refine ⟨h.fresh.step fares fun _ => hput, NewlyRead.step h.read h.fresh moves fares, ?_⟩
    rw [record_consumer]
    exact h.checkedOut.step moves
  · intro htakes
    obtain ⟨id, hid, hfor⟩ := moves.isFor h.checkedOut htakes
    exact ⟨id, hfor, h.read id hid⟩

theorem PollingAt.loop {phase after : PollPhase}
    (h : PollingAt consumer (map.contents store) history phase)
    (moves : PollPhase.LoopMoves phase request answer after)
    (fares : Fares model request fate store answer later) :
    PollingAt consumer (map.contents later) (⟨.consumer, ⟨request, answer⟩, fate⟩ :: history)
      after ∧ Permitted consumer history request := by
  cases moves with
  | poll moves => exact h.move moves fares
  | again rests moves => exact h.fresh.polling.move moves fares
  | pause rests span =>
      refine ⟨⟨h.fresh.step fares fun _ _ => nofun, ?_, rests.checkedOut⟩, ?_⟩
      · exact fun id hid => .later (.inr nofun) (h.read id hid)
      · exact fun htakes => htakes.elim

theorem PollingAt.other {phase : PollPhase} {x : Exchange} {contents after : Contents}
    (h : PollingAt consumer contents history phase)
    (hfresh : Fresh consumer after (⟨.other, x, fate⟩ :: history)) :
    PollingAt consumer after (⟨.other, x, fate⟩ :: history) phase where
  fresh := hfresh
  read id hid := .later (.inl rfl) (h.read id hid)
  checkedOut := by
    rw [record_other]
    exact h.checkedOut

/-! ## Whole runs -/

/-- Where the consumer stands: in its recovery, or in a poll or between two. -/
inductive Stage (map : KeyValue model) (consumer : Consumer) (once : Bool) (polls : Nat)
    (d : Duty σ) : Prop
  | recovering {here : Program Work (Except RoundFault (List Signal))} {phase : OfferPhase}
      (said : Converses consumer.recover.run (talk d.history) here)
      (goes : d.rest = here >>= consumer.afterRecovery once polls)
      (follows : here.Follows OfferPhase.SweepMoves Consumer.Recovered phase)
      (swept : SweptAt consumer (map.contents d.store) d.history phase)
  | polling {phase : PollPhase}
      (follows : d.rest.Follows PollPhase.LoopMoves (fun _ phase => phase.Rests) phase)
      (polls : PollingAt consumer (map.contents d.store) d.history phase)

variable {once : Bool} {polls : Nat} {d : Duty σ}

theorem Stage.other {call : StoreCall} {answer : Except StoreFault call.Result}
    (h : Stage map consumer once polls d)
    (fares : Fares model (.store call) fate d.store answer later) :
    Stage map consumer once polls
      ⟨later, ⟨.other, ⟨.store call, answer⟩, fate⟩ :: d.history, d.rest⟩ := by
  cases h with
  | recovering said goes follows swept =>
      refine .recovering ?_ goes follows (swept.mono fun hfresh => hfresh.step fares nofun)
      rw [talk_other]
      exact said
  | polling follows polls =>
      exact .polling follows (polls.other (polls.fresh.step fares nofun))

theorem Stage.own {next : request.Answer → Program Work (Except RoundFault (Option ConsumerExit))}
    (h : Stage map consumer once polls d) (asks : d.rest = .ask (I := Work) request next)
    (fares : Fares model request fate d.store answer later) :
    Stage map consumer once polls
      ⟨later, ⟨.consumer, ⟨request, answer⟩, fate⟩ :: d.history, next answer⟩ ∧
      Permitted consumer d.history request := by
  have hloop {phase : PollPhase}
      (hfollows : d.rest.Follows PollPhase.LoopMoves (fun _ phase => phase.Rests) phase)
      (hpolls : PollingAt consumer (map.contents d.store) d.history phase) :
      Stage map consumer once polls
        ⟨later, ⟨.consumer, ⟨request, answer⟩, fate⟩ :: d.history, next answer⟩ ∧
        Permitted consumer d.history request := by
    rw [asks] at hfollows
    obtain ⟨after, hmove, hnext⟩ := hfollows.step answer
    obtain ⟨hafter, hpermitted⟩ := hpolls.loop hmove fares
    exact ⟨.polling hnext hafter, hpermitted⟩
  cases h with
  | polling follows polls => exact hloop follows polls
  | @recovering here phase said goes follows swept =>
      match here, said, goes, follows with
      | .ask _ wait, said, goes, follows =>
          cases goes.symm.trans asks
          obtain ⟨after, hmove, hnext⟩ := follows.step answer
          have hsaid : Converses consumer.recover.run
              (talk (⟨.consumer, ⟨request, answer⟩, fate⟩ :: d.history)) (wait answer) := by
            rw [talk_consumer]
            exact said.snoc answer
          refine ⟨.recovering hsaid rfl hnext (swept.step hmove fares hsaid), fun htakes => ?_⟩
          cases hmove <;> exact htakes.elim
      | .done (.error fault), said, goes, follows => cases goes.symm.trans asks
      -- The recovery is over, and the first poll begins.
      | .done (.ok cleared), said, goes, follows =>
          obtain rfl : phase = .sweeping [] := follows
          refine hloop ?_ (swept List.not_mem_nil).polling
          rw [goes]
          exact consumer.follows_loop once polls trivial

theorem stage_start (hfresh : consumer.start = .fresh) (once : Bool) (polls : Nat) (store : σ) :
    Stage map consumer once polls (start consumer once polls store) :=
  .recovering (.pause _) (consumer.run_eq once polls) (Consumer.follows_recover_fresh hfresh)
    fun hswept => absurd (Signal.mem_all .offered) hswept

/-- All that a fresh consumer has done is lawful, whatever others do. -/
theorem stage_of_reaches (hfresh : consumer.start = .fresh)
    (hrun : Relation.ReflTransGen (Goes model) (start consumer once polls store) d) :
    Stage map consumer once polls d ∧ Lawful consumer d.history := by
  induction hrun with
  | refl =>
      exact ⟨stage_start hfresh once polls store, fun _ _ _ hnil => by cases List.suffix_nil.1 hnil⟩
  | tail _ goes ih =>
      obtain ⟨hstage, hlawful⟩ := ih
      cases goes with
      | own asks fares =>
          obtain ⟨hafter, hpermitted⟩ := hstage.own asks fares
          exact ⟨hafter, hlawful.cons fun _ => hpermitted⟩
      | other fares => exact ⟨hstage.other fares, hlawful.cons nofun⟩

theorem converses_of_reaches
    (hrun : Relation.ReflTransGen (Goes model) (start consumer once polls store) d) :
    Converses (consumer.run once polls).run (talk d.history) d.rest := by
  induction hrun with
  | refl => exact .pause _
  | tail _ goes ih =>
      cases goes with
      | own asks fares =>
          rw [asks] at ih
          rw [talk_consumer]
          exact ih.snoc _
      | other fares =>
          rw [talk_other]
          exact ih

theorem rest_of_failed {first : Work.Talk} {fault : RoundFault}
    (hrun : Relation.ReflTransGen (Goes model) (start consumer once polls store) d)
    (hfirst : first <+: talk d.history)
    (hfailed : Converses consumer.recover.run first (done (.error fault))) :
    talk d.history = first ∧ d.rest = done (.error fault) := by
  obtain ⟨second, hsecond⟩ := hfirst
  have hall := converses_of_reaches hrun
  rw [← hsecond, Consumer.run_eq] at hall
  have hover : Converses (consumer.afterRecovery once polls (.error fault)) second d.rest :=
    hfailed.of_bind hall
  obtain ⟨rfl, hrest⟩ := converses_done.1 hover
  exact ⟨by rw [← hsecond, List.append_nil], hrest⟩

/-- Run a fresh consumer on any store, with anything in its signals, while others make any store
calls, and let calls break down before or after they take effect.  Whatever it checks out, runs or
puts is for the unit that it has read when it last looked at OFFERED, from an offer which another
had put there after the recovery had dealt with OFFERED.  When the recovery fails, which it does at
every call that breaks down, those apart by which it only looks, it has failed by the fault of the
store, the run has ended with this fault, and no poll has begun. -/
theorem new_offers_only (map : KeyValue model) (hfresh : consumer.start = .fresh) (once : Bool)
    (polls : Nat) (store : σ) {d : Duty σ}
    (hrun : Relation.ReflTransGen (Goes model) (start consumer once polls store) d) :
    Lawful consumer d.history ∧
      (∀ first fault, first <+: talk d.history →
        Converses consumer.recover.run first (done (.error fault)) →
        (∃ cause, fault = .store cause) ∧ talk d.history = first ∧ d.rest = done (.error fault)) ∧
      ∀ (first : Work.Talk) (call : StoreCall) (cause : StoreFault)
        (here : Program Work (Except RoundFault (List Signal))),
        first ++ [⟨.store call, .error cause⟩] <+: talk d.history →
        Converses consumer.recover.run (first ++ [⟨.store call, .error cause⟩]) here →
        (∀ key, call ≠ .get key) →
        talk d.history = first ++ [⟨.store call, .error cause⟩] ∧
          d.rest = done (.error (.store cause)) := by
  have hstage : Stage map consumer once polls d ∧ Lawful consumer d.history :=
    stage_of_reaches hfresh hrun
  refine ⟨hstage.2, ?_, ?_⟩
  · intro first fault hfirst hfailed
    exact ⟨Consumer.fault_of_recover hfresh hfailed, rest_of_failed hrun hfirst hfailed⟩
  · intro first call cause here hfirst hsaid hlook
    obtain rfl := Consumer.recover_of_fault hfresh hsaid hlook
    exact rest_of_failed hrun hfirst hsaid

/-! ### A run that is played out -/

/-- The duty after some turns, on a store without faults: `none` is a request of the consumer, and
`some call` is a call of another. -/
def play (model : StoreModel σ) (surroundings : (request : WorkRequest) → request.Answer)
    (d : Duty σ) : List (Option StoreCall) → Option (Duty σ)
  | [] => some d
  | some call :: more =>
      play model surroundings
        ⟨(model call d.store).2,
          ⟨.other, ⟨.store call, (model call d.store).1⟩, .served⟩ :: d.history, d.rest⟩ more
  | none :: more =>
      match d.rest with
      | .done _ => none
      | .ask request next =>
          let served := Interleaving.serve model surroundings request d.store
          play model surroundings
            ⟨served.2, ⟨.consumer, ⟨request, served.1⟩, .served⟩ :: d.history, next served.1⟩ more

theorem reaches_of_play {surroundings : (request : WorkRequest) → request.Answer} {d e : Duty σ}
    {turns : List (Option StoreCall)} (h : d.play model surroundings turns = some e) :
    Relation.ReflTransGen (Goes model) d e := by
  induction turns generalizing d with
  | nil =>
      cases h
      exact .refl
  | cons turn more ih =>
      cases turn with
      | some call => exact .head (.other (.served rfl)) (ih h)
      | none =>
          simp only [play] at h
          split at h
          · cases h
          · next request next hrest =>
            have hserved := Interleaving.served_serve model surroundings request d.store
            exact .head (.own hrest (.served hserved)) (ih h)

def justAsked? (d : Duty σ) : Option WorkUnitId :=
  match d.history with
  | ⟨.consumer, ⟨.checkOut id, _⟩, _⟩ :: _ => some id
  | _ => none

theorem history_of_justAsked? {d : Duty σ} {id : WorkUnitId} (h : d.justAsked? = some id) :
    ∃ answer fate before, d.history = ⟨.consumer, ⟨.checkOut id, answer⟩, fate⟩ :: before := by
  unfold justAsked? at h
  split at h
  · next found answer fate before hhistory =>
    cases h
    exact ⟨answer, fate, before, hhistory⟩
  · cases h

end Duty

/-- The recovery takes an old offer down, another offer is put while it goes on, and the consumer
asks for the unit of the new one. -/
theorem new_offer_after_old : ∃ d : Duty MemoryStore,
    Relation.ReflTransGen (Duty.Goes MemoryStore.answer)
      (Duty.start Interleaving.builder true 1 oneOffer) d ∧
    ∃ answer fate before,
      d.history = ⟨.consumer, ⟨.checkOut (Interleaving.twoUnits 1).id, answer⟩, fate⟩ :: before ∧
      Duty.NewlyRead Interleaving.builder (Interleaving.twoUnits 1).id before := by
  let turns : List (Option StoreCall) := List.replicate 5 none ++
    [some (.put (BlobKey.signal .offered) (Interleaving.twoUnits 1).id.payload)] ++
    List.replicate 8 none
  have hplay : (Duty.play MemoryStore.answer (Interleaving.steady some none)
      (Duty.start Interleaving.builder true 1 oneOffer) turns).bind Duty.justAsked? =
        some (Interleaving.twoUnits 1).id := by
    decide +kernel
  obtain ⟨d, hd, hasked⟩ := Option.bind_eq_some_iff.1 hplay
  obtain ⟨answer, fate, before, hhistory⟩ := Duty.history_of_justAsked? hasked
  have hrun := Duty.reaches_of_play hd
  obtain ⟨hlawful, -⟩ := Duty.new_offers_only MemoryStore.keyValue rfl true 1 oneOffer hrun
  rw [hhistory] at hlawful
  obtain ⟨id, hfor, hread⟩ := hlawful _ fate before (List.suffix_refl _) trivial
  cases hfor
  exact ⟨d, hrun, answer, fate, before, hhistory, hread⟩

end Handoff
