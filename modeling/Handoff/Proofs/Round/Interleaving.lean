import Mathlib.Logic.Relation
import Handoff.Proofs.Blob.KeyValue
import Handoff.Proofs.Round.Offer
import Handoff.Proofs.Round.PollRecord
/-!
# Bot and tester on one store

The bot's side and the tester's side of a handoff as two programs that take turns on a
store, one request at a time.  The store answers its calls as its model does; the
checkout, the commands, the reload check and the clock may answer anything.  Two ways of
running them are told apart: in the orderly one, producers come one after the other and
the tester polls; in the unruly one, the tester may also break down between any two
requests and start again.
-/

namespace Handoff

namespace Interleaving

/-- Who makes a request.  Producers are numbered, and so are the polls and recoveries of
the tester, which share one numbering. -/
inductive Party where
  | producer (number : Nat)
  | poll (number : Nat)
  | recovery (number : Nat)
  deriving DecidableEq

structure Event where
  party : Party
  exchange : Exchange

/-- What a producer is asked to do: to offer `id`, looking for the result `polls` times
at most. -/
structure Order where
  producer : Producer
  polls : Nat
  id : WorkUnitId

def Order.program (order : Order) : Program Work (Except RoundFault (Option Status)) :=
  (order.producer.offerAndWait order.polls order.id).run

def pollOf (consumer : Consumer) : Program Work Unit := do
  let _ ← consumer.poll.run

def recoveryOf (consumer : Consumer) : Program Work Unit := do
  let _ ← consumer.recover.run

/-- The store, what is left to do on both sides, and all that happened, the latest event
first. -/
structure State (σ : Type) where
  store : σ
  history : List Event
  /-- The number of the producer. -/
  turn : Nat
  bot : Program Work (Except RoundFault (Option Status))
  /-- The number of the poll or recovery. -/
  shift : Nat
  /-- Who the tester is at present. -/
  seat : Party
  tester : Program Work Unit

/-- How a request may be answered and what it leaves in the store. -/
def Served {σ : Type} (model : StoreModel σ) :
    (request : WorkRequest) → σ → request.Answer → σ → Prop
  | .store call, before, answer, after => model call before = (answer, after)
  | _, before, _, after => after = before

variable {σ : Type} {model : StoreModel σ}

namespace State

def botDid (s : State σ) (x : Exchange) (store : σ)
    (program : Program Work (Except RoundFault (Option Status))) : State σ :=
  { s with store, bot := program, history := ⟨.producer s.turn, x⟩ :: s.history }

def testerDid (s : State σ) (x : Exchange) (store : σ) (program : Program Work Unit) :
    State σ :=
  { s with store, tester := program, history := ⟨s.seat, x⟩ :: s.history }

def nextOffer (orders : Nat → Order) (s : State σ) : State σ :=
  { s with turn := s.turn + 1, bot := (orders (s.turn + 1)).program }

def nextPoll (consumer : Consumer) (s : State σ) : State σ :=
  { s with
    shift := s.shift + 1, seat := .poll (s.shift + 1), tester := pollOf consumer }

def restart (consumer : Consumer) (s : State σ) : State σ :=
  { s with
    shift := s.shift + 1, seat := .recovery (s.shift + 1), tester := recoveryOf consumer }

end State

inductive Acts (model : StoreModel σ) : State σ → State σ → Prop
  | bot {s : State σ} {request : WorkRequest}
      {next : request.Answer → Program Work (Except RoundFault (Option Status))}
      {answer : request.Answer} {store : σ} (asks : s.bot = .ask (I := Work) request next)
      (served : Served model request s.store answer store) :
      Acts model s (s.botDid ⟨request, answer⟩ store (next answer))
  | tester {s : State σ} {request : WorkRequest}
      {next : request.Answer → Program Work Unit}
      {answer : request.Answer} {store : σ}
      (asks : s.tester = .ask (I := Work) request next)
      (served : Served model request s.store answer store) :
      Acts model s (s.testerDid ⟨request, answer⟩ store (next answer))

/-- The next producer starts when the one before it has returned a status, and the next
poll when the one before it has ended. -/
inductive Orderly (model : StoreModel σ) (orders : Nat → Order) : State σ → State σ → Prop
  | act {s t : State σ} (acts : Acts model s t) : Orderly model orders s t
  | offer {s : State σ} {status : Status} (returned : s.bot = .done (.ok (some status))) :
      Orderly model orders s (s.nextOffer orders)
  | poll {s : State σ} (consumer : Consumer) (rests : s.tester = .done ()) :
      Orderly model orders s (s.nextPoll consumer)

/-- There is one producer only, and whatever the tester does may be cut off and followed
by a recovery. -/
inductive Unruly (model : StoreModel σ) : State σ → State σ → Prop
  | act {s t : State σ} (acts : Acts model s t) : Unruly model s t
  | poll {s : State σ} (consumer : Consumer) (rests : s.tester = .done ()) :
      Unruly model s (s.nextPoll consumer)
  | restart {s : State σ} (consumer : Consumer) : Unruly model s (s.restart consumer)

def opening (orders : Nat → Order) (store : σ) : State σ where
  store
  history := []
  turn := 0
  bot := (orders 0).program
  shift := 0
  seat := .poll 0
  tester := .done ()

def startUp (order : Order) (consumer : Consumer) (store : σ) : State σ where
  store
  history := []
  turn := 0
  bot := order.program
  shift := 0
  seat := .recovery 0
  tester := recoveryOf consumer

/-! ## Calls on a store that is a map -/

namespace Served

variable (map : KeyValue model) {before after : σ} {key : BlobKey}
include map

theorem get {answer : Except StoreFault (Option ByteArray)}
    (h : Served model (.store (.get key)) before answer after) :
    answer = .ok (map.contents before key) := by
  have hserved : model (.get key) before = (answer, after) := h
  rw [map.get_eq, Prod.mk.injEq] at hserved
  exact hserved.1.symm

theorem has {answer : Except StoreFault Bool}
    (h : Served model (.store (.has key)) before answer after) :
    answer = .ok (map.contents before key).isSome := by
  have hserved : model (.has key) before = (answer, after) := h
  rw [map.has_eq, Prod.mk.injEq] at hserved
  exact hserved.1.symm

theorem put {value : ByteArray} {answer : Except StoreFault Unit}
    (h : Served model (.store (.put key value)) before answer after) : answer = .ok () := by
  have hserved : model (.put key value) before = (answer, after) := h
  rw [← map.put_fst key value before, hserved]

theorem delete {answer : Except StoreFault Unit}
    (h : Served model (.store (.delete key)) before answer after) : answer = .ok () := by
  have hserved : model (.delete key) before = (answer, after) := h
  rw [← map.delete_fst key before, hserved]

theorem contents {call : StoreCall} {answer : Except StoreFault call.Result}
    (h : Served model (.store call) before answer after) :
    map.contents after = call.effect (map.contents before) := by
  have hserved : model call before = (answer, after) := h
  rw [← map.contents_snd call before, hserved]

theorem contents_of_not_writes {request : WorkRequest} {answer : request.Answer}
    (h : Served model request before answer after) (hkey : ¬request.writes key) :
    map.contents after key = map.contents before key := by
  cases request with
  | store call =>
      rw [h.contents map]
      cases call with
      | put other value => exact Function.update_of_ne (Ne.symm hkey) _ _
      | delete other => exact Function.update_of_ne (Ne.symm hkey) _ _
      | get other => rfl
      | has other => rfl
      | list start => rfl
  | _ => exact congrArg (map.contents · key) h

/-- What is found under a key after a request that puts nothing there was there before. -/
theorem contents_of_ne_put {request : WorkRequest} {answer : request.Answer}
    {value : ByteArray} (h : Served model request before answer after)
    (hput : ∀ value, request ≠ .store (.put key value))
    (hvalue : map.contents after key = some value) : map.contents before key = some value := by
  by_cases hwrites : request.writes key
  · cases request with
    | store call =>
        rw [h.contents map] at hvalue
        cases call with
        | put other written =>
            obtain rfl : other = key := hwrites
            exact absurd rfl (hput written)
        | delete other =>
            obtain rfl : other = key := hwrites
            rw [StoreCall.effect_delete, Function.update_self] at hvalue
            cases hvalue
        | _ => exact hvalue
    | _ => exact hwrites.elim
  · rw [← h.contents_of_not_writes map hwrites]
    exact hvalue

end Served

/-! ## What a history says -/

def recordOf (party : Party) (history : List Event) : List Exchange :=
  (history.filter fun event => event.party = party).map Event.exchange

def Party.producer? : Party → Option Nat
  | producer number => some number
  | _ => none

/-- The producer whose offer OFFERED holds. -/
def standing : List Event → Option Nat
  | [] => none
  | ⟨party, ⟨.store (.put key _), _⟩⟩ :: past =>
      if key = BlobKey.signal .offered then party.producer? else standing past
  | ⟨_, ⟨.store (.delete key), _⟩⟩ :: past =>
      if key = BlobKey.signal .offered then none else standing past
  | _ :: past => standing past

/-- The producer whose offer a poll found when it last looked at OFFERED, which is when
it read the offer: a poll logs the signals first and then reads. -/
def offerRead (poll : Nat) : List Event → Option Nat
  | [] => none
  | ⟨party, ⟨.store (.get key), _⟩⟩ :: past =>
      if party = .poll poll ∧ key = BlobKey.signal .offered then standing past
      else offerRead poll past
  | _ :: past => offerRead poll past

/-- The poll read the offer of the producer and announced its unit. -/
def Answers (orders : Nat → Order) (history : List Event) (poll number : Nat) : Prop :=
  offerRead poll history = some number ∧
    ∃ x ∈ recordOf (.poll poll) history, x.request = .raise .finished (orders number).id

section History

variable {party : Party} {x : Exchange} {past : List Event} {poll number : Nat}
  {orders : Nat → Order}

@[simp] theorem recordOf_nil : recordOf party [] = [] := rfl

@[simp] theorem recordOf_cons_self :
    recordOf party (⟨party, x⟩ :: past) = x :: recordOf party past := by
  simp [recordOf]

theorem recordOf_cons_of_ne {other : Party} (h : other ≠ party) :
    recordOf party (⟨other, x⟩ :: past) = recordOf party past := by
  simp [recordOf, h]

theorem mem_recordOf : x ∈ recordOf party past ↔ ⟨party, x⟩ ∈ past := by
  simp only [recordOf, List.mem_map, List.mem_filter, decide_eq_true_eq]
  constructor
  · rintro ⟨event, ⟨hmem, rfl⟩, rfl⟩
    exact hmem
  · intro hmem
    exact ⟨_, ⟨hmem, rfl⟩, rfl⟩

theorem standing_cons_of_not_writes (h : ¬x.request.writes (BlobKey.signal .offered)) :
    standing (⟨party, x⟩ :: past) = standing past := by
  obtain ⟨request, answer⟩ := x
  cases request with
  | store call =>
      cases call with
      | put key value => exact if_neg h
      | delete key => exact if_neg h
      | get key => rfl
      | has key => rfl
      | list start => rfl
  | _ => rfl

@[simp] theorem standing_raise_offered {producer : Nat} {id : WorkUnitId}
    {answer : Except StoreFault Unit} :
    standing (⟨.producer producer, ⟨.raise .offered id, answer⟩⟩ :: past) = some producer :=
  if_pos rfl

@[simp] theorem standing_lower_offered {answer : Except StoreFault Unit} :
    standing (⟨party, ⟨.lower .offered, answer⟩⟩ :: past) = none :=
  if_pos rfl

theorem offerRead_cons_of_ne_look (h : x.request ≠ .look .offered) :
    offerRead poll (⟨party, x⟩ :: past) = offerRead poll past := by
  obtain ⟨request, answer⟩ := x
  cases request with
  | store call =>
      cases call with
      | get key => exact if_neg fun hkey => h (by rw [hkey.2])
      | put key value => rfl
      | delete key => rfl
      | has key => rfl
      | list start => rfl
  | _ => rfl

theorem offerRead_cons_of_ne (h : party ≠ .poll poll) :
    offerRead poll (⟨party, x⟩ :: past) = offerRead poll past := by
  by_cases hlook : x.request = .look .offered
  · obtain ⟨request, answer⟩ := x
    obtain rfl : request = .look .offered := hlook
    exact if_neg fun hparty => h hparty.1
  · exact offerRead_cons_of_ne_look hlook

@[simp] theorem offerRead_cons_look (answer : Except StoreFault (Option ByteArray)) :
    offerRead poll (⟨.poll poll, ⟨.look .offered, answer⟩⟩ :: past) = standing past :=
  if_pos ⟨rfl, rfl⟩

theorem answers_cons_of_ne (h : party ≠ .poll poll) :
    Answers orders (⟨party, x⟩ :: past) poll number ↔ Answers orders past poll number := by
  unfold Answers
  rw [offerRead_cons_of_ne h, recordOf_cons_of_ne h]

theorem answers_cons_of_quiet (hlook : x.request ≠ .look .offered)
    (hraise : ∀ id, x.request ≠ .raise .finished id) :
    Answers orders (⟨party, x⟩ :: past) poll number ↔ Answers orders past poll number := by
  by_cases hparty : party = .poll poll
  · subst hparty
    simp only [Answers, offerRead_cons_of_ne_look hlook, recordOf_cons_self, List.mem_cons,
      exists_eq_or_imp, hraise, false_or]
  · exact answers_cons_of_ne hparty

theorem not_answers_of_calm {failed : Bool} (h : Calm (recordOf (.poll poll) past) failed) :
    ¬Answers orders past poll number := by
  rintro ⟨-, x, hx, hraise⟩
  exact h.1 x hx _ hraise

end History

end Interleaving

end Handoff
