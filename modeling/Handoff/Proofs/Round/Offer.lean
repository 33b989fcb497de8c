import Handoff.Proofs.Conduct
import Handoff.Proofs.Round.Exchange
import Handoff.Round.Producer
/-!
# How an offer goes

The phases of a producer that offers a unit and waits for its status, what it may ask in
each of them, and the proof that `Producer.offerAndWait` asks nothing else, whatever it
is answered.  Before the offer the producer deals with one signal after the other, in
the order of `Signal.all`; `sweeping` holds those that are still to come.
-/

namespace Handoff

inductive OfferPhase where
  | sweeping (rest : List Signal)
  /-- The signal was found up. -/
  | removing (signal : Signal) (rest : List Signal)
  /-- OFFERED was found down after the sweep. -/
  | clear
  | waiting
  /-- The clock was read; a look at FINISHED may come. -/
  | peeking
  /-- FINISHED showed the unit. -/
  | seen
  /-- The status entry read as `status`. -/
  | collected (status : Option Status)
  /-- FINISHED was taken down. -/
  | returned (status : Option Status)
  | failed (fault : RoundFault)

namespace OfferPhase

open WorkRequest

def peek (id : WorkUnitId) : Except StoreFault (Option WorkUnitId) → OfferPhase
  | .ok none => waiting
  | .ok (some found) =>
      if found = id then seen else failed (.protocolViolation .finished id found)
  | .error fault => failed (.store fault)

inductive Moves (id : WorkUnitId) :
    OfferPhase → (request : WorkRequest) → request.Answer → OfferPhase → Prop
  | observe {rest : List Signal} {signal : Signal}
      (answer : Except StoreFault (Option ByteArray)) :
      Moves id (sweeping rest) (look signal) answer (sweeping rest)
  | down {signal : Signal} {rest : List Signal} :
      Moves id (sweeping (signal :: rest)) (probe signal) (.ok false) (sweeping rest)
  | up {signal : Signal} {rest : List Signal} :
      Moves id (sweeping (signal :: rest)) (probe signal) (.ok true) (removing signal rest)
  | sweepFault {signal : Signal} {rest : List Signal} (fault : StoreFault) :
      Moves id (sweeping (signal :: rest)) (probe signal) (.error fault)
        (failed (.store fault))
  | removed {signal : Signal} {rest : List Signal} :
      Moves id (removing signal rest) (lower signal) (.ok ()) (sweeping rest)
  | removeFault {signal : Signal} {rest : List Signal} (fault : StoreFault) :
      Moves id (removing signal rest) (lower signal) (.error fault) (failed (.store fault))
  | free : Moves id (sweeping []) (probe .offered) (.ok false) clear
  | taken : Moves id (sweeping []) (probe .offered) (.ok true) (failed .offeredNotCleared)
  | checkFault (fault : StoreFault) :
      Moves id (sweeping []) (probe .offered) (.error fault) (failed (.store fault))
  | offer : Moves id clear (raise .offered id) (.ok ()) waiting
  | offerFault (fault : StoreFault) :
      Moves id clear (raise .offered id) (.error fault) (failed (.store fault))
  | clock (reading : Nat) : Moves id waiting .now reading peeking
  | clockAgain (reading : Nat) : Moves id peeking .now reading peeking
  | peek (answer : Except StoreFault (Option ByteArray)) :
      Moves id peeking (look .finished) answer
        (peek id (SignalBoard.reading .finished answer))
  | watch {signal : Signal} (answer : Except StoreFault (Option ByteArray)) :
      Moves id waiting (look signal) answer waiting
  | sleep (span : Duration) : Moves id waiting (.sleep span) () waiting
  | collect (entry : Option ByteArray) :
      Moves id seen (.store (.get (BlobKey.status id))) (.ok entry)
        (collected (Archive.statusOf entry))
  | collectFault (fault : StoreFault) :
      Moves id seen (.store (.get (BlobKey.status id))) (.error fault)
        (failed (.store fault))
  | finish {status : Option Status} :
      Moves id (collected status) (lower .finished) (.ok ()) (returned status)
  | finishFault {status : Option Status} (fault : StoreFault) :
      Moves id (collected status) (lower .finished) (.error fault) (failed (.store fault))

inductive SweepMoves : OfferPhase → (request : WorkRequest) → request.Answer → OfferPhase → Prop
  | observe {rest : List Signal} {signal : Signal}
      (answer : Except StoreFault (Option ByteArray)) :
      SweepMoves (sweeping rest) (look signal) answer (sweeping rest)
  | down {signal : Signal} {rest : List Signal} :
      SweepMoves (sweeping (signal :: rest)) (probe signal) (.ok false) (sweeping rest)
  | up {signal : Signal} {rest : List Signal} :
      SweepMoves (sweeping (signal :: rest)) (probe signal) (.ok true) (removing signal rest)
  | sweepFault {signal : Signal} {rest : List Signal} (fault : StoreFault) :
      SweepMoves (sweeping (signal :: rest)) (probe signal) (.error fault) (failed (.store fault))
  | removed {signal : Signal} {rest : List Signal} :
      SweepMoves (removing signal rest) (lower signal) (.ok ()) (sweeping rest)
  | removeFault {signal : Signal} {rest : List Signal} (fault : StoreFault) :
      SweepMoves (removing signal rest) (lower signal) (.error fault) (failed (.store fault))

theorem SweepMoves.moves {id : WorkUnitId} {phase after : OfferPhase} {request : WorkRequest}
    {answer : request.Answer} (h : SweepMoves phase request answer after) :
    Moves id phase request answer after := by
  cases h with
  | observe answer => exact .observe answer
  | down => exact .down
  | up => exact .up
  | sweepFault fault => exact .sweepFault fault
  | removed => exact .removed
  | removeFault fault => exact .removeFault fault

/-- A producer writes in its sweep, with its offer and at the end. -/
theorem Moves.of_writes {id : WorkUnitId} {phase after : OfferPhase} {key : BlobKey}
    {request : WorkRequest} {answer : request.Answer} (h : Moves id phase request answer after)
    (hwrites : request.writes key) :
    (phase = clear ∧ request = raise .offered id) ∨
      (∃ signal rest, phase = removing signal rest ∧ request = lower signal) ∨
      ∃ entry, phase = collected entry ∧ request = lower .finished := by
  cases h with
  | offer => exact .inl ⟨rfl, rfl⟩
  | offerFault fault => exact .inl ⟨rfl, rfl⟩
  | removed => exact .inr (.inl ⟨_, _, rfl, rfl⟩)
  | removeFault fault => exact .inr (.inl ⟨_, _, rfl, rfl⟩)
  | finish => exact .inr (.inr ⟨_, rfl, rfl⟩)
  | finishFault fault => exact .inr (.inr ⟨_, rfl, rfl⟩)
  | _ => exact hwrites.elim

theorem Moves.writes_offered {id : WorkUnitId} {phase after : OfferPhase}
    {request : WorkRequest} {answer : request.Answer} (h : Moves id phase request answer after)
    (hwrites : request.writes (BlobKey.signal .offered)) :
    (phase = clear ∧ request = raise .offered id) ∨
      ∃ rest, phase = removing .offered rest ∧ request = lower .offered := by
  rcases h.of_writes hwrites with hoffer | ⟨signal, rest, rfl, rfl⟩ | ⟨entry, rfl, rfl⟩
  · exact .inl hoffer
  · obtain rfl := BlobKey.signal_injective hwrites
    exact .inr ⟨rest, rfl, rfl⟩
  · exact absurd (BlobKey.signal_injective hwrites) nofun

theorem Moves.not_writes_status {id unit : WorkUnitId} {phase after : OfferPhase}
    {request : WorkRequest} {answer : request.Answer} (h : Moves id phase request answer after) :
    ¬request.writes (BlobKey.status unit) := by
  intro hwrites
  rcases h.of_writes hwrites with ⟨-, rfl⟩ | ⟨signal, rest, -, rfl⟩ | ⟨entry, -, rfl⟩
  · exact BlobKey.signal_ne_status _ _ hwrites
  · exact BlobKey.signal_ne_status _ _ hwrites
  · exact BlobKey.signal_ne_status _ _ hwrites

theorem Moves.ne_put_finished {id : WorkUnitId} {phase after : OfferPhase}
    {request : WorkRequest} {answer : request.Answer} (h : Moves id phase request answer after)
    (value : ByteArray) : request ≠ .store (.put (BlobKey.signal .finished) value) := by
  intro hput
  have hwrites : request.writes (BlobKey.signal .finished) := by
    rw [hput]
    rfl
  rcases h.of_writes hwrites with ⟨-, rfl⟩ | ⟨signal, rest, -, rfl⟩ | ⟨entry, -, rfl⟩
  · exact absurd (BlobKey.signal_injective hwrites) nofun
  · cases hput
  · cases hput

def Ended (id : WorkUnitId) : Except RoundFault (Option Status) → OfferPhase → Prop
  | .ok none, phase => phase = peeking ∨ phase = waiting
  | .ok (some status), phase => phase = returned (some status)
  | .error fault, phase =>
      phase = failed fault ∨ (phase = peeking ∧ ∃ waited, fault = .timeout id waited) ∨
        (phase = returned none ∧ fault = .statusMissing id)

end OfferPhase

namespace Producer

open Program OfferPhase

variable {id : WorkUnitId}

def Swept : Except StoreFault (List Signal) → OfferPhase → Prop
  | .ok _, phase => phase = .sweeping []
  | .error fault, phase => phase = .failed (.store fault)

theorem follows_sweep {signals : List Signal} :
    (Work.ofStorage (SignalBoard.clear signals).run).Follows SweepMoves Swept (.sweeping signals) := by
  induction signals with
  | nil => rfl
  | cons signal rest ih =>
      refine Work.follows_bind fun answer => ?_
      rcases answer with fault | _ | _
      · exact ⟨_, .sweepFault fault, rfl⟩
      · exact ⟨_, .down, ih⟩
      · refine ⟨_, .up, Work.follows_bind fun answer => ?_⟩
        cases answer with
        | error fault => exact ⟨_, .removeFault fault, rfl⟩
        | ok _ =>
            refine ⟨_, .removed, Work.follows_bind (ih.mono fun result phase hresult => ?_)⟩
            cases result with
            | ok cleared => exact hresult
            | error fault => exact hresult

theorem follows_clear {signals : List Signal} :
    (Work.ofStorage (SignalBoard.clear signals).run).Follows (Moves id) Swept
      (.sweeping signals) :=
  follows_sweep.of_moves SweepMoves.moves

def Offered : Except RoundFault Unit → OfferPhase → Prop
  | .ok _, phase => phase = .waiting
  | .error fault, phase => phase = .failed fault

theorem follows_raise :
    (do if ← Work.store (SignalBoard.isUp .offered) then throw .offeredNotCleared
        Work.store (SignalBoard.put .offered id) : WorkM Unit).run.Follows (Moves id)
      Offered (.sweeping []) := by
  refine WorkM.follows_bind (Work.follows_call fun answer => ?_)
  rcases answer with fault | _ | _
  · exact ⟨_, .checkFault fault, rfl⟩
  · refine ⟨_, .free, Work.follows_call fun answer => ?_⟩
    cases answer with
    | ok _ => exact ⟨_, .offer, rfl⟩
    | error fault => exact ⟨_, .offerFault fault, rfl⟩
  · exact ⟨_, .taken, rfl⟩

theorem follows_offer :
    (offer id).run.Follows (Moves id) Offered (.sweeping Signal.all) := by
  unfold offer
  have hobserve (rest : List Signal) :
      (Work.ofStorage (SignalBoard.observe Signal.all)).Follows (Moves id)
        (fun _ phase => phase = .sweeping rest) (.sweeping rest) :=
    Work.follows_observe _ fun _ => .observe
  refine WorkM.follows_bind (WorkM.follows_lift ((hobserve _).mono ?_))
  rintro _ _ rfl
  refine WorkM.follows_bind (Work.follows_store (follows_clear.mono ?_))
  rintro (fault | cleared) phase hphase
  · exact hphase
  · obtain rfl := hphase
    simp only [Work.Lifted, WorkM.Then]
    split
    · exact follows_raise
    · refine WorkM.follows_bind (WorkM.follows_lift ((hobserve _).mono ?_))
      rintro _ _ rfl
      exact follows_raise

def Awaited (id : WorkUnitId) : Except RoundFault Bool → OfferPhase → Prop
  | .ok true, phase => phase = .seen
  | .ok false, phase => phase = .peeking ∨ phase = .waiting
  | .error fault, phase =>
      phase = .failed fault ∨ (phase = .peeking ∧ ∃ waited, fault = .timeout id waited)

theorem follows_read :
    (Work.ofStorage (SignalBoard.read .finished).run).Follows (Moves id)
      (fun result phase => phase = peek id result) .peeking := by
  rw [SignalBoard.run_read]
  exact fun answer => ⟨_, .peek answer, rfl⟩

theorem clock_moves {phase : OfferPhase} (h : phase = .peeking ∨ phase = .waiting)
    (reading : Nat) : Moves id phase .now reading .peeking := by
  rcases h with rfl | rfl
  · exact .clockAgain reading
  · exact .clock reading

theorem follows_await (producer : Producer) (started polls : Nat) {phase : OfferPhase}
    (h : phase = .peeking ∨ phase = .waiting) :
    (producer.await id started polls).run.Follows (Moves id) (Awaited id) phase := by
  induction polls generalizing phase with
  | zero => exact h
  | succ polls ih =>
      unfold await
      refine WorkM.follows_request fun reading => ⟨_, clock_moves h reading, ?_⟩
      dsimp only
      split
      · exact .inr ⟨rfl, _, rfl⟩
      · refine WorkM.follows_bind (Work.follows_store (follows_read.mono ?_))
        rintro (fault | _ | found) _ rfl
        · exact .inl rfl
        · have hobserve : (Work.ofStorage (SignalBoard.observe Signal.all)).Follows (Moves id)
              (fun _ phase => phase = .waiting) .waiting :=
            Work.follows_observe _ fun _ => .watch
          refine WorkM.follows_bind (WorkM.follows_lift (hobserve.mono ?_))
          rintro _ _ rfl
          refine WorkM.follows_request fun _ => ⟨_, .sleep _, ?_⟩
          exact ih (.inr rfl)
        · by_cases hfound : found = id
          · subst hfound
            dsimp only [Work.Lifted, WorkM.Then, peek]
            rw [if_neg (not_not_intro rfl), if_pos rfl]
            rfl
          · dsimp only [Work.Lifted, WorkM.Then, peek]
            rw [if_pos hfound, if_neg hfound]
            exact .inl rfl

theorem follows_readStatus :
    (Work.ofStorage (Archive.readStatus id).run).Follows (Moves id)
      (fun result phase => match result with
        | .ok status => phase = .collected status
        | .error fault => phase = .failed (.store fault)) .seen := by
  rw [Archive.run_readStatus]
  intro answer
  cases answer with
  | ok entry => exact ⟨_, .collect entry, rfl⟩
  | error fault => exact ⟨_, .collectFault fault, rfl⟩

theorem follows_collect : (collect id).run.Follows (Moves id)
    (fun result phase => Ended id (some <$> result) phase) .seen := by
  refine WorkM.follows_bind (Work.follows_store (follows_readStatus.mono ?_))
  rintro (fault | status) _ rfl
  · exact .inl rfl
  · refine WorkM.follows_bind (Work.follows_call fun answer => ?_)
    cases answer with
    | error fault => exact ⟨_, .finishFault fault, .inl rfl⟩
    | ok _ =>
        refine ⟨_, .finish, ?_⟩
        cases status with
        | some status => rfl
        | none => exact .inr (.inr ⟨rfl, rfl⟩)

/-- A producer asks what its phase allows and nothing else, and the way it ends fits the
phase it ends in. -/
theorem follows_offerAndWait (producer : Producer) (polls : Nat) (id : WorkUnitId) :
    (producer.offerAndWait polls id).run.Follows (Moves id) (Ended id)
      (.sweeping Signal.all) := by
  unfold offerAndWait
  refine WorkM.follows_bind (follows_offer.mono ?_)
  rintro (fault | _) _ rfl
  · exact .inl rfl
  · refine WorkM.follows_request fun started => ⟨_, .clock started, ?_⟩
    refine WorkM.follows_bind ((follows_await producer started polls (.inl rfl)).mono ?_)
    rintro (fault | _ | _) phase hphase
    · exact hphase.imp_right .inl
    · exact hphase
    · obtain rfl := hphase
      refine WorkM.follows_bind (follows_collect.mono ?_)
      rintro (fault | status) phase hphase
      · exact hphase
      · exact hphase

end Producer

end Handoff
