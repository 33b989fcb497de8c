import Handoff.Proofs.Round.Orderly
import Handoff.Proofs.Round.Replay
/-!
# Offers that are struck down

A poll that has run a unit takes OFFERED down before it announces the unit, a poll that
has skipped one only afterwards.  In between the next producer may make its offer, and
then it is that offer which the poll takes down, unread.  No offer is lost in another
way.
-/

namespace Handoff

namespace Interleaving

open WorkRequest

variable {σ : Type} {model : StoreModel σ} {map : KeyValue model} {orders : Nat → Order}

def Event.readsOffer : Event → Bool
  | ⟨.poll _, ⟨.store (.get key), _⟩⟩ => decide (key = BlobKey.signal .offered)
  | _ => false

/-- A poll has looked at OFFERED while the offer of the producer stood. -/
def wasRead (number : Nat) : List Event → Bool
  | [] => false
  | event :: past =>
      (event.readsOffer && decide (standing past = some number)) || wasRead number past

theorem wasRead_cons {number : Nat} {event : Event} {past : List Event}
    (h : wasRead number past = true) : wasRead number (event :: past) = true := by
  rw [wasRead, h, Bool.or_true]

theorem wasRead_of_offerRead {poll number : Nat} {history : List Event}
    (h : offerRead poll history = some number) : wasRead number history = true := by
  induction history with
  | nil => cases h
  | cons event past ih =>
      obtain ⟨party, x⟩ := event
      by_cases hparty : party = .poll poll
      · by_cases hlook : x.request = .look .offered
        · subst hparty
          obtain ⟨request, answer⟩ := x
          obtain rfl : request = .look .offered := hlook
          rw [offerRead_cons_look] at h
          simp [wasRead, Event.readsOffer, h]
        · rw [offerRead_cons_of_ne_look hlook] at h
          exact wasRead_cons (ih h)
      · rw [offerRead_cons_of_ne hparty] at h
        exact wasRead_cons (ih h)

/-- A poll that had skipped the unit of the producer before took the offer down. -/
def StruckDown (orders : Nat → Order) (history : List Event) (number : Nat) : Prop :=
  ∃ later poll answer past earlier,
    history = later ++ ⟨.poll poll, ⟨lower .offered, answer⟩⟩ :: past ∧
      standing past = some number ∧ number = earlier + 1 ∧
      offerRead poll past = some earlier ∧
      ⟨.checkOut (orders earlier).id, .ok none⟩ ∈ recordOf (.poll poll) past

theorem StruckDown.cons {number : Nat} {event : Event} {past : List Event}
    (h : StruckDown orders past number) : StruckDown orders (event :: past) number := by
  obtain ⟨later, poll, answer, before, earlier, rfl, hrest⟩ := h
  exact ⟨event :: later, poll, answer, before, earlier, rfl, hrest⟩

/-- No offer is lost but one that is struck down. -/
def Accounted (orders : Nat → Order) (history : List Event) (number : Nat) : Prop :=
  wasRead number history = true ∨ standing history = some number ∨
    StruckDown orders history number

theorem Accounted.cons {number : Nat} {party : Party} {x : Exchange} {past : List Event}
    (h : Accounted orders past number)
    (hstanding : standing past = some number →
      Accounted orders (⟨party, x⟩ :: past) number) :
    Accounted orders (⟨party, x⟩ :: past) number := by
  rcases h with hread | hstand | hstruck
  · exact .inl (wasRead_cons hread)
  · exact hstanding hstand
  · exact .inr (.inr hstruck.cons)

/-- What the poll that takes OFFERED down is about to remove. -/
structure Lowering (orders : Nat → Order) (s : State σ) (number : Nat) : Prop where
  /-- The poll has read the offer of the producer. -/
  read : offerRead s.shift s.history = some number
  /-- Exactly until the next producer makes its offer, this is all that can be there. -/
  own : (standing s.history = none ∨ standing s.history = some number) ↔
    ¬Made orders s.history (number + 1)
  /-- When that offer has been made it is the one that goes, and the unit was skipped
  and is announced. -/
  late : Made orders s.history (number + 1) →
    standing s.history = some (number + 1) ∧ s.turn = number + 1 ∧
      ⟨.checkOut (orders number).id, .ok none⟩ ∈ recordOf (.poll s.shift) s.history ∧
      ⟨raise .finished (orders number).id, .ok ()⟩ ∈ recordOf (.poll s.shift) s.history

namespace Invariant

variable {s t : State σ} {bot : OfferPhase} {tester : PollPhase} {progress : Progress}

/-- While the poll that has answered is under way, the next producer has made its offer
when the round is open again. -/
private theorem made_next {ran : Bool} {number : Nat}
    (h : Invariant map orders s bot tester progress)
    (htrailing : (s.view map).Trailing ran number progress) :
    Made orders s.history (number + 1) ↔ progress = .opened := by
  rw [h.ledger.made]
  cases htrailing with
  | same current left =>
      have hturn : number = s.turn := current
      simp only [reduceCtorEq, iff_false]
      omega
  | next late left =>
      have hturn : number + 1 = s.turn := late
      simp [hturn]
  | overtaken late standing =>
      have hturn : number + 1 = s.turn := late
      simp [hturn]

/-- A poll that may take OFFERED down has read an offer, and what stands is that offer
or, if it has skipped the unit, the next one. -/
theorem lowering (h : Invariant map orders s bot tester progress)
    (hphase : tester.MayLowerOffered) : ∃ number, Lowering orders s number := by
  have hat := h.testerAt
  cases tester with
  | claimed id =>
      have hnext : ¬Made orders s.history (s.turn + 1) := by
        rw [h.ledger.made]
        omega
      exact ⟨s.turn, hat.read, iff_of_true (.inr hat.standing) hnext,
        fun hmade => absurd hmade hnext⟩
  | announced ran id status =>
      obtain rfl : ran = false := hphase
      obtain ⟨number, hread, rfl, htrailing⟩ := hat
      obtain ⟨-, -, hraised, hmissed⟩ := h.account
      have hnext := h.made_next htrailing
      refine ⟨number, hread, ?_, fun hmade => ?_⟩
      · rw [hnext]
        cases htrailing with
        | same current left => exact iff_of_true (left.imp_right And.right) nofun
        | next late left => exact iff_of_true (left.imp_right And.right) nofun
        | overtaken late standing =>
            have hturn : number + 1 = s.turn := late
            have hstanding : Interleaving.standing s.history = some s.turn := standing
            rw [hstanding]
            refine iff_of_false ?_ (not_not_intro rfl)
            rintro (hnone | hsome)
            · cases hnone
            · have := Option.some.inj hsome
              omega
      · obtain rfl := hnext.1 hmade
        cases htrailing with
        | overtaken late standing =>
            have hturn : number + 1 = s.turn := late
            exact ⟨hturn ▸ standing, hturn.symm, hmissed rfl, hraised⟩
  | clearing => exact hat.elim
  | _ => exact hphase.elim

theorem read_of_removing {rest : List Signal} {number : Nat}
    (h : Invariant map orders s (.removing .offered rest) tester progress)
    (hstanding : standing s.history = some number) : wasRead number s.history = true := by
  change (s.view map).standing = some number at hstanding
  obtain ⟨rfl, -⟩ := h.botAt
  rcases h.testerAt.of_ne_opened nofun with ⟨hnone, -⟩ | ⟨ran, id, status, rfl⟩
  · rw [hnone] at hstanding
    cases hstanding
  · obtain ⟨other, hread, -, htrailing⟩ := h.testerAt
    cases htrailing with
    | next late left =>
        rcases left with hnone | ⟨-, hother⟩
        · rw [hnone] at hstanding
          cases hstanding
        · obtain rfl := Option.some.inj (hother.symm.trans hstanding)
          exact wasRead_of_offerRead hread

private theorem accounted_bot {request : WorkRequest} {answer : request.Answer}
    {after : OfferPhase} {number : Nat} (h : Invariant map orders s bot tester progress)
    (hmove : OfferPhase.Moves (orders s.turn).id bot request answer after)
    (hall : ∀ number, Made orders s.history number → Accounted orders s.history number)
    (hmade : Made orders (⟨.producer s.turn, ⟨request, answer⟩⟩ :: s.history) number) :
    Accounted orders (⟨.producer s.turn, ⟨request, answer⟩⟩ :: s.history) number := by
  by_cases hwrites : request.writes (BlobKey.signal .offered)
  · rcases hmove.writes_offered hwrites with ⟨rfl, rfl⟩ | ⟨rest, rfl, rfl⟩
    · have hnone : standing s.history = none := h.botAt.2.offered List.not_mem_nil
      rcases made_producer.1 hmade with ⟨rfl, -⟩ | hold
      · exact .inr (.inl standing_raise_offered)
      · exact (hall number hold).cons fun hstanding => nomatch hnone.symm.trans hstanding
    · rcases made_producer.1 hmade with ⟨-, hoffer⟩ | hold
      · cases hoffer
      · exact (hall number hold).cons fun hstanding =>
          .inl (wasRead_cons (h.read_of_removing hstanding))
  · rcases made_producer.1 hmade with ⟨-, hoffer⟩ | hold
    · obtain rfl : request = raise .offered _ := hoffer
      exact absurd rfl hwrites
    · refine (hall number hold).cons fun hstanding => .inr (.inl ?_)
      rw [standing_cons_of_not_writes hwrites]
      exact hstanding

/-- A poll that takes OFFERED down has read the offer that goes, or strikes it down. -/
private theorem accounted_lower {answer : Except StoreFault Unit} {number : Nat}
    (h : Invariant map orders s bot tester progress) (hphase : tester.MayLowerOffered)
    (hstanding : standing s.history = some number) :
    Accounted orders (⟨.poll s.shift, ⟨lower .offered, answer⟩⟩ :: s.history) number := by
  obtain ⟨earlier, hlowering⟩ := h.lowering hphase
  by_cases hnext : Made orders s.history (earlier + 1)
  · obtain ⟨hlate, -, hmissed, -⟩ := hlowering.late hnext
    obtain rfl := Option.some.inj (hlate.symm.trans hstanding)
    exact .inr (.inr ⟨[], s.shift, answer, s.history, earlier, rfl, hstanding, rfl,
      hlowering.read, hmissed⟩)
  · rcases hlowering.own.2 hnext with hnone | hown
    · rw [hnone] at hstanding
      cases hstanding
    · obtain rfl := Option.some.inj (hown.symm.trans hstanding)
      exact .inl (wasRead_cons (wasRead_of_offerRead hlowering.read))

private theorem accounted_tester {request : WorkRequest} {answer : request.Answer}
    {after : PollPhase} {number : Nat} (h : Invariant map orders s bot tester progress)
    (hmove : PollPhase.Moves tester request answer after)
    (hall : ∀ number, Made orders s.history number → Accounted orders s.history number)
    (hmade : Made orders (⟨.poll s.shift, ⟨request, answer⟩⟩ :: s.history) number) :
    Accounted orders (⟨.poll s.shift, ⟨request, answer⟩⟩ :: s.history) number := by
  refine (hall number (made_poll.1 hmade)).cons fun hstanding => ?_
  by_cases hwrites : request.writes (BlobKey.signal .offered)
  · obtain ⟨rfl, hphase⟩ := hmove.writes_offered hwrites
    exact h.accounted_lower hphase hstanding
  · refine .inr (.inl ?_)
    rw [standing_cons_of_not_writes hwrites]
    exact hstanding

/-- Every offer stays accounted for. -/
theorem accounted_step (h : Invariant map orders s bot tester progress)
    (hstep : Orderly model orders s t)
    (hall : ∀ number, Made orders s.history number → Accounted orders s.history number)
    (number : Nat) (hmade : Made orders t.history number) :
    Accounted orders t.history number := by
  cases hstep with
  | offer returned => exact hall number hmade
  | poll consumer rests => exact hall number hmade
  | act acts =>
      cases acts with
      | @bot request next answer store asks served =>
          obtain ⟨after, hmove, -⟩ := Program.Follows.step (asks ▸ h.botFollows) answer
          exact h.accounted_bot hmove hall hmade
      | @tester request next answer store asks served =>
          obtain ⟨after, hmove, -⟩ := Program.Follows.step (asks ▸ h.testerFollows) answer
          rw [h.history_testerDid] at hmade ⊢
          exact h.accounted_tester hmove hall hmade

end Invariant

/-- When a poll takes OFFERED down it removes the offer that it has read or nothing,
unless it has skipped the unit and the next producer has already made its offer.  Every
offer is read by a poll, or still stands, or has been struck down in that way. -/
theorem offers_accounted {store : σ} {s : State σ} (map : KeyValue model)
    (free : map.contents store (BlobKey.signal .offered) = none)
    (run : Relation.ReflTransGen (Orderly model orders) (opening orders store) s) :
    (∀ next, s.tester = .ask (I := Work) (lower .offered) next →
      ∃ number, Lowering orders s number) ∧
    ∀ number, Made orders s.history number → Accounted orders s.history number := by
  have hopening := Invariant.opening orders free
  constructor
  · intro next asks
    obtain ⟨bot, tester, progress, h⟩ := hopening.run run
    obtain ⟨after, hmove, -⟩ := Program.Follows.step (asks ▸ h.testerFollows)
      (Except.ok () : (lower .offered).Answer)
    exact h.lowering (hmove.writes_offered rfl).2
  · induction run with
    | refl =>
        rintro number ⟨x, hx, -⟩
        exact absurd hx List.not_mem_nil
    | tail hbefore hstep ih =>
        obtain ⟨bot, tester, progress, h⟩ := hopening.run hbefore
        exact h.accounted_step hstep ih

/-! ### An offer that is struck down -/

def claiming : List Turn :=
  List.replicate 8 .bot ++ .poll idler :: List.replicate 8 .tester

theorem offers_accounted_on_claim : ∃ s : State MemoryStore,
    Relation.ReflTransGen (Orderly MemoryStore.answer twoUnits)
      (opening twoUnits StringMap.empty) s ∧
    (∃ next, s.tester = .ask (I := Work) (lower .offered) next) ∧
    (∃ number, Lowering twoUnits s number) ∧
    ∀ number, Made twoUnits s.history number → Accounted twoUnits s.history number := by
  have hplay : ((opening twoUnits (StringMap.empty : MemoryStore)).playAll
      MemoryStore.answer (steady some none) twoUnits claiming).map State.testerCall? =
      some (some (.delete (BlobKey.signal .offered))) := by
    decide +kernel
  obtain ⟨s, hs, hcall⟩ := Option.map_eq_some_iff.1 hplay
  obtain ⟨next, hnext⟩ := State.asks_of_testerCall? hcall
  have hrun := State.reaches_of_playAll State.orderly_of_play (by decide) hs
  obtain ⟨hlowering, haccounted⟩ := offers_accounted MemoryStore.keyValue rfl hrun
  exact ⟨s, hrun, ⟨next, hnext⟩, hlowering next hnext, haccounted⟩

/-- A poll skips the first unit and announces it, the first producer collects and the
second one sweeps and makes its offer. -/
def overtaking : List Turn :=
  List.replicate 8 .bot ++ .poll idler :: List.replicate 8 .tester ++ List.replicate 5 .bot ++
    .offer :: List.replicate 12 .bot

theorem offer_struck_down : ∃ s t : State MemoryStore,
    Relation.ReflTransGen (Orderly MemoryStore.answer twoUnits)
      (opening twoUnits StringMap.empty) s ∧
    (∃ next, s.tester = .ask (I := Work) (lower .offered) next) ∧
    offerRead s.shift s.history = some 0 ∧ standing s.history = some 1 ∧
    Orderly MemoryStore.answer twoUnits s t ∧
    standing t.history = none ∧ wasRead 1 t.history = false := by
  have hplay : ((opening twoUnits (StringMap.empty : MemoryStore)).playAll
      MemoryStore.answer (steady (fun _ => none) none) twoUnits overtaking).bind (fun s =>
        (s.play MemoryStore.answer (steady (fun _ => none) none) twoUnits .tester).map fun t =>
          (s.testerCall?, offerRead s.shift s.history, standing s.history,
            standing t.history, wasRead 1 t.history)) =
      some (some (.delete (BlobKey.signal .offered)), some 0, some 1, none, false) := by
    decide +kernel
  obtain ⟨s, hs, hlast⟩ := Option.bind_eq_some_iff.1 hplay
  obtain ⟨t, ht, hresult⟩ := Option.map_eq_some_iff.1 hlast
  simp only [Prod.mk.injEq] at hresult
  obtain ⟨hcall, hread, hstanding, hnone, hunread⟩ := hresult
  exact ⟨s, t, State.reaches_of_playAll State.orderly_of_play (by decide) hs,
    State.asks_of_testerCall? hcall, hread, hstanding, State.orderly_of_play rfl ht, hnone,
    hunread⟩

end Interleaving

end Handoff
