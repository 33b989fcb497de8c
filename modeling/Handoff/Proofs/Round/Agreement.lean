import Handoff.Proofs.Round.Orderly
import Handoff.Proofs.Round.Replay
/-!
# Agreement

A producer that returns a status was answered by exactly one poll, which read its offer
and decided that status, and no poll answers two producers.  The only fault that a
producer comes to is that it has waited too long.
-/

namespace Handoff

namespace Interleaving

open WorkRequest

variable {σ : Type} {model : StoreModel σ} {map : KeyValue model} {orders : Nat → Order}

/-- The poll, and no other, answered the producer and nobody else, with the status. -/
structure Agreed (orders : Nat → Order) (history : List Event) (number : Nat)
    (status : Status) (poll : Nat) : Prop where
  only : ∀ other, Answers orders history other number ↔ other = poll
  nobodyElse : ∀ other, Answers orders history poll other → other = number
  decided : verdict (recordOf (.poll poll) history) = status
  reported : ⟨report (orders number).id status, .ok ()⟩ ∈ recordOf (.poll poll) history
  missed : (∃ id, ⟨.checkOut id, .ok none⟩ ∈ recordOf (.poll poll) history) → status = .passed

namespace Invariant

variable {s t : State σ} {bot : OfferPhase} {tester : PollPhase} {progress : Progress}

/-- An answer that has been given is not taken back. -/
theorem answers_step {poll number : Nat} (h : Invariant map orders s bot tester progress)
    (hstep : Orderly model orders s t) (hanswers : Answers orders s.history poll number) :
    Answers orders t.history poll number ∧
      verdict (recordOf (.poll poll) t.history) = verdict (recordOf (.poll poll) s.history) := by
  cases hstep with
  | act acts =>
      cases acts with
      | bot asks served =>
          exact ⟨answers_producer.2 hanswers, congrArg verdict recordOf_poll_producer⟩
      | @tester request next answer store asks served =>
          obtain ⟨after, hmove, -⟩ := Program.Follows.step (asks ▸ h.testerFollows) answer
          rw [h.history_testerDid]
          exact ⟨answers_stays h.account hmove hanswers,
            verdict_poll h.account hmove hanswers⟩
  | offer returned => exact ⟨hanswers, rfl⟩
  | poll consumer rests => exact ⟨hanswers, rfl⟩

theorem answers_run {poll number : Nat} (h : Invariant map orders s bot tester progress)
    (hrun : Relation.ReflTransGen (Orderly model orders) s t)
    (hanswers : Answers orders s.history poll number) :
    Answers orders t.history poll number ∧
      verdict (recordOf (.poll poll) t.history) = verdict (recordOf (.poll poll) s.history) := by
  induction hrun with
  | refl => exact ⟨hanswers, rfl⟩
  | tail hbefore hstep ih =>
      obtain ⟨_, _, _, hmiddle⟩ := h.run hbefore
      obtain ⟨hlater, hverdict⟩ := ih
      obtain ⟨hlast, hsame⟩ := hmiddle.answers_step hstep hlater
      exact ⟨hlast, hsame.trans hverdict⟩

theorem agreed {poll number : Nat} (h : Invariant map orders s bot tester progress)
    (hanswers : Answers orders s.history poll number) :
    Agreed orders s.history number (verdict (recordOf (.poll poll) s.history)) poll where
  only other := by
    constructor
    · exact h.ledger.unique number poll other hanswers
    · rintro rfl
      exact hanswers
  nobodyElse other hother := Option.some.inj (hother.1.symm.trans hanswers.1)
  decided := rfl
  reported := by
    obtain ⟨-, x, hx, hraise⟩ := hanswers
    have hsublist := h.ledger.honest poll x hx _ hraise
    exact hsublist.mem (by simp)
  missed := h.ledger.lenient poll

/-- A producer ends with a fault only when it has waited too long. -/
theorem fault_eq_timeout {fault : RoundFault} (h : Invariant map orders s bot tester progress)
    (hends : s.bot = .done (.error fault)) :
    ∃ waited, fault = .timeout (orders s.turn).id waited := by
  have hat := h.botAt
  rcases h.botFollows.ends hends with rfl | ⟨-, htimeout⟩ | ⟨rfl, -⟩
  · exact hat.elim
  · exact htimeout
  · cases progress with
    | preparing => exact hat.elim
    | opened => exact hat.elim
    | answered poll status => cases hat

end Invariant

/-- Producers that come one after the other, and a tester that polls on their store: a
producer fails only by a timeout, and one that returns a status was answered by exactly
one poll, with the status that this poll decided, whatever happens afterwards. -/
theorem agreement {store : σ} {s : State σ} (map : KeyValue model)
    (free : map.contents store (BlobKey.signal .offered) = none)
    (run : Relation.ReflTransGen (Orderly model orders) (opening orders store) s) :
    (∀ fault, s.bot = .done (.error fault) →
      ∃ waited, fault = .timeout (orders s.turn).id waited) ∧
    ∀ status, s.bot = .done (.ok (some status)) →
      ∀ t, Relation.ReflTransGen (Orderly model orders) s t →
        ∃ poll, Agreed orders t.history s.turn status poll := by
  obtain ⟨bot, tester, progress, h⟩ := (Invariant.opening orders free).run run
  refine ⟨fun fault hends => h.fault_eq_timeout hends, fun status hends t hlater => ?_⟩
  obtain ⟨-, poll, rfl⟩ := h.answered hends
  have hanswers : Answers orders s.history poll s.turn :=
    (h.ledger.current poll).2 ⟨status, rfl⟩
  obtain ⟨hstill, hverdict⟩ := h.answers_run hlater hanswers
  obtain ⟨_, _, _, hlast⟩ := h.run hlater
  have hagreed := hlast.agreed hstill
  rw [hverdict, h.ledger.told poll status rfl] at hagreed
  exact ⟨poll, hagreed⟩

/-! ### Two rounds for one unit -/

/-- The producer sweeps and offers, a poll runs the unit, the producer collects. -/
def wholeRound : List Turn :=
  List.replicate 8 .bot ++ .poll builder :: List.replicate 17 .tester ++
    List.replicate 5 .bot

theorem agreement_on_retry : ∃ s : State MemoryStore,
    Relation.ReflTransGen (Orderly MemoryStore.answer retries)
      (opening retries StringMap.empty) s ∧
    s.bot = .done (.ok (some .failed)) ∧ ∃ poll, Agreed retries s.history 1 .failed poll := by
  have hplay : ((opening retries (StringMap.empty : MemoryStore)).playAll MemoryStore.answer
      (steady some (some brokenBuild)) retries (wholeRound ++ .offer :: wholeRound)).map
        (fun s => (s.turn, s.returned?)) = some (1, some .failed) := by
    decide +kernel
  obtain ⟨s, hs, hresult⟩ := Option.map_eq_some_iff.1 hplay
  obtain ⟨hturn, hreturned⟩ := Prod.mk.inj hresult
  have hrun := State.reaches_of_playAll State.orderly_of_play (by decide) hs
  have hbot := State.bot_of_returned? hreturned
  have hagreed := (agreement MemoryStore.keyValue rfl hrun).2 .failed hbot s .refl
  rw [hturn] at hagreed
  exact ⟨s, hrun, hbot, hagreed⟩

end Interleaving

end Handoff
