import Handoff.Proofs.Round.Orderly
import Handoff.Proofs.Round.Replay
/-!
# Signals that agree

A side raises the next signal before it takes the one before it down, and the last poll
may still be taking CLAIMED down when the next producer sweeps.  So signals overlap; but
in an orderly run that starts with none of them up, those that are up at one moment
stand for the same unit, they are never all up, and only OFFERED is when it is raised.
-/

namespace Handoff

namespace Interleaving

open WorkRequest

variable {σ : Type} {model : StoreModel σ} {map : KeyValue model} {orders : Nat → Order}

namespace Served

variable {before after : σ} {signal : Signal} {id : WorkUnitId} {answer : Except StoreFault Unit}

theorem lowered (map : KeyValue model) (h : Served model (lower signal) before answer after) :
    map.contents after (BlobKey.signal signal) = none := by
  rw [h.contents map, StoreCall.effect_delete, Function.update_self]

theorem raised (map : KeyValue model)
    (h : Served model (raise signal id) before answer after) :
    map.contents after (BlobKey.signal signal) = some id.payload := by
  rw [h.contents map, StoreCall.effect_put, Function.update_self]

theorem lower_keeps (map : KeyValue model)
    (h : Served model (lower signal) before answer after) (other : Signal)
    (hne : signal ≠ other) :
    map.contents after (BlobKey.signal other) = map.contents before (BlobKey.signal other) :=
  h.contents_of_not_writes map fun hwrites => hne (BlobKey.signal_injective hwrites)

theorem raise_keeps (map : KeyValue model)
    (h : Served model (raise signal id) before answer after) (other : Signal)
    (hne : signal ≠ other) :
    map.contents after (BlobKey.signal other) = map.contents before (BlobKey.signal other) :=
  h.contents_of_not_writes map fun hwrites => hne (BlobKey.signal_injective hwrites)

end Served

/-- What the phase of the producer for `id` says about the signals of the tester. -/
def SweepAt (contents : Contents) (id : WorkUnitId) : OfferPhase → Prop
  | .sweeping rest =>
      contents (BlobKey.signal .finished) = none ∧
        (.claimed ∉ rest → contents (BlobKey.signal .claimed) = none)
  | .removing signal rest =>
      contents (BlobKey.signal .finished) = none ∧
        (.claimed ∉ signal :: rest → contents (BlobKey.signal .claimed) = none)
  | .clear =>
      contents (BlobKey.signal .finished) = none ∧ contents (BlobKey.signal .claimed) = none
  | .collected _ => contents (BlobKey.signal .finished) = some id.payload
  | .returned _ => contents (BlobKey.signal .finished) = none
  | _ => True

/-- What the phase of the poll says about CLAIMED. -/
def ClaimAt (contents : Contents) : PollPhase → Prop
  | .claimed id => contents (BlobKey.signal .claimed) = some id.payload
  | .running id _ => contents (BlobKey.signal .claimed) = some id.payload
  | .judged true id _ => contents (BlobKey.signal .claimed) = some id.payload
  | .announced true id _ =>
      -- The sweep of the next producer may have been faster.
      contents (BlobKey.signal .claimed) = none ∨
        (contents (BlobKey.signal .claimed) = some id.payload ∧
          contents (BlobKey.signal .offered) = none)
  | _ => contents (BlobKey.signal .claimed) = none

section Frame

variable {before after : Contents} {id : WorkUnitId} {bot : OfferPhase} {tester : PollPhase}

theorem SweepAt.mono (h : SweepAt before id bot)
    (hfinished : after (BlobKey.signal .finished) = before (BlobKey.signal .finished))
    (hclaimed : before (BlobKey.signal .claimed) = none →
      after (BlobKey.signal .claimed) = none) : SweepAt after id bot := by
  cases bot with
  | sweeping rest => exact ⟨hfinished.trans h.1, fun hrest => hclaimed (h.2 hrest)⟩
  | removing signal rest => exact ⟨hfinished.trans h.1, fun hrest => hclaimed (h.2 hrest)⟩
  | clear => exact ⟨hfinished.trans h.1, hclaimed h.2⟩
  | collected entry => exact hfinished.trans h
  | returned entry => exact hfinished.trans h
  | _ => trivial

theorem ClaimAt.mono (h : ClaimAt before tester)
    (hclaimed : after (BlobKey.signal .claimed) = before (BlobKey.signal .claimed))
    (hoffered : before (BlobKey.signal .offered) = none →
      after (BlobKey.signal .offered) = none) : ClaimAt after tester := by
  cases tester with
  | judged ran id status => cases ran <;> exact hclaimed.trans h
  | announced ran id status =>
      cases ran with
      | false => exact hclaimed.trans h
      | true =>
          rcases h with hnone | ⟨hsome, hdown⟩
          · exact .inl (hclaimed.trans hnone)
          · exact .inr ⟨hclaimed.trans hsome, hoffered hdown⟩
  | _ => exact hclaimed.trans h

end Frame

/-- The signals fit the phases of the two sides. -/
structure Coherent (map : KeyValue model) (orders : Nat → Order) (s : State σ)
    (bot : OfferPhase) (tester : PollPhase) : Prop where
  sweep : SweepAt (map.contents s.store) (orders s.turn).id bot
  claim : ClaimAt (map.contents s.store) tester

namespace Coherent

variable {s : State σ} {bot : OfferPhase} {tester : PollPhase} {progress : Progress}
  {request : WorkRequest} {answer : request.Answer} {store : σ}

private theorem claim_of_none {contents : Contents}
    (h : Invariant map orders s bot tester progress) (hprogress : progress ≠ .opened)
    (hnone : contents (BlobKey.signal .claimed) = none) : ClaimAt contents tester := by
  rcases h.testerAt.of_ne_opened hprogress with ⟨-, rfl | ⟨id, rfl⟩⟩ | ⟨ran, id, status, rfl⟩
  · exact hnone
  · exact hnone
  · cases ran with
    | false => exact hnone
    | true => exact .inl hnone

private theorem sweep_of_opened {contents : Contents} {id : WorkUnitId}
    (h : Invariant map orders s bot tester .opened) : SweepAt contents id bot := by
  rcases (View.botAt_opened.1 h.botAt).1 with rfl | rfl
  · trivial
  · trivial

private theorem of_same (h : Coherent map orders s bot tester)
    (served : Served model request s.store answer store)
    (hsame : ∀ signal, ¬request.writes (BlobKey.signal signal)) :
    SweepAt (map.contents store) (orders s.turn).id bot ∧
      ClaimAt (map.contents store) tester := by
  have hkeep (signal : Signal) := served.contents_of_not_writes map (hsame signal)
  exact ⟨h.sweep.mono (hkeep _) fun hnone => (hkeep _).trans hnone,
    h.claim.mono (hkeep _) fun hnone => (hkeep _).trans hnone⟩

private theorem bot_removed {signal : Signal} {rest : List Signal} {store : σ}
    (hinv : Invariant map orders s (.removing signal rest) tester progress)
    (h : Coherent map orders s (.removing signal rest) tester)
    (served : Served model (lower signal) s.store (.ok ()) store) :
    SweepAt (map.contents store) (orders s.turn).id (.sweeping rest) ∧
      ClaimAt (map.contents store) tester := by
  obtain ⟨rfl, -⟩ := hinv.botAt
  obtain ⟨hfinished, hclaimed⟩ := h.sweep
  have hdown := served.lowered map
  cases signal with
  | offered =>
      have hsame := served.lower_keeps map .claimed nofun
      refine ⟨⟨?_, fun hrest => hsame.trans (hclaimed (by simp [hrest]))⟩, ?_⟩
      · exact (served.lower_keeps map .finished nofun).trans hfinished
      · exact h.claim.mono hsame fun _ => hdown
  | claimed =>
      refine ⟨⟨?_, fun _ => hdown⟩, claim_of_none hinv nofun hdown⟩
      exact (served.lower_keeps map .finished nofun).trans hfinished
  | finished =>
      have hsame := served.lower_keeps map .claimed nofun
      refine ⟨⟨hdown, fun hrest => hsame.trans (hclaimed (by simp [hrest]))⟩, ?_⟩
      exact h.claim.mono hsame fun hnone => (served.lower_keeps map .offered nofun).trans hnone

theorem bot_move {after : OfferPhase} (h : Coherent map orders s bot tester)
    (hinv : Invariant map orders s bot tester progress)
    (hmove : OfferPhase.Moves (orders s.turn).id bot request answer after)
    (served : Served model request s.store answer store) :
    SweepAt (map.contents store) (orders s.turn).id after ∧
      ClaimAt (map.contents store) tester := by
  cases hmove with
  | observe answer => exact h.of_same served fun _ => id
  | watch answer => exact h.of_same served fun _ => id
  | clock reading => exact ⟨trivial, (h.of_same served fun _ => id).2⟩
  | clockAgain reading => exact h.of_same served fun _ => id
  | sleep span => exact h.of_same served fun _ => id
  | up => exact h.of_same served fun _ => id
  | @down signal rest =>
      obtain ⟨⟨hfinished, hclaimed⟩, hclaim⟩ := h.of_same served fun _ => id
      have hdown : map.contents store (BlobKey.signal signal) = none := by
        rw [served.contents map, StoreCall.effect_has]
        simpa using served.has map
      refine ⟨⟨hfinished, fun hrest => ?_⟩, hclaim⟩
      by_cases hsignal : signal = .claimed
      · exact hsignal ▸ hdown
      · exact hclaimed (by simp [hrest, Ne.symm hsignal])
  | removed => exact bot_removed hinv h served
  | free =>
      obtain ⟨⟨hfinished, hclaimed⟩, hclaim⟩ := h.of_same served fun _ => id
      exact ⟨⟨hfinished, hclaimed List.not_mem_nil⟩, hclaim⟩
  | taken => exact ⟨trivial, (h.of_same served fun _ => id).2⟩
  | offer =>
      obtain ⟨rfl, -⟩ := hinv.botAt
      refine ⟨trivial, claim_of_none hinv nofun ?_⟩
      exact (served.raise_keeps map .claimed nofun).trans h.sweep.2
  | peek answer =>
      have hafter : ∀ seen, SweepAt (map.contents store) (orders s.turn).id
          (OfferPhase.peek (orders s.turn).id seen) := by
        rintro (fault | _ | found)
        · trivial
        · trivial
        · unfold OfferPhase.peek
          dsimp only
          split <;> trivial
      exact ⟨hafter _, (h.of_same served fun _ => id).2⟩
  | collect entry =>
      refine ⟨?_, (h.of_same served fun _ => id).2⟩
      have hreported := hinv.botAt
      cases progress with
      | preparing => exact hreported.elim
      | opened => exact hreported.elim
      | answered poll status =>
          exact (served.contents_of_not_writes map id).trans hreported.1
  | finish =>
      refine ⟨served.lowered map,
        h.claim.mono (served.lower_keeps map .claimed nofun) fun hnone => ?_⟩
      exact (served.lower_keeps map .offered nofun).trans hnone
  | sweepFault fault => exact nomatch served.has map
  | removeFault fault => exact nomatch served.delete map
  | checkFault fault => exact nomatch served.has map
  | offerFault fault => exact nomatch served.put map
  | collectFault fault => exact nomatch served.get map
  | finishFault fault => exact nomatch served.delete map

private theorem tester_write {call : StoreCall} {result : call.Result} {id : WorkUnitId}
    {after : PollPhase} (h : Coherent map orders s bot tester)
    (hinv : Invariant map orders s bot tester progress)
    (served : Served model (.store call) s.store (.ok result) store)
    (hwrites : PollPhase.Writes id tester call after) :
    SweepAt (map.contents store) (orders s.turn).id bot ∧ ClaimAt (map.contents store) after := by
  cases hwrites with
  | excuse => exact h.of_same served fun signal => BlobKey.status_ne_signal id signal
  | judge => exact h.of_same served fun signal => BlobKey.status_ne_signal id signal
  | claim =>
      obtain rfl := hinv.testerAt.opened
      exact ⟨sweep_of_opened hinv, served.raised map⟩
  | take =>
      have hsame := served.lower_keeps map .claimed nofun
      refine ⟨h.sweep.mono (served.lower_keeps map .finished nofun) fun hnone => ?_, ?_⟩
      · exact hsame.trans hnone
      · exact hsame.trans h.claim
  | @announce ran status =>
      have hholding := hinv.testerAt.1
      obtain rfl := hholding.opened
      have hsame := served.raise_keeps map .claimed nofun
      refine ⟨sweep_of_opened hinv, ?_⟩
      cases ran with
      | false => exact hsame.trans h.claim
      | true =>
          have hstanding : standing s.history = none := hholding.standing
          refine .inr ⟨hsame.trans h.claim, (served.raise_keeps map .offered nofun).trans ?_⟩
          rw [hinv.offered, hstanding]
          rfl
  | release =>
      have hdown := served.lowered map
      exact ⟨h.sweep.mono (served.lower_keeps map .finished nofun) fun _ => hdown, hdown⟩
  | withdraw =>
      have hsame := served.lower_keeps map .claimed nofun
      refine ⟨h.sweep.mono (served.lower_keeps map .finished nofun) fun hnone => ?_, ?_⟩
      · exact hsame.trans hnone
      · exact hsame.trans h.claim

theorem tester_move {after : PollPhase} (h : Coherent map orders s bot tester)
    (hinv : Invariant map orders s bot tester progress)
    (hmove : PollPhase.Moves tester request answer after)
    (served : Served model request s.store answer store) :
    SweepAt (map.contents store) (orders s.turn).id bot ∧ ClaimAt (map.contents store) after := by
  have hat := hinv.testerAt
  cases hmove with
  | reloadCheck wanted => exact h.of_same served fun _ => id
  | look answer => exact h.of_same served fun _ => id
  | observe answer other => exact h.of_same served fun _ => id
  | giveUp answer garbled => exact hat.elim
  | inspect answer => exact hat.elim
  | recover answer => exact hat.elim
  | probe answer => exact hat.elim
  | lower answer => exact hat.elim
  | stuck fault => exact h.of_same served fun _ => id
  | missing => exact h.of_same served fun _ => id
  | arrive found => exact h.of_same served fun _ => id
  | reload => exact h.of_same served fun _ => id
  | astray other => exact h.of_same served fun _ => id
  | agree => exact h.of_same served fun _ => id
  | run command answer => exact h.of_same served fun _ => id
  | cleanUp command limit answer => exact h.of_same served fun _ => id
  | archive label field content answer =>
      exact h.of_same served fun signal => BlobKey.log_ne_signal _ label field signal
  | write result writes => exact h.tester_write hinv served writes
  | fault fault writes => exact absurd served (Invariant.served_ok map writes)

/-! ## A whole run -/

theorem opening {store : σ}
    (down : ∀ signal, map.contents store (BlobKey.signal signal) = none) :
    Coherent map orders (Interleaving.opening orders store) (.sweeping Signal.all)
      (.looking (.ok none)) where
  sweep := ⟨down .finished, fun _ => down .claimed⟩
  claim := down .claimed

/-- Every step of an orderly run keeps the signals coherent. -/
theorem step {t : State σ} (h : Coherent map orders s bot tester)
    (hinv : Invariant map orders s bot tester progress) (hstep : Orderly model orders s t) :
    ∃ bot tester progress,
      Invariant map orders t bot tester progress ∧ Coherent map orders t bot tester := by
  cases hstep with
  | act acts =>
      cases acts with
      | @bot request next answer store asks served =>
          obtain ⟨after, hmove, hnext⟩ := Program.Follows.step (asks ▸ hinv.botFollows) answer
          obtain ⟨later, hafter⟩ := hinv.bot_move hmove hnext served
          obtain ⟨hsweep, hclaim⟩ := h.bot_move hinv hmove served
          exact ⟨_, _, _, hafter, hsweep, hclaim⟩
      | @tester request next answer store asks served =>
          obtain ⟨after, hmove, hnext⟩ :=
            Program.Follows.step (asks ▸ hinv.testerFollows) answer
          obtain ⟨later, hafter⟩ := hinv.tester_move hmove hnext served
          obtain ⟨hsweep, hclaim⟩ := h.tester_move hinv hmove served
          exact ⟨_, _, _, hafter, hsweep, hclaim⟩
  | offer returned =>
      obtain ⟨rfl, -⟩ := hinv.answered returned
      exact ⟨_, _, _, hinv.nextOffer returned,
        ⟨h.sweep, fun hrest => absurd (Signal.mem_all _) hrest⟩, h.claim⟩
  | poll consumer rests =>
      have hdown : map.contents s.store (BlobKey.signal .claimed) = none := by
        have hat := hinv.testerAt
        have hclaim := h.claim
        have hrests := hinv.testerFollows.ends rests
        cases tester with
        | looking seen => exact hclaim
        | ended id => exact hclaim
        | surveying => exact hclaim
        | clearing => exact hclaim
        | _ => exact hrests.elim
      exact ⟨_, _, _, hinv.nextPoll consumer rests, h.sweep, hdown⟩

/-- The signals are coherent all along an orderly run. -/
theorem run {t : State σ} (h : Coherent map orders s bot tester)
    (hinv : Invariant map orders s bot tester progress)
    (hrun : Relation.ReflTransGen (Orderly model orders) s t) :
    ∃ bot tester progress,
      Invariant map orders t bot tester progress ∧ Coherent map orders t bot tester := by
  induction hrun with
  | refl => exact ⟨_, _, _, hinv, h⟩
  | tail _ hstep ih =>
      obtain ⟨_, _, _, hbefore, hcoherent⟩ := ih
      exact hcoherent.step hbefore hstep

/-! ## What the signals show -/

/-- When FINISHED is up it stands for the unit of the current producer, whose round has
been answered. -/
theorem finished_up {payload : ByteArray} (h : Coherent map orders s bot tester)
    (hinv : Invariant map orders s bot tester progress)
    (hup : map.contents s.store (BlobKey.signal .finished) = some payload) :
    payload = (orders s.turn).id.payload ∧ ∃ poll status, progress = .answered poll status := by
  have hat := hinv.botAt
  have hsweep := h.sweep
  have hreported (hreported : (s.view map).Reported orders progress) :
      payload = (orders s.turn).id.payload ∧
        ∃ poll status, progress = .answered poll status := by
    cases progress with
    | preparing => exact hreported.elim
    | opened => exact hreported.elim
    | answered poll status =>
        exact ⟨Option.some.inj (hup.symm.trans hreported.1), poll, status, rfl⟩
  cases bot with
  | sweeping rest => exact nomatch hup.symm.trans hsweep.1
  | removing signal rest => exact nomatch hup.symm.trans hsweep.1
  | clear => exact nomatch hup.symm.trans hsweep.1
  | returned entry => exact nomatch hup.symm.trans hsweep
  | waiting =>
      rcases hat with ⟨-, hdown⟩ | hat
      · exact nomatch hup.symm.trans hdown
      · exact hreported hat
  | peeking =>
      rcases hat with ⟨-, hdown⟩ | hat
      · exact nomatch hup.symm.trans hdown
      · exact hreported hat
  | seen => exact hreported hat
  | collected entry =>
      refine ⟨Option.some.inj (hup.symm.trans hsweep), ?_⟩
      cases progress with
      | preparing => exact hat.elim
      | opened => exact hat.elim
      | answered poll status => exact ⟨poll, status, rfl⟩
  | failed fault => exact hat.elim

/-- When CLAIMED is up it stands for a unit that was offered, and so does OFFERED if it
is up as well. -/
theorem claimed_up {payload : ByteArray} (h : Coherent map orders s bot tester)
    (hinv : Invariant map orders s bot tester progress)
    (hup : map.contents s.store (BlobKey.signal .claimed) = some payload) :
    (∃ number, payload = (orders number).id.payload) ∧
      ∀ other, map.contents s.store (BlobKey.signal .offered) = some other →
        other = payload := by
  have hat := hinv.testerAt
  have hclaim := h.claim
  have hoffered := hinv.offered
  have hdown (hstanding : (s.view map).standing = none) (other : ByteArray) :
      map.contents s.store (BlobKey.signal .offered) = some other → other = payload := by
    change standing s.history = none at hstanding
    intro hother
    rw [hother, hstanding] at hoffered
    cases hoffered
  cases tester with
  | claimed id =>
      obtain rfl := Option.some.inj (hup.symm.trans hclaim)
      obtain rfl := hat.unit
      refine ⟨⟨_, rfl⟩, fun other hother => ?_⟩
      have hstanding : standing s.history = some s.turn := hat.standing
      rw [hother, hstanding] at hoffered
      exact Option.some.inj hoffered
  | running id failed =>
      obtain rfl := Option.some.inj (hup.symm.trans hclaim)
      exact ⟨⟨_, congrArg _ hat.unit⟩, hdown hat.standing⟩
  | judged ran id status =>
      cases ran with
      | false => exact nomatch hup.symm.trans hclaim
      | true =>
          obtain rfl := Option.some.inj (hup.symm.trans hclaim)
          exact ⟨⟨_, congrArg _ hat.1.unit⟩, hdown hat.1.standing⟩
  | announced ran id status =>
      cases ran with
      | false => exact nomatch hup.symm.trans hclaim
      | true =>
          obtain ⟨number, -, rfl, -⟩ := hat
          rcases hclaim with hnone | ⟨hsome, hnone⟩
          · exact nomatch hup.symm.trans hnone
          · obtain rfl := Option.some.inj (hup.symm.trans hsome)
            exact ⟨⟨number, rfl⟩, fun other hother => nomatch hother.symm.trans hnone⟩
  | _ => exact nomatch hup.symm.trans hclaim

/-- While a round that has been answered is not over, CLAIMED and OFFERED can only stand
for its unit, and not both of them. -/
theorem answered_up {poll : Nat} {status : Status} {payload : ByteArray}
    (h : Coherent map orders s bot tester)
    (hinv : Invariant map orders s bot tester (.answered poll status)) :
    (map.contents s.store (BlobKey.signal .claimed) = some payload →
      payload = (orders s.turn).id.payload ∧
        map.contents s.store (BlobKey.signal .offered) = none) ∧
    (map.contents s.store (BlobKey.signal .offered) = some payload →
      payload = (orders s.turn).id.payload) := by
  have hclaim := h.claim
  have hoffered := hinv.offered
  rcases hinv.testerAt.of_ne_opened nofun with
    ⟨hstanding, hphase⟩ | ⟨ran, id, judgement, rfl⟩
  · change standing s.history = none at hstanding
    have hnone : map.contents s.store (BlobKey.signal .claimed) = none := by
      rcases hphase with rfl | ⟨id, rfl⟩
      · exact hclaim
      · exact hclaim
    rw [hstanding] at hoffered
    exact ⟨fun hup => (nomatch hup.symm.trans hnone), fun hup => nomatch hup.symm.trans hoffered⟩
  · obtain ⟨number, -, rfl, htrailing⟩ := hinv.testerAt
    cases htrailing with
    | same current left =>
        obtain rfl : number = s.turn := current
        constructor
        · intro hup
          cases ran with
          | false => exact nomatch hup.symm.trans hclaim
          | true =>
              rcases hclaim with hnone | ⟨hsome, hnone⟩
              · exact nomatch hup.symm.trans hnone
              · exact ⟨Option.some.inj (hup.symm.trans hsome), hnone⟩
        · intro hup
          have hstanding : standing s.history = none ∨
              (ran = false ∧ standing s.history = some s.turn) := left
          rcases hstanding with hnone | ⟨-, hsome⟩
          · rw [hnone] at hoffered
            exact nomatch hup.symm.trans hoffered
          · rw [hsome] at hoffered
            exact Option.some.inj (hup.symm.trans hoffered)

theorem agree (h : Coherent map orders s bot tester)
    (hinv : Invariant map orders s bot tester progress) :
    (∃ number, ∀ signal payload,
      map.contents s.store (BlobKey.signal signal) = some payload →
        payload = (orders number).id.payload) ∧
    ∃ signal, map.contents s.store (BlobKey.signal signal) = none := by
  cases hfinished : map.contents s.store (BlobKey.signal .finished) with
  | some shown =>
      obtain ⟨rfl, poll, status, rfl⟩ := h.finished_up hinv hfinished
      constructor
      · refine ⟨s.turn, fun signal payload hup => ?_⟩
        cases signal with
        | offered => exact (h.answered_up hinv).2 hup
        | claimed => exact ((h.answered_up hinv).1 hup).1
        | finished => exact Option.some.inj (hup.symm.trans hfinished)
      · cases hclaimed : map.contents s.store (BlobKey.signal .claimed) with
        | none => exact ⟨.claimed, hclaimed⟩
        | some payload => exact ⟨.offered, ((h.answered_up hinv).1 hclaimed).2⟩
  | none =>
      refine ⟨?_, .finished, hfinished⟩
      cases hclaimed : map.contents s.store (BlobKey.signal .claimed) with
      | some claimed =>
          obtain ⟨⟨number, rfl⟩, hoffered⟩ := h.claimed_up hinv hclaimed
          refine ⟨number, fun signal payload hup => ?_⟩
          cases signal with
          | offered => exact hoffered payload hup
          | claimed => exact Option.some.inj (hup.symm.trans hclaimed)
          | finished => exact nomatch hup.symm.trans hfinished
      | none =>
          refine ⟨(standing s.history).getD 0, fun signal payload hup => ?_⟩
          cases signal with
          | offered =>
              rw [hinv.offered] at hup
              obtain ⟨number, hnumber, rfl⟩ := Option.map_eq_some_iff.1 hup
              rw [hnumber, Option.getD_some]
          | claimed => exact nomatch hup.symm.trans hclaimed
          | finished => exact nomatch hup.symm.trans hfinished

/-- A producer that is about to raise OFFERED has seen the other signals down. -/
theorem clear_of_raise {value : ByteArray}
    {next : Except StoreFault Unit → Program Work (Except RoundFault (Option Status))}
    (h : Coherent map orders s bot tester)
    (hinv : Invariant map orders s bot tester progress)
    (asks : s.bot = .ask (I := Work) (.store (.put (BlobKey.signal .offered) value)) next) :
    map.contents s.store (BlobKey.signal .claimed) = none ∧
      map.contents s.store (BlobKey.signal .finished) = none := by
  obtain ⟨after, hmove, -⟩ := Program.Follows.step (asks ▸ hinv.botFollows)
    (Except.ok () : Except StoreFault Unit)
  rcases hmove.writes_offered rfl with ⟨rfl, -⟩ | ⟨rest, -, hlower⟩
  · exact h.sweep.symm
  · cases hlower

end Coherent

/-- Producers that come one after the other, and a tester that polls on their store, with
no signal up at the start: at every moment the signals that are up stand for one unit
and are not all up, and only OFFERED is when a producer raises it. -/
theorem signals_agree {store : σ} {s : State σ} (map : KeyValue model)
    (down : ∀ signal, map.contents store (BlobKey.signal signal) = none)
    (run : Relation.ReflTransGen (Orderly model orders) (opening orders store) s) :
    (∃ number, ∀ signal payload,
      map.contents s.store (BlobKey.signal signal) = some payload →
        payload = (orders number).id.payload) ∧
    (∃ signal, map.contents s.store (BlobKey.signal signal) = none) ∧
    ∀ value next,
      s.bot = .ask (I := Work) (.store (.put (BlobKey.signal .offered) value)) next →
        map.contents s.store (BlobKey.signal .claimed) = none ∧
          map.contents s.store (BlobKey.signal .finished) = none := by
  obtain ⟨bot, tester, progress, hinv, h⟩ :=
    (Coherent.opening down).run (Invariant.opening orders (down .offered)) run
  obtain ⟨hone, hdown⟩ := h.agree hinv
  exact ⟨hone, hdown, fun value next asks => h.clear_of_raise hinv asks⟩

/-! ### A raise while the last poll is not over -/

/-- A poll runs the first unit and announces it; the first producer collects, and the
second one sweeps before CLAIMED has been taken down by the poll. -/
def sweepingEarly : List Turn :=
  List.replicate 8 .bot ++ .poll idler :: List.replicate 11 .tester ++ List.replicate 5 .bot ++
    .offer :: List.replicate 11 .bot

theorem signals_agree_on_early_sweep : ∃ s : State MemoryStore,
    Relation.ReflTransGen (Orderly MemoryStore.answer twoUnits)
      (opening twoUnits StringMap.empty) s ∧
    (∃ next, s.tester = .ask (I := Work) (lower .claimed) next) ∧
    (∃ next, s.bot = .ask (I := Work) (raise .offered (twoUnits 1).id) next) ∧
    (∃ number, ∀ signal payload, s.store.get? (BlobKey.signal signal).text = some payload →
      payload = (twoUnits number).id.payload) ∧
    (∃ signal, s.store.get? (BlobKey.signal signal).text = none) ∧
    s.store.get? (BlobKey.signal .claimed).text = none ∧
    s.store.get? (BlobKey.signal .finished).text = none := by
  have hplay : ((opening twoUnits (StringMap.empty : MemoryStore)).playAll
      MemoryStore.answer (steady some none) twoUnits sweepingEarly).map
        (fun s => (s.testerCall?, s.botCall?)) =
      some (some (.delete (BlobKey.signal .claimed)),
        some (.put (BlobKey.signal .offered) (twoUnits 1).id.payload)) := by
    decide +kernel
  obtain ⟨s, hs, hcalls⟩ := Option.map_eq_some_iff.1 hplay
  obtain ⟨htester, hbot⟩ := Prod.mk.inj hcalls
  obtain ⟨after, hafter⟩ := State.asks_of_testerCall? htester
  obtain ⟨next, hnext⟩ := State.asks_of_botCall? hbot
  have hrun := State.reaches_of_playAll State.orderly_of_play (by decide) hs
  obtain ⟨hone, hdown, hraise⟩ := signals_agree MemoryStore.keyValue (fun _ => rfl) hrun
  exact ⟨s, hrun, ⟨after, hafter⟩, ⟨next, hnext⟩, hone, hdown, hraise _ next hnext⟩

end Interleaving

end Handoff
