import Handoff.Proofs.Round.Freshness
import Handoff.Proofs.Round.Replay
/-!
# Unruly runs

The invariant of one producer and a tester that may break down between any two requests
and recover, on a store that may hold anything at the start.
-/

namespace Handoff

namespace Interleaving

open WorkRequest

variable {σ : Type} {model : StoreModel σ}

structure UnrulyInvariant (map : KeyValue model) (id : WorkUnitId) (s : State σ)
    (bot : OfferPhase) (tester : PollPhase) : Prop where
  turn : s.turn = 0
  seat : s.seat = .poll s.shift ∨
    (s.seat = .recovery s.shift ∧ (tester = .surveying ∨ tester = .clearing))
  botFollows : s.bot.Follows (OfferPhase.Moves id) (OfferPhase.Ended id) bot
  testerFollows : s.tester.Follows PollPhase.Moves (fun _ phase => phase.Rests) tester
  account : tester.Account (recordOf s.seat s.history)
  unborn : ∀ number, s.shift < number →
    recordOf (.poll number) s.history = [] ∧ recordOf (.recovery number) s.history = []
  statuses : StatusesStand (map.contents s.store) s.history
  fresh : FreshAt id (map.contents s.store) s.history bot

namespace UnrulyInvariant

variable {map : KeyValue model} {id : WorkUnitId} {s : State σ} {bot : OfferPhase}
  {tester : PollPhase} {request : WorkRequest} {answer : request.Answer} {store : σ}

private theorem statuses_of_not_writes {party : Party}
    (h : UnrulyInvariant map id s bot tester)
    (served : Served model request s.store answer store)
    (hwrites : ∀ unit, ¬request.writes (BlobKey.status unit)) :
    StatusesStand (map.contents store) (⟨party, ⟨request, answer⟩⟩ :: s.history) := by
  intro unit writer value hlast
  rw [lastPut_cons_of_not_writes (hwrites unit)] at hlast
  rw [served.contents_of_not_writes map (hwrites unit)]
  exact h.statuses unit writer value hlast

private theorem fresh_cons {party : Party}
    (served : Served model request s.store answer store)
    (hput : ∀ value, request ≠ .store (.put (BlobKey.signal .finished) value))
    (h : FinishedFresh (map.contents s.store) s.history) :
    FinishedFresh (map.contents store) (⟨party, ⟨request, answer⟩⟩ :: s.history) :=
  h.cons fun _ hvalue => served.contents_of_ne_put map hput hvalue

/-! ## The producer makes a request -/

private theorem fresh_peek {event : Event} {contents after : Contents}
    (h : FinishedFresh contents s.history)
    (hcons : FinishedFresh after (event :: s.history)) :
    FreshAt id after (event :: s.history) (OfferPhase.peek id
      (SignalBoard.reading .finished (.ok (contents (BlobKey.signal .finished))))) := by
  cases hfinished : contents (BlobKey.signal .finished) with
  | none => exact hcons
  | some value =>
      obtain ⟨unit, rfl, hannounced⟩ := h.fresh value hfinished
      rw [SignalBoard.reading_payload, OfferPhase.peek]
      by_cases hunit : unit = id
      · subst hunit
        rw [if_pos rfl]
        exact hannounced.cons
      · rw [if_neg hunit]
        rintro _ _ _ ⟨rfl, rfl, rfl⟩
        exact ⟨rfl, rfl, hunit, hannounced.cons⟩

private theorem fresh_collect {answer : Except StoreFault (Option ByteArray)}
    {entry : Option ByteArray} (h : UnrulyInvariant map id s .seen tester)
    (hentry : entry = map.contents s.store (BlobKey.status id))
    (hanswer : answer = .ok entry) :
    FreshAt id (map.contents store)
      (⟨.producer 0, ⟨.store (.get (BlobKey.status id)), answer⟩⟩ :: s.history)
      (.collected (Archive.statusOf entry)) := by
  intro status hstatus
  have hannounced : FreshlyAnnounced id s.history := h.fresh
  obtain ⟨⟨party, value⟩, hlast⟩ := Option.ne_none_iff_exists'.1 hannounced.reported
  obtain ⟨hvalue, poll, written, rfl, rfl⟩ := h.statuses id party value hlast
  rw [hentry, hvalue, Archive.statusOf_payload] at hstatus
  obtain rfl := Option.some.inj hstatus
  rw [hanswer, hentry, hvalue]
  exact ⟨[], poll, s.history, rfl, hlast, hannounced⟩

private theorem fresh_bot {after : OfferPhase} (h : UnrulyInvariant map id s bot tester)
    (hmove : OfferPhase.Moves id bot request answer after)
    (served : Served model request s.store answer store) :
    FreshAt id (map.contents store) (⟨.producer 0, ⟨request, answer⟩⟩ :: s.history) after := by
  have hfinished : FinishedFresh (map.contents s.store) s.history →
      FinishedFresh (map.contents store) (⟨.producer 0, ⟨request, answer⟩⟩ :: s.history) :=
    fresh_cons served hmove.ne_put_finished
  have hcons := h.fresh.mono hfinished
  cases hmove with
  | observe answer => exact hcons
  | watch answer => exact hcons
  | clock reading => exact hcons
  | clockAgain reading => exact hcons
  | sleep span => exact hcons
  | up => exact hcons
  | @down signal rest =>
      intro hrest
      by_cases hsignal : signal = .finished
      · subst hsignal
        refine FinishedFresh.deal (.inl rfl) ?_
        have hdown : map.contents s.store (BlobKey.signal .finished) = none := by
          simpa using served.has map
        rw [served.contents_of_not_writes map nofun]
        exact hdown
      · exact hcons (by simp [hrest, Ne.symm hsignal])
  | @removed signal rest =>
      intro hrest
      by_cases hsignal : signal = .finished
      · subst hsignal
        refine FinishedFresh.deal (.inr rfl) ?_
        rw [served.contents map, StoreCall.effect_delete, Function.update_self]
      · exact hcons (by simp [hrest, Ne.symm hsignal])
  | free => exact hcons List.not_mem_nil
  | taken => exact nofun
  | offer => exact hcons
  | peek answer =>
      obtain rfl := served.get map
      exact fresh_peek h.fresh (hfinished h.fresh)
  | collect entry =>
      exact h.fresh_collect (Except.ok.inj (served.get map)) rfl
  | finish => exact hcons
  | sweepFault fault => exact nomatch served.has map
  | removeFault fault => exact nomatch served.delete map
  | checkFault fault => exact nomatch served.has map
  | offerFault fault => exact nomatch served.put map
  | collectFault fault => exact nomatch served.get map
  | finishFault fault => exact nomatch served.delete map

theorem bot_step {next : request.Answer → Program Work (Except RoundFault (Option Status))}
    (h : UnrulyInvariant map id s bot tester)
    (asks : s.bot = .ask (I := Work) request next)
    (served : Served model request s.store answer store) :
    ∃ after,
      UnrulyInvariant map id (s.botDid ⟨request, answer⟩ store (next answer)) after tester := by
  obtain ⟨after, hmove, hnext⟩ := Program.Follows.step (asks ▸ h.botFollows) answer
  have hparty : Party.producer s.turn = .producer 0 := congrArg _ h.turn
  have hrecord : recordOf s.seat (⟨.producer s.turn, ⟨request, answer⟩⟩ :: s.history) =
      recordOf s.seat s.history := by
    rcases h.seat with hseat | ⟨hseat, -⟩
    · exact recordOf_cons_of_ne (by simp [hseat])
    · exact recordOf_cons_of_ne (by simp [hseat])
  exact ⟨after, {
    turn := h.turn
    seat := h.seat
    botFollows := hnext
    testerFollows := h.testerFollows
    account := hrecord.symm ▸ h.account
    unborn := fun number hnumber => by
      obtain ⟨hpoll, hrecovery⟩ := h.unborn number hnumber
      exact ⟨(recordOf_cons_of_ne (by simp)).trans hpoll,
        (recordOf_cons_of_ne (by simp)).trans hrecovery⟩
    statuses := h.statuses_of_not_writes served fun unit => hmove.not_writes_status
    fresh := by
      change FreshAt id (map.contents store) (⟨.producer s.turn, _⟩ :: s.history) after
      rw [hparty]
      exact h.fresh_bot hmove served }⟩

/-! ## The tester makes a request -/

private theorem statuses_report {poll : Nat} {unit : WorkUnitId} {status : Status}
    {answer : Except StoreFault Unit} (h : UnrulyInvariant map id s bot tester)
    (served : Served model (report unit status) s.store answer store) :
    StatusesStand (map.contents store)
      (⟨.poll poll, ⟨report unit status, answer⟩⟩ :: s.history) := by
  intro other writer value hlast
  by_cases hother : other = unit
  · subst hother
    rw [lastPut_cons_put, Option.some.injEq, Prod.mk.injEq] at hlast
    obtain ⟨rfl, rfl⟩ := hlast
    refine ⟨?_, poll, status, rfl, rfl⟩
    rw [served.contents map, StoreCall.effect_put, Function.update_self]
  · have hwrites : ¬(report unit status).writes (BlobKey.status other) :=
      fun hkey => hother (BlobKey.status_injective hkey).symm
    rw [lastPut_cons_of_not_writes hwrites] at hlast
    rw [served.contents_of_not_writes map hwrites]
    exact h.statuses other writer value hlast

/-- A recovery looks around and takes signals down, and does nothing else. -/
private theorem recovery_step {after : PollPhase}
    (hphase : tester = .surveying ∨ tester = .clearing)
    (hmove : PollPhase.Moves tester request answer after) :
    after = .surveying ∨ after = .clearing := by
  rcases hphase with rfl | rfl
  · cases hmove with
    | inspect answer => exact .inl rfl
    | recover answer => exact .inr rfl
    | write result writes => cases writes
    | fault fault writes => cases writes
  · cases hmove with
    | probe answer => exact .inr rfl
    | lower answer => exact .inr rfl
    | write result writes => cases writes
    | fault fault writes => cases writes

private theorem seat_of_ne (h : UnrulyInvariant map id s bot tester)
    (hsurveying : tester ≠ .surveying) (hclearing : tester ≠ .clearing) :
    s.seat = .poll s.shift := by
  rcases h.seat with hseat | ⟨-, hphase | hphase⟩
  · exact hseat
  · exact absurd hphase hsurveying
  · exact absurd hphase hclearing

private theorem statuses_tester {after : PollPhase} (h : UnrulyInvariant map id s bot tester)
    (hmove : PollPhase.Moves tester request answer after)
    (served : Served model request s.store answer store) :
    StatusesStand (map.contents store) (⟨s.seat, ⟨request, answer⟩⟩ :: s.history) := by
  by_cases hwrites : ∃ unit, request.writes (BlobKey.status unit)
  · obtain ⟨unit, hunit⟩ := hwrites
    obtain ⟨⟨status, rfl⟩, hsurveying, hclearing⟩ := hmove.writes_status hunit
    rw [h.seat_of_ne hsurveying hclearing]
    exact h.statuses_report served
  · exact h.statuses_of_not_writes served fun unit hunit => hwrites ⟨unit, hunit⟩

private theorem fresh_tester {after : PollPhase} (h : UnrulyInvariant map id s bot tester)
    (hmove : PollPhase.Moves tester request answer after)
    (served : Served model request s.store answer store) :
    FreshAt id (map.contents store) (⟨s.seat, ⟨request, answer⟩⟩ :: s.history) bot := by
  by_cases hput : ∃ value, request = .store (.put (BlobKey.signal .finished) value)
  · obtain ⟨value, rfl⟩ := hput
    obtain ⟨ran, unit, status, rfl, rfl⟩ := hmove.put_finished rfl
    have hseat := h.seat_of_ne nofun nofun
    have hreport := mem_recordOf.1 h.account.2.1
    obtain rfl := served.put map
    rw [hseat] at hreport ⊢
    refine h.fresh.mono fun hfresh => hfresh.announce hreport ?_
    rw [served.contents map, StoreCall.effect_put, Function.update_self]
  · exact h.fresh.mono (fresh_cons served fun value hvalue => hput ⟨value, hvalue⟩)

theorem tester_step {next : request.Answer → Program Work Unit}
    (h : UnrulyInvariant map id s bot tester)
    (asks : s.tester = .ask (I := Work) request next)
    (served : Served model request s.store answer store) :
    ∃ after,
      UnrulyInvariant map id (s.testerDid ⟨request, answer⟩ store (next answer)) bot after := by
  obtain ⟨after, hmove, hnext⟩ := Program.Follows.step (asks ▸ h.testerFollows) answer
  have hrecord : recordOf s.seat (s.testerDid ⟨request, answer⟩ store (next answer)).history =
      ⟨request, answer⟩ :: recordOf s.seat s.history := recordOf_cons_self
  exact ⟨after, {
    turn := h.turn
    seat := h.seat.imp_right fun hseat => ⟨hseat.1, recovery_step hseat.2 hmove⟩
    botFollows := h.botFollows
    testerFollows := hnext
    account := hrecord.symm ▸ h.account.step hmove
    unborn := fun number hnumber => by
      obtain ⟨hpoll, hrecovery⟩ := h.unborn number hnumber
      have hne : s.shift ≠ number := Nat.ne_of_lt hnumber
      refine ⟨(recordOf_cons_of_ne ?_).trans hpoll, (recordOf_cons_of_ne ?_).trans hrecovery⟩
      · rcases h.seat with hseat | ⟨hseat, -⟩ <;> simp [hseat, hne]
      · rcases h.seat with hseat | ⟨hseat, -⟩ <;> simp [hseat, hne]
    statuses := h.statuses_tester hmove served
    fresh := h.fresh_tester hmove served }⟩

/-! ## A whole run -/

theorem startUp (map : KeyValue model) (order : Order) (consumer : Consumer) (store : σ) :
    ∃ tester, UnrulyInvariant map order.id (Interleaving.startUp order consumer store)
      (.sweeping Signal.all) tester :=
  ⟨.surveying, {
    turn := rfl
    seat := .inr ⟨rfl, .inl rfl⟩
    botFollows := Producer.follows_offerAndWait _ _ _
    testerFollows := Program.follows_bind.2
      ((Consumer.follows_recover consumer).mono fun _ _ hends => hends)
    account := Calm.nil
    unborn := fun _ _ => ⟨rfl, rfl⟩
    statuses := nofun
    fresh := fun hnot => absurd (Signal.mem_all _) hnot }⟩

theorem nextPoll (consumer : Consumer) (h : UnrulyInvariant map id s bot tester) :
    UnrulyInvariant map id (s.nextPoll consumer) bot (.looking (.ok none)) where
  turn := h.turn
  seat := .inl rfl
  botFollows := h.botFollows
  testerFollows := Program.follows_bind.2
    ((Consumer.follows_poll consumer).mono fun _ _ hends => hends)
  account := (h.unborn _ (Nat.lt_succ_self _)).1.symm ▸ Calm.nil
  unborn number hnumber := h.unborn number (Nat.lt_of_succ_lt hnumber)
  statuses := h.statuses
  fresh := h.fresh

theorem restart (consumer : Consumer) (h : UnrulyInvariant map id s bot tester) :
    UnrulyInvariant map id (s.restart consumer) bot .surveying where
  turn := h.turn
  seat := .inr ⟨rfl, .inl rfl⟩
  botFollows := h.botFollows
  testerFollows := Program.follows_bind.2
    ((Consumer.follows_recover consumer).mono fun _ _ hends => hends)
  account := (h.unborn _ (Nat.lt_succ_self _)).2.symm ▸ Calm.nil
  unborn number hnumber := h.unborn number (Nat.lt_of_succ_lt hnumber)
  statuses := h.statuses
  fresh := h.fresh

/-- Every step of an unruly run keeps the invariant. -/
theorem step {t : State σ} (h : UnrulyInvariant map id s bot tester)
    (hstep : Unruly model s t) : ∃ bot tester, UnrulyInvariant map id t bot tester := by
  cases hstep with
  | act acts =>
      cases acts with
      | bot asks served =>
          obtain ⟨after, hafter⟩ := h.bot_step asks served
          exact ⟨_, _, hafter⟩
      | tester asks served =>
          obtain ⟨after, hafter⟩ := h.tester_step asks served
          exact ⟨_, _, hafter⟩
  | poll consumer rests => exact ⟨_, _, h.nextPoll consumer⟩
  | restart consumer => exact ⟨_, _, h.restart consumer⟩

theorem run {t : State σ} (h : UnrulyInvariant map id s bot tester)
    (hrun : Relation.ReflTransGen (Unruly model) s t) :
    ∃ bot tester, UnrulyInvariant map id t bot tester := by
  induction hrun with
  | refl => exact ⟨_, _, h⟩
  | tail _ hstep ih =>
      obtain ⟨_, _, hbefore⟩ := ih
      exact hbefore.step hstep

end UnrulyInvariant

/-- A producer on a store that may hold anything, and a tester that may break down and
start again at any time.  A status that is returned was read from where a poll had
written it last, after a poll had announced the unit since the sweep and had written a
status of it before.  Another unit in FINISHED was announced since the sweep, too. -/
theorem fresh_answer (map : KeyValue model) {order : Order} {consumer : Consumer} {store : σ}
    {s : State σ} (run : Relation.ReflTransGen (Unruly model) (startUp order consumer store) s) :
    (∀ status, s.bot = .done (.ok (some status)) →
      FreshlyCollected order.id status s.history) ∧
    ∀ signal expected observed,
      s.bot = .done (.error (.protocolViolation signal expected observed)) →
        signal = .finished ∧ expected = order.id ∧ observed ≠ order.id ∧
          FreshlyAnnounced observed s.history := by
  obtain ⟨_, hstart⟩ := UnrulyInvariant.startUp map order consumer store
  obtain ⟨bot, tester, h⟩ := hstart.run run
  have hat := h.fresh
  constructor
  · intro status hends
    obtain rfl := h.botFollows.ends hends
    exact hat status rfl
  · intro signal expected observed hends
    rcases h.botFollows.ends hends with rfl | ⟨-, waited, htimeout⟩ | ⟨-, hmissing⟩
    · exact hat signal expected observed rfl
    · cases htimeout
    · cases hmissing

/-! ### A crash after the claim -/

def leftovers : MemoryStore :=
  StringMap.ofList [((BlobKey.signal .finished).text, (retries 0).id.payload),
    ((BlobKey.status (retries 0).id).text, Status.failed.payload)]

/-- The producer sweeps and offers, a poll breaks down when it has claimed the unit, the
tester starts again and runs the unit. -/
def crashing : List Turn :=
  List.replicate 12 .bot ++ .poll idler :: List.replicate 8 .tester ++
    .restart idler :: .poll idler :: List.replicate 12 .tester ++ List.replicate 5 .bot

theorem fresh_answer_after_crash : ∃ s : State MemoryStore,
    Relation.ReflTransGen (Unruly MemoryStore.answer) (startUp (retries 0) idler leftovers) s ∧
    s.bot = .done (.ok (some .passed)) ∧
    FreshlyCollected (retries 0).id .passed s.history := by
  have hplay : ((startUp (retries 0) idler leftovers).playAll MemoryStore.answer
      (steady some none) retries crashing).map State.returned? = some (some .passed) := by
    decide +kernel
  obtain ⟨s, hs, hreturned⟩ := Option.map_eq_some_iff.1 hplay
  have hrun := State.reaches_of_playAll State.unruly_of_play (by decide) hs
  have hbot := State.bot_of_returned? hreturned
  exact ⟨s, hrun, hbot, (fresh_answer MemoryStore.keyValue hrun).1 .passed hbot⟩

end Interleaving

end Handoff
