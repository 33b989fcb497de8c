import Handoff.Proofs.Blob.KeyValue
import Handoff.Proofs.Performance
import Handoff.Proofs.Round.Exchange
import Handoff.Round.Producer
/-!
# How long a producer waits

A producer on a store of which the clock takes charge: store calls take no time, a sleep takes
what it says, and some time after the offer a tester reports.  The producer looks for the
report at the multiples of its poll interval that are within its timeout, and at no others.
-/

namespace Handoff

open Program

structure Scene (σ : Type) where
  store : σ
  /-- The reading of the clock, in nanoseconds. -/
  clock : Nat
  /-- When the tester will report, as long as it has not. -/
  due : Option Nat

def Scene.Settled {σ : Type} (scene : Scene σ) : Prop :=
  ∀ moment, scene.due = some moment → scene.clock < moment

/-- A tester that reports a status for a unit some time after the unit was offered. -/
structure Tester {σ : Type} {model : StoreModel σ} (map : KeyValue model) (id : WorkUnitId)
    (status : Status) where
  /-- The time from the offer to the report, in nanoseconds. -/
  delay : Nat
  report : σ → σ
  /-- What else becomes of the store while the producer sleeps, told by the clock. -/
  meanwhile : Nat → σ → σ
  report_finished : ∀ s, SignalBoard.reading .finished
    (.ok (map.contents (report s) (BlobKey.signal .finished))) = .ok (some id)
  report_status : ∀ s,
    Archive.statusOf (map.contents (report s) (BlobKey.status id)) = some status
  keeps_finished : ∀ clock s, map.contents (meanwhile clock s) (BlobKey.signal .finished) =
    map.contents s (BlobKey.signal .finished)
  keeps_status : ∀ clock s, map.contents (meanwhile clock s) (BlobKey.status id) =
    map.contents s (BlobKey.status id)

/-- The last moment of the wait at which the producer looks for the report. -/
def Producer.lastLook (producer : Producer) : Nat :=
  producer.timeout.toNanos / producer.pollInterval.toNanos * producer.pollInterval.toNanos

namespace Tester

variable {σ : Type} {model : StoreModel σ} {map : KeyValue model} {id : WorkUnitId}
  {status : Status} (tester : Tester map id status)

def settle (scene : Scene σ) : Scene σ :=
  match scene.due with
  | none => scene
  | some moment =>
      if moment ≤ scene.clock then { scene with store := tester.report scene.store, due := none }
      else scene

/-- When the tester will report after a store call: the offer sets its time. -/
def dueAfter (call : StoreCall) (scene : Scene σ) : Option Nat :=
  if call = .put (BlobKey.signal .offered) id.payload then some (scene.clock + tester.delay)
  else scene.due

/-- What a producer is answered.  It runs no commands and has no checkout. -/
def answer : (request : WorkRequest) → Scene σ → request.Answer × Scene σ
  | .store call, scene =>
      let (reply, store) := model call scene.store
      (reply, tester.settle { scene with store, due := tester.dueAfter call scene })
  | .now, scene => (scene.clock, scene)
  | .sleep span, scene =>
      ((), tester.settle { scene with
        store := tester.meanwhile scene.clock scene.store
        clock := scene.clock + span.toNanos })
  | .checkOut _, scene => (.ok none, scene)
  | .reloadWanted, scene => (false, scene)
  | .run _ _, scene => (.ok none, scene)
  | .print _, scene => ((), scene)

def surroundings : Surroundings Work (Scene σ) := tester.answer

variable {scene : Scene σ}

theorem settle_eq (h : scene.Settled) : tester.settle scene = scene := by
  unfold settle
  split
  · rfl
  · next moment hdue => rw [if_neg (Nat.not_le.2 (h moment hdue))]

theorem settle_due {moment : Nat} (hdue : scene.due = some moment) (h : moment ≤ scene.clock) :
    tester.settle scene = { scene with store := tester.report scene.store, due := none } := by
  simp only [settle, hdue, if_pos h]

/-! ## Looking around

Calls other than the offer go to the store and change nothing else. -/

theorem answer_call {call : StoreCall} (h : scene.Settled)
    (hcall : call ≠ .put (BlobKey.signal .offered) id.payload) :
    tester.answer (.store call) scene =
      ((model call scene.store).1, { scene with store := (model call scene.store).2 }) := by
  have hdue : tester.dueAfter call scene = scene.due := if_neg hcall
  have hsettle : tester.settle { scene with store := (model call scene.store).2 } = _ :=
    tester.settle_eq h
  simp only [answer, hdue, hsettle]

theorem answer_get (h : scene.Settled) (key : BlobKey) :
    tester.answer (.store (.get key)) scene = (.ok (map.contents scene.store key), scene) := by
  rw [tester.answer_call h StoreCall.noConfusion, map.get_eq]

theorem perform_observe (h : scene.Settled) (signals : List Signal) :
    (Work.ofStorage (SignalBoard.observe signals)).perform tester.surroundings scene =
      ((), scene) :=
  Work.perform_observe (fun _ => congrArg Prod.snd (tester.answer_get h _)) signals

theorem perform_read (h : scene.Settled) (signal : Signal) :
    (Work.ofStorage (SignalBoard.read signal).run).perform tester.surroundings scene =
      (SignalBoard.reading signal (.ok (map.contents scene.store (BlobKey.signal signal))),
        scene) := by
  rw [SignalBoard.run_read]
  change (SignalBoard.reading signal
      (tester.answer (.store (.get (BlobKey.signal signal))) scene).1,
    (tester.answer (.store (.get (BlobKey.signal signal))) scene).2) = _
  rw [tester.answer_get h]

theorem perform_readStatus (h : scene.Settled) :
    (Work.ofStorage (Archive.readStatus id).run).perform tester.surroundings scene =
      (.ok (Archive.statusOf (map.contents scene.store (BlobKey.status id))), scene) := by
  rw [Archive.run_readStatus]
  change (Archive.statusOf <$> (tester.answer (.store (.get (BlobKey.status id))) scene).1,
    (tester.answer (.store (.get (BlobKey.status id))) scene).2) = _
  rw [tester.answer_get h]
  rfl

theorem perform_isUp (h : scene.Settled) (signal : Signal) :
    (Work.ofStorage (SignalBoard.isUp signal).run).perform tester.surroundings scene =
      (.ok (map.contents scene.store (BlobKey.signal signal)).isSome, scene) := by
  change tester.answer (.store (.has (BlobKey.signal signal))) scene = _
  rw [tester.answer_call h StoreCall.noConfusion, map.has_eq]

theorem perform_delete (h : scene.Settled) (signal : Signal) :
    (Work.ofStorage (SignalBoard.delete signal).run).perform tester.surroundings scene =
      (.ok (), { scene with
        store := (model (.delete (BlobKey.signal signal)) scene.store).2 }) := by
  change tester.answer (.store (.delete (BlobKey.signal signal))) scene = _
  rw [tester.answer_call h StoreCall.noConfusion, map.delete_fst]

theorem perform_put_offered (scene : Scene σ) :
    (Work.ofStorage (SignalBoard.put .offered id).run).perform tester.surroundings scene =
      (.ok (), tester.settle { scene with
        store := (model (.put (BlobKey.signal .offered) id.payload) scene.store).2
        due := some (scene.clock + tester.delay) }) := by
  change tester.answer (.store (.put (BlobKey.signal .offered) id.payload)) scene = _
  have hdue : tester.dueAfter (.put (BlobKey.signal .offered) id.payload) scene =
      some (scene.clock + tester.delay) := if_pos rfl
  simp only [answer, hdue, map.put_fst]

theorem perform_clear (signals : List Signal) (h : scene.Settled) :
    ∃ cleared store,
      (Work.ofStorage (SignalBoard.clear signals).run).perform tester.surroundings scene =
        (.ok cleared, { scene with store }) ∧
      ∀ signal, map.contents store (BlobKey.signal signal) =
        if signal ∈ signals then none else map.contents scene.store (BlobKey.signal signal) := by
  induction signals generalizing scene with
  | nil => exact ⟨[], scene.store, rfl, fun signal => by simp⟩
  | cons first rest ih =>
      have hup : (Work.ofStorage (SignalBoard.clear (first :: rest)).run).perform
          tester.surroundings scene = _ := Work.perform_bind_ok (tester.perform_isUp h first)
      cases hfirst : map.contents scene.store (BlobKey.signal first) with
      | none =>
          obtain ⟨cleared, store, hrest, hstore⟩ := ih h
          rw [hfirst] at hup
          refine ⟨cleared, store, hup.trans hrest, fun signal => ?_⟩
          rw [hstore]
          by_cases hsignal : signal = first <;> simp [hsignal, hfirst]
      | some payload =>
          have hlowered : Scene.Settled { scene with
            store := (model (.delete (BlobKey.signal first)) scene.store).2 } := h
          obtain ⟨cleared, store, hrest, hstore⟩ := ih hlowered
          rw [hfirst] at hup
          refine ⟨first :: cleared, store, hup.trans ?_, fun signal => ?_⟩
          · exact (Work.perform_bind_ok (tester.perform_delete h first)).trans
              (Work.perform_bind_ok hrest)
          · rw [hstore, map.contents_snd, StoreCall.effect_delete, Function.update_apply]
            by_cases hsignal : signal = first <;> simp [hsignal]

/-! ## The offer -/

variable {tester}

/-- How things stand some time after the offer: the report is still to come, and FINISHED is
down, or it has been made. -/
inductive Standing (tester : Tester map id status) (offered elapsed : Nat) : Scene σ → Prop
  | waiting {store : σ} (early : elapsed < tester.delay)
      (down : map.contents store (BlobKey.signal .finished) = none) :
      Standing tester offered elapsed
        { store, clock := offered + elapsed, due := some (offered + tester.delay) }
  | reported {store : σ} (late : tester.delay ≤ elapsed)
      (finished : SignalBoard.reading .finished
        (.ok (map.contents store (BlobKey.signal .finished))) = .ok (some id))
      (archived : Archive.statusOf (map.contents store (BlobKey.status id)) = some status) :
      Standing tester offered elapsed { store, clock := offered + elapsed, due := none }

variable {offered elapsed : Nat}

theorem Standing.settled (h : tester.Standing offered elapsed scene) : scene.Settled := by
  cases h with
  | waiting early down =>
      rintro moment ⟨⟩
      exact Nat.add_lt_add_left early offered
  | reported late finished archived => exact nofun

theorem Standing.clock_eq (h : tester.Standing offered elapsed scene) :
    scene.clock = offered + elapsed := by
  cases h <;> rfl

theorem standing_settle {store : σ}
    (down : map.contents store (BlobKey.signal .finished) = none) :
    tester.Standing offered elapsed (tester.settle
      { store, clock := offered + elapsed, due := some (offered + tester.delay) }) := by
  by_cases hdue : tester.delay ≤ elapsed
  · rw [tester.settle_due rfl (Nat.add_le_add_left hdue offered)]
    exact .reported hdue (tester.report_finished store) (tester.report_status store)
  · rw [tester.settle_eq fun moment hmoment => ?_]
    · exact .waiting (Nat.not_le.1 hdue) down
    · cases hmoment
      exact Nat.add_lt_add_left (Nat.not_le.1 hdue) offered

theorem Standing.sleep (h : tester.Standing offered elapsed scene) (span : Duration) :
    tester.Standing offered (elapsed + span.toNanos) (tester.answer (.sleep span) scene).2 := by
  cases h with
  | waiting early down =>
      rw [answer, Nat.add_assoc]
      exact standing_settle ((tester.keeps_finished _ _).trans down)
  | reported late finished archived =>
      rw [answer, Nat.add_assoc]
      refine .reported (Nat.le_add_right_of_le late) ?_ ?_
      · rw [tester.keeps_finished, finished]
      · rw [tester.keeps_status, archived]

theorem perform_offer (store : σ) (clock : Nat) :
    ∃ scene, (Producer.offer id).run.perform tester.surroundings ⟨store, clock, none⟩ =
      (.ok (), scene) ∧ tester.Standing clock 0 scene := by
  have hidle (store : σ) : Scene.Settled ⟨store, clock, none⟩ := nofun
  obtain ⟨cleared, swept, hclear, hswept⟩ :=
    tester.perform_clear Signal.all (hidle store)
  have hdown (signal : Signal) : map.contents swept (BlobKey.signal signal) = none := by
    rw [hswept, if_pos signal.mem_all]
  have hfinished : map.contents (model (.put (BlobKey.signal .offered) id.payload) swept).2
      (BlobKey.signal .finished) = none := by
    rw [map.contents_snd, StoreCall.effect_put, Function.update_of_ne (by simp), hdown]
  -- The check and the offer, after the sweep and what is logged about it.
  have hraise : (do
      if ← Work.store (SignalBoard.isUp .offered) then throw .offeredNotCleared
      Work.store (SignalBoard.put .offered id) : WorkM Unit).run.perform tester.surroundings
        ⟨swept, clock, none⟩ =
      (.ok (), tester.settle ⟨(model (.put (BlobKey.signal .offered) id.payload) swept).2,
        clock + 0, some (clock + tester.delay)⟩) := by
    have hup := Work.perform_store_ok (tester.perform_isUp (hidle swept) .offered)
    rw [hdown] at hup
    exact (WorkM.perform_bind_ok hup).trans (Work.perform_store_ok (tester.perform_put_offered _))
  refine ⟨_, ?_, standing_settle hfinished⟩
  unfold Producer.offer
  refine (WorkM.perform_lift_bind (tester.perform_observe (hidle store) _)).trans ?_
  refine (WorkM.perform_bind_ok (Work.perform_store_ok hclear)).trans ?_
  dsimp only
  split
  · exact hraise
  · exact (WorkM.perform_lift_bind (tester.perform_observe (hidle swept) _)).trans hraise

/-! ## The wait -/

variable {producer : Producer} {polls : Nat}

theorem Standing.perform_now (h : tester.Standing offered elapsed scene) :
    Work.now.perform tester.surroundings scene = (offered + elapsed, scene) := by
  change (scene.clock, scene) = _
  rw [h.clock_eq]

theorem Standing.perform_await_late (h : tester.Standing offered elapsed scene)
    (late : producer.timeout.toNanos < elapsed) :
    (producer.await id offered (polls + 1)).run.perform tester.surroundings scene =
      (.error (.timeout id (Duration.ofNanos elapsed)), scene) := by
  unfold Producer.await
  refine (WorkM.perform_lift_bind h.perform_now).trans ?_
  dsimp only
  rw [Nat.add_sub_cancel_left, if_pos late]
  rfl

theorem Standing.perform_await_reported (h : tester.Standing offered elapsed scene)
    (intime : elapsed ≤ producer.timeout.toNanos) (reported : tester.delay ≤ elapsed) :
    (producer.await id offered (polls + 1)).run.perform tester.surroundings scene =
      (.ok true, scene) := by
  have hnow := h.perform_now
  have hread := tester.perform_read h.settled .finished
  cases h with
  | waiting early down => exact absurd reported (Nat.not_le.2 early)
  | reported late finished archived =>
      rw [finished] at hread
      unfold Producer.await
      refine (WorkM.perform_lift_bind hnow).trans ?_
      dsimp only
      rw [Nat.add_sub_cancel_left, if_neg (Nat.not_lt.2 intime)]
      refine (WorkM.perform_bind_ok (Work.perform_store_ok hread)).trans ?_
      simp only [ne_eq, not_true_eq_false, if_false]
      rfl

theorem Standing.perform_await_waiting (h : tester.Standing offered elapsed scene)
    (intime : elapsed ≤ producer.timeout.toNanos) (early : elapsed < tester.delay) :
    (producer.await id offered (polls + 1)).run.perform tester.surroundings scene =
      (producer.await id offered polls).run.perform tester.surroundings
        (tester.answer (.sleep producer.pollInterval) scene).2 := by
  have hnow := h.perform_now
  have hread := tester.perform_read h.settled .finished
  have hobserve := tester.perform_observe h.settled Signal.all
  cases h with
  | reported late finished archived => exact absurd late (Nat.not_le.2 early)
  | waiting early down =>
      rw [down, SignalBoard.reading_none] at hread
      rw [Producer.await.eq_def]
      dsimp only
      refine (WorkM.perform_lift_bind hnow).trans ?_
      rw [Nat.add_sub_cancel_left, if_neg (Nat.not_lt.2 intime)]
      refine (WorkM.perform_bind_ok (Work.perform_store_ok hread)).trans ?_
      refine (WorkM.perform_lift_bind hobserve).trans ?_
      exact WorkM.perform_lift_bind rfl

/-- The report is found at the first look after it, when that is within the timeout. -/
theorem Standing.perform_await_ok {looks last : Nat}
    (h : tester.Standing offered (looks * producer.pollInterval.toNanos) scene)
    (hlooks : looks ≤ last) (reported : tester.delay ≤ last * producer.pollInterval.toNanos)
    (intime : last * producer.pollInterval.toNanos ≤ producer.timeout.toNanos)
    (hpolls : last < looks + polls) :
    ∃ found elapsed, (producer.await id offered polls).run.perform tester.surroundings scene =
      (.ok true, found) ∧ tester.Standing offered elapsed found ∧ tester.delay ≤ elapsed := by
  induction polls generalizing looks scene with
  | zero => omega
  | succ polls ih =>
      have hlook : looks * producer.pollInterval.toNanos ≤ producer.timeout.toNanos :=
        Nat.le_trans (Nat.mul_le_mul_right _ hlooks) intime
      by_cases hreported : tester.delay ≤ looks * producer.pollInterval.toNanos
      · exact ⟨_, _, h.perform_await_reported hlook hreported, h, hreported⟩
      · have hearlier : looks ≠ last := fun heq => hreported (heq ▸ reported)
        have hsleep := h.sleep producer.pollInterval
        rw [← Nat.succ_mul] at hsleep
        rw [h.perform_await_waiting hlook (Nat.not_le.1 hreported)]
        exact ih hsleep (by omega) (by omega)

/-- A report that comes after the last look is not found. -/
theorem Standing.perform_await_error {looks : Nat}
    (h : tester.Standing offered (looks * producer.pollInterval.toNanos) scene)
    (hpoll : 0 < producer.pollInterval.toNanos) (missed : producer.lastLook < tester.delay)
    (hlooks : looks ≤ producer.timeout.toNanos / producer.pollInterval.toNanos + 1)
    (hpolls : producer.timeout.toNanos / producer.pollInterval.toNanos + 1 < looks + polls) :
    ∃ found, (producer.await id offered polls).run.perform tester.surroundings scene =
      (.error (.timeout id
        (Duration.ofNanos (producer.lastLook + producer.pollInterval.toNanos))), found) := by
  induction polls generalizing looks scene with
  | zero => omega
  | succ polls ih =>
      by_cases hlast : looks = producer.timeout.toNanos / producer.pollInterval.toNanos + 1
      · have hover : producer.timeout.toNanos < looks * producer.pollInterval.toNanos := by
          rw [hlast, ← Nat.div_lt_iff_lt_mul hpoll]
          exact Nat.lt_succ_self _
        rw [h.perform_await_late hover, hlast, Nat.succ_mul]
        exact ⟨_, rfl⟩
      · have hwithin : looks ≤ producer.timeout.toNanos / producer.pollInterval.toNanos := by omega
        have hlook : looks * producer.pollInterval.toNanos ≤ producer.lastLook :=
          Nat.mul_le_mul_right _ hwithin
        have hsleep := h.sleep producer.pollInterval
        rw [← Nat.succ_mul] at hsleep
        rw [h.perform_await_waiting (Nat.le_trans hlook (Nat.div_mul_le_self _ _))
          (Nat.lt_of_le_of_lt hlook missed)]
        exact ih hsleep (by omega) (by omega)

theorem Standing.perform_collect (h : tester.Standing offered elapsed scene)
    (reported : tester.delay ≤ elapsed) :
    ∃ collected, (Producer.collect id).run.perform tester.surroundings scene =
      (.ok status, collected) := by
  have hsettled := h.settled
  cases h with
  | waiting early down => exact absurd reported (Nat.not_le.2 early)
  | @reported store late finished archived =>
      have hread := tester.perform_readStatus hsettled
      rw [archived] at hread
      have hdelete := tester.perform_delete hsettled .finished
      unfold Producer.collect
      exact ⟨_, (WorkM.perform_bind_ok (Work.perform_store_ok hread)).trans
        (WorkM.perform_bind_ok (Work.perform_store_ok hdelete))⟩

theorem perform_offerAndWait (tester : Tester map id status) (producer : Producer) (polls : Nat)
    (store : σ) (clock : Nat) :
    ∃ scene, tester.Standing clock (0 * producer.pollInterval.toNanos) scene ∧
      (producer.offerAndWait polls id).run.perform tester.surroundings ⟨store, clock, none⟩ =
        (do if ← producer.await id clock polls then return some (← Producer.collect id)
            return none : WorkM (Option Status)).run.perform tester.surroundings scene := by
  obtain ⟨scene, hoffer, hscene⟩ := tester.perform_offer store clock
  refine ⟨scene, by rwa [Nat.zero_mul], ?_⟩
  unfold Producer.offerAndWait
  exact (WorkM.perform_bind_ok hoffer).trans (WorkM.perform_lift_bind hscene.perform_now)

theorem perform_offerAndWait_ok (store : σ) (clock : Nat)
    (reported : tester.delay ≤ producer.lastLook)
    (hpolls : producer.timeout.toNanos / producer.pollInterval.toNanos < polls) :
    ((producer.offerAndWait polls id).run.perform tester.surroundings ⟨store, clock, none⟩).1 =
      .ok (some status) := by
  obtain ⟨scene, hscene, hrun⟩ := tester.perform_offerAndWait producer polls store clock
  obtain ⟨found, elapsed, hawait, hfound, helapsed⟩ := hscene.perform_await_ok (Nat.zero_le _)
    reported (Nat.div_mul_le_self _ _) (Nat.lt_of_lt_of_eq hpolls (Nat.zero_add _).symm)
  obtain ⟨collected, hcollect⟩ := hfound.perform_collect helapsed
  rw [hrun, WorkM.perform_bind_ok hawait, if_pos rfl, WorkM.perform_bind_ok hcollect]
  rfl

theorem perform_offerAndWait_error (store : σ) (clock : Nat)
    (hpoll : 0 < producer.pollInterval.toNanos) (missed : producer.lastLook < tester.delay)
    (hpolls : producer.timeout.toNanos / producer.pollInterval.toNanos + 1 < polls) :
    ((producer.offerAndWait polls id).run.perform tester.surroundings ⟨store, clock, none⟩).1 =
      .error (.timeout id
        (Duration.ofNanos (producer.lastLook + producer.pollInterval.toNanos))) := by
  obtain ⟨scene, hscene, hrun⟩ := tester.perform_offerAndWait producer polls store clock
  obtain ⟨found, hawait⟩ := hscene.perform_await_error hpoll missed (Nat.zero_le _)
    (Nat.lt_of_lt_of_eq hpolls (Nat.zero_add _).symm)
  rw [hrun, WorkM.perform_bind_error hawait]

/-- What a producer comes to whose tester reports some time after the offer: the status when the
report is there at the last look within the timeout, and else a timeout at the look after it.
The store may hold anything at first, and polls that suffice for the timeout are enough. -/
theorem result_by_last_look (tester : Tester map id status) (producer : Producer) (polls : Nat)
    (store : σ) (clock : Nat) (hpoll : 0 < producer.pollInterval.toNanos)
    (hpolls : producer.timeout.toNanos / producer.pollInterval.toNanos + 1 < polls) :
    ((producer.offerAndWait polls id).run.perform tester.surroundings ⟨store, clock, none⟩).1 =
      if tester.delay ≤ producer.lastLook then .ok (some status)
      else .error (.timeout id
        (Duration.ofNanos (producer.lastLook + producer.pollInterval.toNanos))) := by
  split
  · next reported =>
    exact perform_offerAndWait_ok store clock reported (Nat.lt_of_succ_lt hpolls)
  · next missed =>
    exact perform_offerAndWait_error store clock hpoll (Nat.not_le.1 missed) hpolls

def punctual (map : KeyValue model) (id : WorkUnitId) (status : Status) (delay : Nat) :
    Tester map id status where
  delay
  report s :=
    (model (.put (BlobKey.signal .finished) id.payload)
      (model (.put (BlobKey.status id) status.payload) s).2).2
  meanwhile _ s := (model (.delete (BlobKey.signal .offered)) s).2
  report_finished s := by
    rw [map.contents_snd, StoreCall.effect_put, Function.update_self,
      SignalBoard.reading_payload]
  report_status s := by
    rw [map.contents_snd, StoreCall.effect_put, Function.update_of_ne (by simp),
      map.contents_snd, StoreCall.effect_put, Function.update_self, Archive.statusOf_payload]
  keeps_finished _ s := by simp [map.contents_snd]
  keeps_status _ s := by simp [map.contents_snd]

def watchful : Producer := ⟨Duration.ofSecs 2, Duration.ofSecs 5⟩

def drowsy : Producer := ⟨Duration.ofMillis 400, Duration.ofMillis 200⟩

def trial : WorkUnitId := ⟨"X", by decide⟩

/-- A report after three seconds is found by the look after four, on a store with a FINISHED
that is left over. -/
theorem result_by_last_look_in_time :
    ((watchful.offerAndWait 4 trial).run.perform
      (punctual MemoryStore.keyValue trial .failed 3000000000).surroundings
      ⟨StringMap.ofList [("magic/FINISHED", trial.payload)], 17, none⟩).1 =
        .ok (some .failed) :=
  (result_by_last_look (punctual MemoryStore.keyValue trial .failed 3000000000) watchful 4 _ 17
    (by decide) (by decide)).trans (if_pos (by decide))

/-- A report after 100 ms is within a timeout of 200 ms.  A producer that looks every 400 ms
does not find it, however often it polls. -/
theorem report_in_time_missed :
    0 < drowsy.pollInterval.toNanos ∧
      (punctual MemoryStore.keyValue trial .passed 100000000).delay ≤ drowsy.timeout.toNanos ∧
      ∀ polls, 2 ≤ polls → ((drowsy.offerAndWait polls trial).run.perform
        (punctual MemoryStore.keyValue trial .passed 100000000).surroundings
        ⟨StringMap.empty, 0, none⟩).1 = .error (.timeout trial (Duration.ofMillis 400)) := by
  refine ⟨by decide, by decide, fun polls hpolls => ?_⟩
  exact perform_offerAndWait_error _ 0 (by decide) (by decide) hpolls

end Tester

end Handoff
