import Handoff.Proofs.Performance
import Handoff.Proofs.Round.Poll
import Handoff.Proofs.Round.Replay
/-!
# A reload makes no difference

A consumer that is told to reload leaves its work to the next one, which polls again.  However
often that happens, what comes of the offer in the end is what a single poll would have made of
it: a poll that ends with a reload has changed nothing.
-/

namespace Handoff

open Program

namespace Consumer

def unlessReload (rest : WorkM PollOutcome) : WorkM PollOutcome := do
  if ← ExceptT.lift Work.reloadWanted then return .reload
  rest

def carryOut (consumer : Consumer) (id checkedOut : WorkUnitId) : WorkM PollOutcome := do
  if checkedOut ≠ id then throw (.checkoutMismatch id checkedOut)
  consumer.process id

def attend (consumer : Consumer) : WorkM PollOutcome := do
  ExceptT.lift (Work.ofStorage SignalBoard.logState)
  match ← readOffer with
  | none => return .idle
  | some id =>
      match ← Work.checkOut id with
      | none => skip id
      | some checkedOut => unlessReload (consumer.carryOut id checkedOut)

theorem poll_eq (consumer : Consumer) : consumer.poll = unlessReload consumer.attend := rfl

/-- Polls until no reload is wanted; after each reload a new consumer recovers and goes on.
`none` when `polls` polls did not suffice. -/
def pollThrough (consumer : Consumer) : Nat → WorkM (Option PollOutcome)
  | 0 => return none
  | polls + 1 => do
      match ← consumer.poll with
      | .reload =>
          let next := { consumer with start := .reloaded }
          let _ ← next.recover
          next.pollThrough polls
      | outcome => return some outcome

end Consumer

structure Facilities (σ ω : Type) where
  store : StoreModel σ
  /-- Looking at an entry changes nothing. -/
  get_snd : ∀ key s, (store (.get key) s).2 = s
  /-- What a checkout comes to, for each unit. -/
  checkOut : WorkUnitId → Except VcsFault (Option WorkUnitId)
  /-- What a command comes to, by the state that the commands before it have left. -/
  run : Command → Option Duration → ω → Except RunFault (Option ExecutionRecord) × ω

structure Workshop (σ ω : Type) where
  store : σ
  machine : ω

namespace Facilities

variable {σ ω : Type} (facilities : Facilities σ ω)

/-- The answers to a consumer whose program does not change.  It has no use for the clock. -/
def answer : (request : WorkRequest) → Workshop σ ω → request.Answer × Workshop σ ω
  | .store call, shop =>
      let (reply, store) := facilities.store call shop.store
      (reply, { shop with store })
  | .checkOut id, shop => (facilities.checkOut id, shop)
  | .run command limit, shop =>
      let (reply, machine) := facilities.run command limit shop.machine
      (reply, { shop with machine })
  | .reloadWanted, shop => (false, shop)
  | .print _, shop => ((), shop)
  | .now, shop => (0, shop)
  | .sleep _, shop => ((), shop)

def scripted : (request : WorkRequest) → List Bool × Workshop σ ω →
    request.Answer × List Bool × Workshop σ ω
  | .reloadWanted, (reloads, shop) => (reloads.headD false, reloads.tail, shop)
  | request, (reloads, shop) =>
      let (reply, shop) := facilities.answer request shop
      (reply, reloads, shop)

def calm : Surroundings Work (Workshop σ ω) := facilities.answer

def restless : Surroundings Work (List Bool × Workshop σ ω) := facilities.scripted

variable {facilities} {shop : Workshop σ ω} {reloads : List Bool}

def Indifferent (request : WorkRequest) : Prop :=
  request ≠ .reloadWanted

theorem perform_restless {α : Type} {program : Program Work α} {fit : α → Prop}
    (h : program.Within Indifferent fit) (reloads : List Bool) (shop : Workshop σ ω) :
    program.perform facilities.restless (reloads, shop) =
      ((program.perform facilities.calm shop).1, reloads,
        (program.perform facilities.calm shop).2) := by
  refine h.perform_eq (fun request hrequest shop => ?_) shop
  cases request with
  | reloadWanted => exact absurd rfl hrequest
  | _ => rfl

/-! ## What a poll does besides asking for reloads -/

theorem indifferent_store (call : StoreCall) : Indifferent (.store call) := nofun

def Final : Except RoundFault PollOutcome → Prop
  | .ok .reload => False
  | _ => True

theorem within_store_bind {α : Type} {program : StoreM α} {next : α → WorkM PollOutcome}
    (hnext : ∀ value, (next value).run.Within Indifferent Final) :
    (Work.store program >>= next).run.Within Indifferent Final :=
  WorkM.within_bind ((Work.within_store indifferent_store program).mono fun _ _ value _ =>
    hnext value) fun _ => trivial

theorem within_skip (id : WorkUnitId) : (Consumer.skip id).run.Within Indifferent Final :=
  within_store_bind fun _ => within_store_bind fun _ => within_store_bind fun _ => trivial

def Underway : PollPhase → Prop
  | .looking _ => False
  | .arrived _ _ => False
  | _ => True

theorem Underway.step {phase after : PollPhase} {request : WorkRequest} {answer : request.Answer}
    (hphase : Underway phase) (h : PollPhase.Moves phase request answer after) :
    Indifferent request ∧ Underway after := by
  cases h with
  | write result writes =>
      refine ⟨nofun, ?_⟩
      cases writes <;> trivial
  | reloadCheck | look | observe | giveUp | stuck | missing | arrive => exact hphase.elim
  | reload | astray | agree => exact hphase.elim
  | _ => exact ⟨nofun, trivial⟩

theorem within_execute (consumer : Consumer) (id : WorkUnitId) :
    (consumer.execute id).Within Indifferent fun _ => True :=
  Consumer.follows_execute.within Underway trivial Underway.step fun _ _ => trivial

theorem within_process (consumer : Consumer) (id : WorkUnitId) :
    (consumer.process id).run.Within Indifferent Final := by
  refine within_store_bind fun _ => within_store_bind fun _ => ?_
  have hexecute : (ExceptT.lift (consumer.execute id) : WorkM Status).run.Within Indifferent
      fun _ => True :=
    Program.within_bind.2 ((within_execute consumer id).mono fun _ _ => trivial)
  refine WorkM.within_bind (hexecute.mono fun _ _ status _ => ?_) fun _ => trivial
  exact within_store_bind fun _ => within_store_bind fun _ => within_store_bind fun _ => trivial

theorem within_readOffer : Consumer.readOffer.run.Within Indifferent fun _ => True := by
  have hclear : Consumer.readOffer.clear.Within Indifferent fun _ => True := by
    refine Program.within_bind.2 ((Work.within_store indifferent_store _).mono fun result _ => ?_)
    cases result <;> trivial
  refine Program.within_bind.2 ((Work.within_ofStorage indifferent_store _).mono fun result _ => ?_)
  split
  · trivial
  · exact hclear
  · exact hclear
  · trivial

theorem looking_of_moves {phase : PollPhase} {seen : Except StoreFault (Option WorkUnitId)}
    {request : WorkRequest} {answer : request.Answer}
    (h : PollPhase.Moves phase request answer (.looking seen)) :
    (∃ before, phase = .looking before) ∧
      (request = .reloadWanted ∨ ∃ signal, request = WorkRequest.look signal) := by
  cases h with
  | reloadCheck wanted => exact ⟨⟨_, rfl⟩, .inl rfl⟩
  | look answer => exact ⟨⟨_, rfl⟩, .inr ⟨_, rfl⟩⟩
  | observe answer other => exact ⟨⟨_, rfl⟩, .inr ⟨_, rfl⟩⟩
  | write result writes => cases writes

/-- As long as a poll has not decided anything it has changed nothing. -/
def Untouched (shop : Workshop σ ω) (phase : PollPhase) (now : Workshop σ ω) : Prop :=
  ∀ seen, phase = .looking seen → now = shop

theorem Untouched.step {phase after : PollPhase} {request : WorkRequest} {now : Workshop σ ω}
    (h : Untouched shop phase now)
    (hmove : PollPhase.Moves phase request (facilities.answer request now).1 after) :
    Untouched shop after (facilities.answer request now).2 := by
  rintro seen rfl
  obtain ⟨⟨before, hphase⟩, hrequest⟩ := looking_of_moves hmove
  obtain rfl := h before hphase
  rcases hrequest with rfl | ⟨signal, rfl⟩
  · rfl
  · simp only [answer, facilities.get_snd]

theorem perform_logState (shop : Workshop σ ω) :
    (Work.ofStorage SignalBoard.logState).perform facilities.calm shop = ((), shop) := by
  refine Work.perform_observe (fun signal => ?_) Signal.all
  simp only [calm, answer, facilities.get_snd]

/-- A poll that has read an offer has changed nothing. -/
theorem perform_readOffer {id : WorkUnitId}
    (h : (Consumer.readOffer.run.perform facilities.calm shop).1 = .ok (some id)) :
    (Consumer.readOffer.run.perform facilities.calm shop).2 = shop := by
  have hfollows : Consumer.readOffer.run.Follows PollPhase.Moves Consumer.Read
      (.looking (.ok none)) := Consumer.follows_readOffer
  obtain ⟨last, ⟨-, hread⟩, hlast⟩ :=
    hfollows.perform (show Untouched shop _ shop from fun _ _ => rfl) Untouched.step
  exact hlast _ (hread id h)

theorem perform_checkOut_snd (id : WorkUnitId) (shop : Workshop σ ω) :
    ((Work.checkOut id).run.perform facilities.calm shop).2 = shop := by
  have hanswer : (request (I := Work) (.checkOut id)).perform facilities.calm shop =
      (facilities.checkOut id, shop) := rfl
  rw [Work.checkOut, ExceptT.run_mk, perform_bind, hanswer]
  cases facilities.checkOut id <;> rfl

/-! ## Polls under a script -/

/-- Whatever the script, the program ends with a reload and has changed nothing, or it comes to
what it comes to without reloads. -/
def Restartable (facilities : Facilities σ ω) (program : WorkM PollOutcome) : Prop :=
  ∀ reloads shop,
    (∃ rest, program.run.perform facilities.restless (reloads, shop) =
        (.ok .reload, rest, shop) ∧ rest.length < reloads.length) ∨
      ∃ rest, program.run.perform facilities.restless (reloads, shop) =
        ((program.run.perform facilities.calm shop).1, rest,
          (program.run.perform facilities.calm shop).2) ∧
        Final (program.run.perform facilities.calm shop).1

theorem restartable_of_within {program : WorkM PollOutcome}
    (h : program.run.Within Indifferent Final) : Restartable facilities program :=
  fun reloads shop => .inr ⟨reloads, perform_restless h reloads shop, h.fit_perform shop⟩

theorem Restartable.unlessReload {rest : WorkM PollOutcome} (h : Restartable facilities rest) :
    Restartable facilities (Consumer.unlessReload rest) := by
  intro reloads shop
  cases reloads with
  | nil => exact h [] shop
  | cons wanted later =>
      cases wanted with
      | true => exact .inl ⟨later, rfl, Nat.lt_succ_self _⟩
      | false =>
          rcases h later shop with ⟨last, hrun, hlast⟩ | ⟨last, hrun, hfinal⟩
          · exact .inl ⟨last, hrun, Nat.lt_succ_of_lt hlast⟩
          · exact .inr ⟨last, hrun, hfinal⟩

theorem within_carryOut (consumer : Consumer) (id checkedOut : WorkUnitId) :
    (consumer.carryOut id checkedOut).run.Within Indifferent Final := by
  unfold Consumer.carryOut
  split
  · trivial
  · exact within_process consumer id

/-- A program goes on as it could start again, as long as it has changed nothing. -/
theorem restartable_bind {α : Type} {program : WorkM α} {next : α → WorkM PollOutcome}
    (h : program.run.Within Indifferent fun _ => True)
    (hnext : ∀ shop value, (program.run.perform facilities.calm shop).1 = .ok value →
      (next value).run.Within Indifferent Final ∨
        (program.run.perform facilities.calm shop).2 = shop ∧
          Restartable facilities (next value)) :
    Restartable facilities (program >>= next) := by
  intro reloads shop
  have hrun : program.run.perform facilities.restless (reloads, shop) = _ :=
    perform_restless h reloads shop
  have hvalue := hnext shop
  cases hcalm : program.run.perform facilities.calm shop with
  | mk result later =>
      rw [hcalm] at hrun hvalue
      cases result with
      | error fault =>
          rw [WorkM.perform_bind_error hrun, WorkM.perform_bind_error hcalm]
          exact .inr ⟨reloads, rfl, trivial⟩
      | ok value =>
          rw [WorkM.perform_bind_ok hrun, WorkM.perform_bind_ok hcalm]
          rcases hvalue value rfl with hwithin | ⟨hsame, hrestart⟩
          · exact .inr ⟨reloads, perform_restless hwithin reloads later, hwithin.fit_perform later⟩
          · obtain rfl : later = shop := hsame
            exact hrestart reloads later

theorem restartable_attend (consumer : Consumer) :
    Restartable facilities consumer.attend := by
  refine restartable_bind ?_ fun shop _ _ => .inr ⟨?_, ?_⟩
  · exact Program.within_bind.2
      ((Work.within_ofStorage indifferent_store _).mono fun _ _ => trivial)
  · exact congrArg Prod.snd (perform_logState shop)
  refine restartable_bind within_readOffer fun shop found hfound => ?_
  cases found with
  | none => exact .inl trivial
  | some id =>
      refine .inr ⟨perform_readOffer hfound, restartable_bind ?_ fun shop found _ => .inr ⟨?_, ?_⟩⟩
      · rintro (fault | found) <;> exact ⟨(), nofun, trivial⟩
      · exact perform_checkOut_snd id shop
      · cases found with
        | none => exact restartable_of_within (within_skip id)
        | some checkedOut =>
            exact (restartable_of_within (within_carryOut consumer id checkedOut)).unlessReload

theorem restartable_poll (consumer : Consumer) : Restartable facilities consumer.poll := by
  rw [Consumer.poll_eq]
  exact (restartable_attend consumer).unlessReload

/-- Polls that are broken off by reloads, each followed by a consumer that recovers and polls
anew, come to what a single poll comes to that is never asked to reload, with the same store in
the end.  The script may ask for a reload at any of its checks; more polls than it has answers
are enough. -/
theorem reload_transparent (facilities : Facilities σ ω) (consumer : Consumer)
    (reloads : List Bool) (polls : Nat) (hpolls : reloads.length < polls) (shop : Workshop σ ω) :
    ∃ rest, (consumer.pollThrough polls).run.perform facilities.restless (reloads, shop) =
      (some <$> (consumer.poll.run.perform facilities.calm shop).1, rest,
        (consumer.poll.run.perform facilities.calm shop).2) := by
  induction polls generalizing consumer reloads with
  | zero => exact absurd hpolls (Nat.not_lt_zero _)
  | succ polls ih =>
      rcases restartable_poll consumer reloads shop with
        ⟨rest, hrun, hrest⟩ | ⟨rest, hrun, hfinal⟩
      · -- The next consumer polls like this one.
        rw [Consumer.pollThrough, WorkM.perform_bind_ok hrun]
        exact ih { consumer with start := .reloaded } rest (by omega)
      · cases hcalm : consumer.poll.run.perform facilities.calm shop with
        | mk result later =>
            rw [hcalm] at hrun hfinal
            refine ⟨rest, ?_⟩
            rw [Consumer.pollThrough]
            cases result with
            | error fault => exact WorkM.perform_bind_error hrun
            | ok outcome =>
                refine (WorkM.perform_bind_ok hrun).trans ?_
                cases outcome with
                | reload => exact hfinal.elim
                | idle | skipped | completed => rfl

/-- A store in memory, a checkout that finds every unit, and commands of which each second one
fails. -/
def flaky : Facilities MemoryStore Nat where
  store := MemoryStore.answer
  get_snd _ _ := rfl
  checkOut id := .ok (some id)
  run _ _ count := (.ok (if count % 2 = 0 then none else some Interleaving.brokenBuild), count + 1)

def pending : Workshop MemoryStore Nat where
  store := StringMap.ofList
    [((BlobKey.signal .offered).text, (Interleaving.retries 0).id.payload),
      ((BlobKey.signal .claimed).text, ByteArray.empty)]
  machine := 3

/-- The offer outlives a reload before it is read and two more after the checkout. -/
theorem reload_transparent_three_times : ∃ rest later,
    (Interleaving.builder.pollThrough 6).run.perform flaky.restless
        ([true, false, true, false, true], pending) =
      (.ok (some (.completed (Interleaving.retries 0).id .failed)), rest, later) ∧
    later.store.get? (BlobKey.status (Interleaving.retries 0).id).text =
      some Status.failed.payload := by
  obtain ⟨rest, hrun⟩ := reload_transparent flaky Interleaving.builder
    [true, false, true, false, true] 6 (by decide) pending
  have hplain : (Interleaving.builder.poll.run.perform flaky.calm pending).1 =
      .ok (.completed (Interleaving.retries 0).id .failed) := rfl
  have hstatus : (Interleaving.builder.poll.run.perform flaky.calm pending).2.store.get?
      (BlobKey.status (Interleaving.retries 0).id).text = some Status.failed.payload := by
    decide +kernel
  rw [hplain] at hrun
  exact ⟨rest, _, hrun, hstatus⟩

end Facilities

end Handoff
