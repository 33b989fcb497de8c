import Handoff.Proofs.Round.Replay
/-!
# A unit of work stays visible

One poll on a store whose calls may fail, with or without having taken effect, while
others write elsewhere.  From the read of an offer on, some signal shows the unit until
the poll has ended, and FINISHED is raised only when the status has been written.
-/

namespace Handoff

open WorkRequest Interleaving

variable {σ : Type} {model : StoreModel σ}

/-- How a request may be answered when store calls can fail: a call that fails may or may
not have taken effect. -/
inductive Endured (model : StoreModel σ) :
    (request : WorkRequest) → σ → request.Answer → σ → Prop
  | served {request : WorkRequest} {before after : σ} {answer : request.Answer}
      (served : Served model request before answer after) :
      Endured model request before answer after
  | lost {call : StoreCall} {before : σ} (fault : StoreFault) :
      Endured model (.store call) before (.error fault) before
  | hidden {call : StoreCall} {before : σ} (fault : StoreFault) :
      Endured model (.store call) before (.error fault) (model call before).2

namespace Endured

variable (map : KeyValue model) {before after : σ} {key : BlobKey} {request : WorkRequest}
  {answer : request.Answer}
include map

theorem contents_of_not_writes (h : Endured model request before answer after)
    (hkey : ¬request.writes key) : map.contents after key = map.contents before key := by
  cases h with
  | served served => exact served.contents_of_not_writes map hkey
  | lost fault => rfl
  | @hidden call _ fault =>
      have served : Served model (.store call) before (model call before).1
        (model call before).2 := rfl
      exact served.contents_of_not_writes map hkey

omit map in
theorem ok {call : StoreCall} {result : call.Result}
    (h : Endured model (.store call) before (.ok result) after) :
    Served model (.store call) before (.ok result) after := by
  cases h with
  | served served => exact served

end Endured

/-- A poll under way: the store, the exchanges so far, and what is left to do. -/
structure Sitting (σ : Type) where
  store : σ
  record : List Exchange
  rest : Program Work (Except RoundFault PollOutcome)

namespace Sitting

/-- The poll makes its next request, or somebody else writes the store under keys that
are not kept. -/
inductive Goes (map : KeyValue model) (Kept : BlobKey → Prop) : Sitting σ → Sitting σ → Prop
  | ask {s : Sitting σ} {request : WorkRequest}
      {next : request.Answer → Program Work (Except RoundFault PollOutcome)}
      {answer : request.Answer} {store : σ} (asks : s.rest = .ask (I := Work) request next)
      (endured : Endured model request s.store answer store) :
      Goes map Kept s
        { store, record := ⟨request, answer⟩ :: s.record, rest := next answer }
  | others {s : Sitting σ} {store : σ}
      (same : ∀ key, Kept key → map.contents store key = map.contents s.store key) :
      Goes map Kept s { s with store }

end Sitting

def unitRead : List Exchange → Option WorkUnitId
  | [] => none
  | ⟨.store (.get key), answer⟩ :: past =>
      if key = BlobKey.signal .offered then
        match SignalBoard.reading .offered answer with
        | .ok found => found
        | .error _ => none
      else unitRead past
  | _ :: past => unitRead past

@[simp] theorem unitRead_cons_look {answer : Except StoreFault (Option ByteArray)}
    {past : List Exchange} :
    unitRead (⟨look .offered, answer⟩ :: past) =
      (PollPhase.looking (SignalBoard.reading .offered answer)).unit? := by
  refine (if_pos rfl).trans ?_
  cases SignalBoard.reading .offered answer <;> rfl

theorem unitRead_cons_of_ne_look {x : Exchange} {past : List Exchange}
    (h : x.request ≠ look .offered) : unitRead (x :: past) = unitRead past := by
  obtain ⟨request, answer⟩ := x
  cases request with
  | store call =>
      cases call with
      | get key => exact if_neg fun hkey => h (by rw [hkey])
      | put key value => rfl
      | delete key => rfl
      | has key => rfl
      | list start => rfl
  | _ => rfl

def Shows (contents : Contents) (signal : Signal) (id : WorkUnitId) : Prop :=
  ∃ payload, contents (BlobKey.signal signal) = some payload ∧
    SignalBoard.decodePayload signal payload = .ok id

namespace PollPhase

/-- The signals of which one shows the unit that the poll has read. -/
def shownBy : PollPhase → List Signal
  | surveying => []
  | clearing => []
  | claimed _ => [.claimed]
  | running _ _ => [.claimed]
  | judged ran _ _ => [if ran then .claimed else .offered]
  | announced _ _ _ => [.finished]
  | ended _ => Signal.all
  | _ => [.offered]

/-- The unit that the poll has read is shown by one of the signals that should. -/
def Visible (contents : Contents) (phase : PollPhase) : Prop :=
  ∀ id, phase.unit? = some id → ∃ signal ∈ phase.shownBy, Shows contents signal id

theorem Visible.of_same {contents after : Contents} {phase later : PollPhase}
    (h : phase.Visible contents)
    (hsame : ∀ signal ∈ phase.shownBy,
      after (BlobKey.signal signal) = contents (BlobKey.signal signal))
    (hunit : later.unit? = phase.unit?) (hshown : phase.shownBy ⊆ later.shownBy) :
    later.Visible after := by
  intro id hid
  obtain ⟨signal, hsignal, payload, hpayload, hdecode⟩ := h id (hunit ▸ hid)
  exact ⟨signal, hshown hsignal, payload, (hsame signal hsignal).trans hpayload, hdecode⟩

/-- No write of a poll touches the signal that shows its unit. -/
theorem Writes.spares {id : WorkUnitId} {phase after : PollPhase} {call : StoreCall}
    (h : Writes id phase call after) :
    ∀ signal ∈ phase.shownBy, ¬(WorkRequest.store call).writes (BlobKey.signal signal) := by
  cases h with
  | excuse => simp [shownBy, writes]
  | claim => simp [shownBy, writes]
  | take => simp [shownBy, writes]
  | judge => simp [shownBy, writes]
  | @announce ran status => cases ran <;> simp [shownBy, writes]
  | release => simp [shownBy, writes]
  | withdraw => simp [shownBy, writes]

theorem Writes.unit? {id : WorkUnitId} {phase after : PollPhase} {call : StoreCall}
    (h : Writes id phase call after) : phase.unit? = some id ∧ after.unit? = some id := by
  cases h <;> exact ⟨rfl, rfl⟩

theorem shows_raised {contents : Contents} {signal : Signal} {id : WorkUnitId}
    (h : contents (BlobKey.signal signal) = some id.payload) : Shows contents signal id :=
  ⟨id.payload, h, SignalBoard.decodePayload_payload signal id⟩

theorem Writes.visible {id : WorkUnitId} {phase after : PollPhase} {call : StoreCall}
    {contents later : Contents} (h : Writes id phase call after)
    (hvisible : phase.Visible contents) (hlater : later = call.effect contents)
    (hsame : ∀ signal ∈ phase.shownBy,
      later (BlobKey.signal signal) = contents (BlobKey.signal signal)) :
    after.Visible later := by
  cases h with
  | excuse => exact hvisible.of_same hsame rfl (List.Subset.refl _)
  | take => exact hvisible.of_same hsame rfl (List.Subset.refl _)
  | judge => exact hvisible.of_same hsame rfl (List.Subset.refl _)
  | release => exact hvisible.of_same hsame rfl fun signal _ => Signal.mem_all signal
  | withdraw => exact hvisible.of_same hsame rfl fun signal _ => Signal.mem_all signal
  | claim =>
      rintro _ ⟨rfl⟩
      refine ⟨.claimed, List.mem_cons_self, shows_raised ?_⟩
      rw [hlater, StoreCall.effect_put, Function.update_self]
  | announce =>
      rintro _ ⟨rfl⟩
      refine ⟨.finished, List.mem_cons_self, shows_raised ?_⟩
      rw [hlater, StoreCall.effect_put, Function.update_self]

/-- What the phase of a poll says about the status of its unit, where nobody else writes
it. -/
def StatusKept (Kept : BlobKey → Prop) (contents : Contents) (record : List Exchange) :
    PollPhase → Prop
  | judged _ id status =>
      Kept (BlobKey.status id) → contents (BlobKey.status id) = some status.payload
  | announced _ id status =>
      Kept (BlobKey.status id) → contents (BlobKey.status id) = some status.payload
  | ended id =>
      (∃ x ∈ record, x.request = raise .finished id) → Kept (BlobKey.status id) →
        contents (BlobKey.status id) = some (verdict record).payload
  | _ => True

theorem Moves.ne_surveying {phase after : PollPhase} {request : WorkRequest}
    {answer : request.Answer} (h : Moves phase request answer after)
    (hphase : phase ≠ surveying) : after ≠ surveying := by
  cases h with
  | inspect answer => exact hphase
  | write result writes => cases writes <;> nofun
  | _ => nofun

theorem Moves.unit?_of_ne_look {phase after : PollPhase} {request : WorkRequest}
    {answer : request.Answer} (h : Moves phase request answer after)
    (hlook : request ≠ WorkRequest.look .offered) : after.unit? = phase.unit? := by
  cases h with
  | look answer => exact absurd rfl hlook
  | write result writes => rw [writes.unit?.1, writes.unit?.2]
  | fault fault writes => exact writes.unit?.1.symm
  | _ => rfl

theorem of_unit?_looking {answer : Except StoreFault (Option ByteArray)} {id : WorkUnitId}
    (h : (looking (SignalBoard.reading .offered answer)).unit? = some id) :
    ∃ payload, answer = .ok (some payload) ∧
      SignalBoard.decodePayload .offered payload = .ok id := by
  rcases answer with fault | _ | payload
  · cases h
  · cases h
  · refine ⟨payload, rfl, ?_⟩
    cases hdecode : SignalBoard.decodePayload .offered payload with
    | error fault =>
        rw [SignalBoard.reading, hdecode] at h
        cases h
    | ok found =>
        rw [SignalBoard.reading, hdecode] at h
        cases h
        rfl

theorem Moves.unit?_eq {phase after : PollPhase} {request : WorkRequest}
    {answer : request.Answer} {record : List Exchange}
    (h : Moves phase request answer after) (hphase : phase ≠ surveying)
    (hread : phase.unit? = unitRead record) :
    after.unit? = unitRead (⟨request, answer⟩ :: record) := by
  by_cases hlook : request = WorkRequest.look .offered
  · cases h with
    | look answer => rw [unitRead_cons_look]
    | observe answer other =>
        exact absurd (BlobKey.signal_injective
          (StoreCall.get.inj (WorkRequest.store.inj hlook))) other
    | inspect answer => exact absurd rfl hphase
    | write result writes => cases writes <;> cases hlook
    | fault fault writes => cases writes <;> cases hlook
    | _ => cases hlook
  · rw [unitRead_cons_of_ne_look hlook, ← hread]
    exact h.unit?_of_ne_look hlook

end PollPhase

open PollPhase

structure SittingInvariant (map : KeyValue model) (Kept : BlobKey → Prop) (s : Sitting σ)
    (phase : PollPhase) : Prop where
  follows : s.rest.Follows Moves Consumer.Ended phase
  notRecovery : phase ≠ .surveying
  account : phase.Account s.record
  read : phase.unit? = unitRead s.record
  visible : phase.Visible (map.contents s.store)
  /-- What is announced is the unit that was read. -/
  named : ∀ x ∈ s.record, ∀ id, x.request = raise .finished id → phase.unit? = some id
  status : phase.StatusKept Kept (map.contents s.store) s.record

namespace SittingInvariant

variable {map : KeyValue model} {Kept : BlobKey → Prop} {s : Sitting σ} {phase after : PollPhase}
  {request : WorkRequest} {answer : request.Answer} {store : σ}

private theorem visible_look {answer : Except StoreFault (Option ByteArray)}
    (endured : Endured model (look .offered) s.store answer store) :
    (PollPhase.looking (SignalBoard.reading .offered answer)).Visible (map.contents store) := by
  intro id hid
  have hsame : map.contents store (BlobKey.signal .offered) =
      map.contents s.store (BlobKey.signal .offered) :=
    endured.contents_of_not_writes map nofun
  obtain ⟨payload, rfl, hdecode⟩ := of_unit?_looking hid
  have hfound := Except.ok.inj (endured.ok.get map)
  rw [← hsame] at hfound
  exact ⟨.offered, List.mem_cons_self, payload, hfound.symm, hdecode⟩

private theorem visible_step (h : SittingInvariant map Kept s phase)
    (hmove : Moves phase request answer after)
    (endured : Endured model request s.store answer store) :
    after.Visible (map.contents store) := by
  have hsame : (∀ signal ∈ phase.shownBy, ¬request.writes (BlobKey.signal signal)) →
      ∀ signal ∈ phase.shownBy, map.contents store (BlobKey.signal signal) =
        map.contents s.store (BlobKey.signal signal) :=
    fun hspares signal hsignal => endured.contents_of_not_writes map (hspares signal hsignal)
  have hall : phase.shownBy ⊆ Signal.all := fun signal _ => Signal.mem_all signal
  cases hmove with
  | look answer => exact visible_look endured
  | write result writes =>
      exact writes.visible h.visible (endured.ok.contents map) (hsame writes.spares)
  | fault fault writes =>
      exact h.visible.of_same (hsame writes.spares) writes.unit?.1.symm hall
  | reloadCheck wanted =>
      exact h.visible.of_same (hsame fun _ _ => id) rfl (List.Subset.refl _)
  | observe answer other =>
      exact h.visible.of_same (hsame fun _ _ => id) rfl (List.Subset.refl _)
  | stuck fault => exact h.visible.of_same (hsame fun _ _ => id) rfl hall
  | missing => exact h.visible.of_same (hsame fun _ _ => id) rfl (List.Subset.refl _)
  | arrive found => exact h.visible.of_same (hsame fun _ _ => id) rfl (List.Subset.refl _)
  | reload => exact h.visible.of_same (hsame fun _ _ => id) rfl hall
  | astray other => exact h.visible.of_same (hsame fun _ _ => id) rfl hall
  | agree => exact h.visible.of_same (hsame fun _ _ => id) rfl (List.Subset.refl _)
  | run command answer =>
      exact h.visible.of_same (hsame fun _ _ => id) rfl (List.Subset.refl _)
  | cleanUp command limit answer =>
      exact h.visible.of_same (hsame fun _ _ => id) rfl (List.Subset.refl _)
  | archive label field content answer =>
      refine h.visible.of_same (hsame fun signal _ => ?_) rfl (List.Subset.refl _)
      exact BlobKey.log_ne_signal _ _ _ _
  | giveUp answer garbled => exact nofun
  | probe answer => exact nofun
  | lower answer => exact nofun
  | inspect answer => exact nofun
  | recover answer => exact nofun

private theorem named_step (h : SittingInvariant map Kept s phase)
    (hmove : Moves phase request answer after) :
    ∀ x ∈ (⟨request, answer⟩ :: s.record : List Exchange), ∀ id,
      x.request = raise .finished id → after.unit? = some id := by
  intro x hx id hraise
  rcases List.mem_cons.1 hx with rfl | hpast
  · obtain rfl : request = raise .finished id := hraise
    obtain ⟨ran, other, status, rfl, hpayload⟩ := hmove.put_finished rfl
    obtain rfl := WorkUnitId.payload_injective hpayload
    exact hmove.unit?_of_ne_look nofun
  · rcases h.account.calm_or_lower hmove with ⟨failed, hcalm⟩ | ⟨signal, rfl⟩
    · exact absurd hraise (hcalm.1 x hpast id)
    · exact (hmove.unit?_of_ne_look nofun).trans (h.named x hpast id hraise)

private theorem statusKept_of_calm {contents : Contents} {record : List Exchange} {failed : Bool}
    {x : Exchange} (id : WorkUnitId) (h : Calm record failed)
    (hx : ∀ id, x.request ≠ raise .finished id) :
    (PollPhase.ended id).StatusKept Kept contents (x :: record) := by
  rintro ⟨y, hy, hraise⟩
  exact absurd hraise ((h.cons hx).1 y hy id)

private theorem statusKept_of_announced {ran : Bool} {id : WorkUnitId} {status : Status}
    (h : SittingInvariant map Kept s (.announced ran id status))
    (endured : Endured model request s.store answer store)
    (hwrites : ¬request.writes (BlobKey.status id))
    (hrun : Exchange.isFailedRun ⟨request, answer⟩ = false) :
    (PollPhase.ended id).StatusKept Kept (map.contents store)
      (⟨request, answer⟩ :: s.record) := by
  intro _ hkept
  rw [endured.contents_of_not_writes map hwrites, verdict_cons_of_not hrun, h.account.2.1]
  exact h.status hkept

private theorem status_step (h : SittingInvariant map Kept s phase)
    (hmove : Moves phase request answer after)
    (endured : Endured model request s.store answer store) :
    after.StatusKept Kept (map.contents store) (⟨request, answer⟩ :: s.record) := by
  cases hmove with
  | write result writes =>
      cases writes with
      | excuse =>
          intro _
          rw [endured.ok.contents map, StoreCall.effect_put, Function.update_self]
      | judge =>
          intro _
          rw [endured.ok.contents map, StoreCall.effect_put, Function.update_self]
      | claim => trivial
      | take => trivial
      | announce =>
          intro hkept
          rw [endured.contents_of_not_writes map (BlobKey.signal_ne_status _ _)]
          exact h.status hkept
      | release => exact h.statusKept_of_announced endured (BlobKey.signal_ne_status _ _) rfl
      | withdraw => exact h.statusKept_of_announced endured (BlobKey.signal_ne_status _ _) rfl
  | @fault _ _ _ id fault writes =>
      cases writes with
      | excuse => exact statusKept_of_calm id h.account.1 fun other => report_ne_raise id other _ _
      | claim =>
          exact statusKept_of_calm id h.account fun other hraise =>
            nomatch (raise_injective hraise).1
      | take => exact statusKept_of_calm id h.account nofun
      | judge => exact statusKept_of_calm id h.account fun other => report_ne_raise id other _ _
      | @announce ran status =>
          intro _ hkept
          have hverdict : verdict s.record = status :=
            h.account.1.verdict_eq.trans (ofFailed_isFailed status)
          rw [endured.contents_of_not_writes map (BlobKey.signal_ne_status _ _),
            verdict_cons_of_not rfl, hverdict]
          exact h.status hkept
      | release => exact h.statusKept_of_announced endured (BlobKey.signal_ne_status _ _) rfl
      | withdraw => exact h.statusKept_of_announced endured (BlobKey.signal_ne_status _ _) rfl
  | stuck fault => exact statusKept_of_calm _ h.account nofun
  | reload => exact statusKept_of_calm _ h.account nofun
  | astray other => exact statusKept_of_calm _ h.account nofun
  | _ => trivial

theorem start (consumer : Consumer) (store : σ) :
    SittingInvariant map Kept { store, record := [], rest := consumer.poll.run }
      (.looking (.ok none)) where
  follows := Consumer.follows_poll consumer
  notRecovery := nofun
  account := Calm.nil
  read := rfl
  visible := nofun
  named := nofun
  status := trivial

/-- Every step of a sitting keeps the invariant. -/
theorem step {t : Sitting σ} (signals : ∀ signal, Kept (BlobKey.signal signal))
    (h : SittingInvariant map Kept s phase) (hstep : Sitting.Goes map Kept s t) :
    ∃ after, SittingInvariant map Kept t after := by
  cases hstep with
  | @ask request next answer store asks endured =>
      obtain ⟨after, hmove, hnext⟩ := Program.Follows.step (asks ▸ h.follows) answer
      exact ⟨after, {
        follows := hnext
        notRecovery := hmove.ne_surveying h.notRecovery
        account := h.account.step hmove
        read := hmove.unit?_eq h.notRecovery h.read
        visible := h.visible_step hmove endured
        named := h.named_step hmove
        status := h.status_step hmove endured }⟩
  | @others store same =>
      have hstatus : phase.StatusKept Kept (map.contents store) s.record := by
        have hkept := h.status
        cases phase with
        | judged ran id status => exact fun hid => (same _ hid).trans (hkept hid)
        | announced ran id status => exact fun hid => (same _ hid).trans (hkept hid)
        | ended id => exact fun hraise hid => (same _ hid).trans (hkept hraise hid)
        | _ => trivial
      exact ⟨phase, { h with
        visible := h.visible.of_same (fun signal _ => same _ (signals signal)) rfl
          (List.Subset.refl _)
        status := hstatus }⟩

theorem run {t : Sitting σ} (signals : ∀ signal, Kept (BlobKey.signal signal))
    (h : SittingInvariant map Kept s phase)
    (hrun : Relation.ReflTransGen (Sitting.Goes map Kept) s t) :
    ∃ after, SittingInvariant map Kept t after := by
  induction hrun with
  | refl => exact ⟨_, h⟩
  | tail _ hstep ih =>
      obtain ⟨_, hbefore⟩ := ih
      exact hbefore.step signals hstep

theorem status_of_announced {id : WorkUnitId} {x : Exchange}
    (h : SittingInvariant map Kept s phase) (hx : x ∈ s.record)
    (hraise : x.request = raise .finished id) (hkept : Kept (BlobKey.status id)) :
    map.contents s.store (BlobKey.status id) = some (verdict s.record).payload := by
  have hstatus := h.status
  have haccount := h.account
  have hunit := h.named x hx id hraise
  cases phase with
  | announced ran other status =>
      obtain rfl := Option.some.inj hunit
      rw [haccount.2.1]
      exact hstatus hkept
  | ended other =>
      obtain rfl := Option.some.inj hunit
      exact hstatus ⟨x, hx, hraise⟩ hkept
  | unreachable other => exact absurd hraise (haccount.1.1 x hx id)
  | judged ran other status => exact absurd hraise (haccount.1.1 x hx id)
  | looking seen => exact absurd hraise (haccount.1 x hx id)
  | surveying => exact absurd hraise (haccount.1 x hx id)
  | clearing => exact absurd hraise (haccount.1 x hx id)
  | arrived other found => exact absurd hraise (haccount.1 x hx id)
  | ready other => exact absurd hraise (haccount.1 x hx id)
  | claimed other => exact absurd hraise (haccount.1 x hx id)
  | running other failed => exact absurd hraise (haccount.1 x hx id)

end SittingInvariant

/-- A poll on a store whose calls may fail with or without effect, while others leave the
signals alone.  The unit that it has read is shown by a signal until it has ended; when
it raises FINISHED it does so for that unit, after its status, the verdict of the
commands, was written, and the status stays if nobody else writes it. -/
theorem unit_visible {Kept : BlobKey → Prop} {consumer : Consumer} {store : σ} {s : Sitting σ}
    (map : KeyValue model) (signals : ∀ signal, Kept (BlobKey.signal signal))
    (run : Relation.ReflTransGen (Sitting.Goes map Kept)
      { store, record := [], rest := consumer.poll.run } s) :
    (∀ id, unitRead s.record = some id →
      ∃ signal, Shows (map.contents s.store) signal id) ∧
    ∀ x ∈ s.record, ∀ id, x.request = raise .finished id →
      unitRead s.record = some id ∧
        [x, ⟨report id (verdict s.record), .ok ()⟩].Sublist s.record ∧
        (Kept (BlobKey.status id) →
          map.contents s.store (BlobKey.status id) = some (verdict s.record).payload) := by
  obtain ⟨phase, h⟩ := (SittingInvariant.start consumer store).run signals run
  constructor
  · intro id hid
    obtain ⟨signal, -, hshows⟩ := h.visible id (h.read.trans hid)
    exact ⟨signal, hshows⟩
  · intro x hx id hraise
    exact ⟨h.read.symm.trans (h.named x hx id hraise), h.account.honest x hx id hraise,
      h.status_of_announced hx hraise⟩

/-! ### A sitting that is played out -/

inductive Fate where
  | served
  /-- The call fails and has no effect. -/
  | lost
  /-- The call fails, though it took effect. -/
  | hidden

namespace Sitting

def play (model : StoreModel σ) (surroundings : (request : WorkRequest) → request.Answer)
    (s : Sitting σ) : List Fate → Option (Sitting σ)
  | [] => some s
  | fate :: more =>
      match s.rest, fate with
      | .ask (.store call) next, .lost =>
          play model surroundings
            { s with
              record := ⟨.store call, .error .poisoned⟩ :: s.record
              rest := next (.error .poisoned : Except StoreFault call.Result) } more
      | .ask (.store call) next, .hidden =>
          play model surroundings
            { store := (model call s.store).2
              record := ⟨.store call, .error .poisoned⟩ :: s.record
              rest := next (.error .poisoned : Except StoreFault call.Result) } more
      | .ask request next, .served =>
          let served := serve model surroundings request s.store
          play model surroundings
            { store := served.2
              record := ⟨request, served.1⟩ :: s.record
              rest := next served.1 } more
      | _, _ => none

theorem reaches_of_play {map : KeyValue model} {Kept : BlobKey → Prop}
    {surroundings : (request : WorkRequest) → request.Answer} {s t : Sitting σ}
    {fates : List Fate} (h : s.play model surroundings fates = some t) :
    Relation.ReflTransGen (Goes map Kept) s t := by
  induction fates generalizing s with
  | nil =>
      cases h
      exact .refl
  | cons fate more ih =>
      simp only [play] at h
      split at h
      · next call next hrest => exact .head (.ask hrest (.lost .poisoned)) (ih h)
      · next call next hrest => exact .head (.ask hrest (.hidden .poisoned)) (ih h)
      · next _ _ request next hrest =>
        exact .head (.ask hrest (.served (served_serve model surroundings request s.store)))
          (ih h)
      · cases h

def lastCall? (s : Sitting σ) : Option StoreCall :=
  match s.record with
  | ⟨.store call, _⟩ :: _ => some call
  | _ => none

theorem mem_of_lastCall? {s : Sitting σ} {call : StoreCall} (h : s.lastCall? = some call) :
    ∃ x ∈ s.record, x.request = .store call := by
  unfold lastCall? at h
  split at h
  · next found answer past hrecord =>
    cases h
    exact ⟨_, hrecord ▸ List.mem_cons_self, rfl⟩
  · cases h

end Sitting

def oneOffer : MemoryStore :=
  StringMap.ofList [((BlobKey.signal .offered).text, (retries 0).id.payload)]

/-- The poll runs the unit, and raising FINISHED fails when it has taken effect. -/
def raiseHidden : List Fate :=
  List.replicate 10 .served ++ [.hidden]

theorem unit_visible_after_fault : ∃ s : Sitting MemoryStore,
    Relation.ReflTransGen (Sitting.Goes MemoryStore.keyValue fun _ => True)
      { store := oneOffer, record := [], rest := idler.poll.run } s ∧
    unitRead s.record = some (retries 0).id ∧
    (∃ signal, Shows (MemoryStore.keyValue.contents s.store) signal (retries 0).id) ∧
    MemoryStore.keyValue.contents s.store (BlobKey.status (retries 0).id) =
      some (verdict s.record).payload := by
  have hplay : (Sitting.play MemoryStore.answer (steady some none)
      { store := oneOffer, record := [], rest := idler.poll.run } raiseHidden).map
        (fun s => (unitRead s.record, s.lastCall?)) =
      some (some (retries 0).id,
        some (.put (BlobKey.signal .finished) (retries 0).id.payload)) := by
    decide +kernel
  obtain ⟨s, hs, hresult⟩ := Option.map_eq_some_iff.1 hplay
  obtain ⟨hread, hlast⟩ := Prod.mk.inj hresult
  obtain ⟨x, hx, hraise⟩ := Sitting.mem_of_lastCall? hlast
  have hrun : Relation.ReflTransGen (Sitting.Goes MemoryStore.keyValue fun _ => True)
      { store := oneOffer, record := [], rest := idler.poll.run } s := Sitting.reaches_of_play hs
  obtain ⟨hvisible, hannounced⟩ := unit_visible MemoryStore.keyValue (fun _ => trivial) hrun
  obtain ⟨-, -, hstatus⟩ := hannounced x hx _ hraise
  exact ⟨s, hrun, hread, hvisible _ hread, hstatus trivial⟩

end Handoff
