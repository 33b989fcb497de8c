import Handoff.Proofs.Archive.Writing
import Handoff.Proofs.Round.Reload
import Handoff.Proofs.Signals
/-!
# What one poll leaves behind

A poll looks at the offer, checks it out and runs the plan, or ends at one of the checks on the
way.  On a store that behaves as a map, whose calls succeed, each way to end leaves exactly
known contents, whatever stale signals and old logs were there before.
-/

namespace Handoff

open Program

abbrev Failures := List (CommandLabel × ExecutionRecord)

def Failures.last? (failures : Failures) (label : CommandLabel) : Option ExecutionRecord :=
  failures.reverse.lookup label

theorem Failures.last?_cons (name : CommandLabel) (record : ExecutionRecord) (rest : Failures)
    (label : CommandLabel) : Failures.last? ((name, record) :: rest) label =
      (rest.last? label).or (if label = name then some record else none) := by
  rw [last?, List.reverse_cons, List.lookup_append, ← last?]
  by_cases h : label = name
  · simp [h]
  · simp [List.lookup_cons, h, beq_false_of_ne h]

/-! ## Effects on the contents of a store -/

def Names (payload : ByteArray) (id : WorkUnitId) : Prop :=
  ∃ text, Text.decode? payload = some text ∧ WorkUnitId.ofText text = .ok id

structure Cleared (before after : Contents) : Prop where
  signals : ∀ signal, after (.signal signal) = none
  others : ∀ key, (∀ signal, key ≠ .signal signal) → after key = before key

structure Skipped (id : WorkUnitId) (before after : Contents) : Prop where
  status : after (.status id) = some Status.passed.payload
  finished : after (.signal .finished) = some id.payload
  offered : after (.signal .offered) = none
  others : ∀ key, key ≠ .status id → key ≠ .signal .finished → key ≠ .signal .offered →
    after key = before key

/-- Each label of a failed command has the record of the last one in its four fields. -/
structure Logged (id : WorkUnitId) (failures : Failures) (before after : Contents) : Prop where
  logs : ∀ label record, failures.last? label = some record → ∀ field,
    after (.log id label field) = some (Archive.fieldContent record field)
  others : ∀ key,
    (∀ label field, (failures.last? label).isSome → key ≠ .log id label field) →
      after key = before key

structure Completed (id : WorkUnitId) (status : Status) (failures : Failures)
    (before after : Contents) : Prop where
  logs : ∀ label record, failures.last? label = some record → ∀ field,
    after (.log id label field) = some (Archive.fieldContent record field)
  status : after (.status id) = some status.payload
  finished : after (.signal .finished) = some id.payload
  offered : after (.signal .offered) = none
  claimed : after (.signal .claimed) = none
  others : ∀ key,
    (∀ label field, (failures.last? label).isSome → key ≠ .log id label field) →
      key ≠ .status id → (∀ signal, key ≠ .signal signal) → after key = before key

section Unique

variable {id : WorkUnitId} {status : Status} {failures : Failures} {before after other : Contents}

theorem Logged.nil (id : WorkUnitId) (contents : Contents) : Logged id [] contents contents where
  logs := nofun
  others _ _ := rfl

theorem Logged.cons {label : CommandLabel} {record : ExecutionRecord} {middle : Contents}
    (hset : ∀ field, middle (.log id label field) = some (Archive.fieldContent record field))
    (hkept : ∀ key, (∀ field, key ≠ .log id label field) → middle key = before key)
    (h : Logged id failures middle after) :
    Logged id ((label, record) :: failures) before after where
  logs other found hlast field := by
    rw [Failures.last?_cons] at hlast
    cases hrest : failures.last? other with
    | some later =>
        rw [hrest, Option.some_or, Option.some.injEq] at hlast
        rw [← hlast]
        exact h.logs other later hrest field
    | none =>
        rw [hrest, Option.none_or, ite_eq_iff] at hlast
        obtain ⟨rfl, hfound⟩ | ⟨-, hnone⟩ := hlast
        · rw [h.others _ fun name f hsome hkey => ?_, hset, Option.some.inj hfound]
          obtain ⟨rfl, -⟩ := BlobKey.log_injective hkey
          simp [hrest] at hsome
        · cases hnone
  others key hkey := by
    rw [h.others key fun name field hsome => ?_, hkept key fun field => ?_]
    · exact hkey label field (by rw [Failures.last?_cons, if_pos rfl]; simp)
    · exact hkey name field (by rw [Failures.last?_cons]; simp [hsome])

theorem Logged.completed {value : Option ByteArray}
    (h : Logged id failures (Function.update (Function.update before (.signal .claimed) value)
      (.signal .offered) none) after) (status : Status) :
    Completed id status failures before (Function.update (Function.update (Function.update after
      (.status id) (some status.payload)) (.signal .finished) (some id.payload))
        (.signal .claimed) none) where
  logs label record hlast field := by simpa using h.logs label record hlast field
  status := by simp
  finished := by simp
  offered := by
    have hkept := h.others (.signal .offered) fun _ _ _ =>
      BlobKey.signal_ne_log _ _ _ _
    rw [Function.update_self] at hkept
    simpa using hkept
  claimed := by simp
  others key hlogs hstatus hsignals := by
    simp [hsignals, hstatus, h.others key hlogs]

theorem Cleared.unique (h : Cleared before after) (hother : Cleared before other) :
    after = other := by
  funext key
  by_cases hsignal : ∃ signal, key = .signal signal
  · obtain ⟨signal, rfl⟩ := hsignal
    rw [h.signals, hother.signals]
  · rw [h.others key (not_exists.1 hsignal), hother.others key (not_exists.1 hsignal)]

theorem Skipped.unique (h : Skipped id before after) (hother : Skipped id before other) :
    after = other := by
  funext key
  by_cases hstatus : key = .status id
  · rw [hstatus, h.status, hother.status]
  by_cases hfinished : key = .signal .finished
  · rw [hfinished, h.finished, hother.finished]
  by_cases hoffered : key = .signal .offered
  · rw [hoffered, h.offered, hother.offered]
  rw [h.others key hstatus hfinished hoffered, hother.others key hstatus hfinished hoffered]

theorem Completed.signal (h : Completed id status failures before after) (signal : Signal) :
    after (.signal signal) = if signal = .finished then some id.payload else none := by
  cases signal with
  | offered => exact h.offered
  | claimed => exact h.claimed
  | finished => exact h.finished

theorem Completed.unique (h : Completed id status failures before after)
    (hother : Completed id status failures before other) : after = other := by
  funext key
  by_cases hlog : ∃ label field, (failures.last? label).isSome ∧ key = .log id label field
  · obtain ⟨label, field, hsome, rfl⟩ := hlog
    obtain ⟨record, hrecord⟩ := Option.isSome_iff_exists.1 hsome
    rw [h.logs label record hrecord, hother.logs label record hrecord]
  by_cases hstatus : key = .status id
  · rw [hstatus, h.status, hother.status]
  by_cases hsignal : ∃ signal, key = .signal signal
  · obtain ⟨signal, rfl⟩ := hsignal
    rw [h.signal, hother.signal]
  have hlogs : ∀ label field, (failures.last? label).isSome → key ≠ .log id label field :=
    fun label field hsome hkey => hlog ⟨label, field, hsome, hkey⟩
  rw [h.others key hlogs hstatus (not_exists.1 hsignal),
    hother.others key hlogs hstatus (not_exists.1 hsignal)]

end Unique

namespace Facilities

variable {σ ω : Type} (facilities : Facilities σ ω)

def outcome (command : Command) (machine : ω) : Option (CommandLabel × ExecutionRecord) × ω :=
  match command.label with
  | none => (none, machine)
  | some label =>
      match facilities.run command none machine with
      | (.ok none, machine) => (none, machine)
      | (.ok (some record), machine) => (some (label, record), machine)
      | (.error fault, machine) => (some (label, Sequence.runnerFailure fault), machine)

def failures : List Command → ω → Failures
  | [], _ => []
  | command :: rest, machine =>
      ((facilities.outcome command machine).1.filter (·.2.failed)).toList ++
        failures rest (facilities.outcome command machine).2

/-- What a poll comes to and what it leaves in the store, by what was there before, the answers to
its two questions whether a reload is wanted, the checkout and the outcomes of the commands. -/
inductive Effect (plan : Plan) (reloads : List Bool) (machine : ω) (before : Contents) :
    Except RoundFault PollOutcome → Contents → Prop
  | reload (wanted : reloads.headD false = true) :
      Effect plan reloads machine before (.ok .reload) before
  | absent (calm : reloads.headD false = false) (absent : before (.signal .offered) = none) :
      Effect plan reloads machine before (.ok .idle) before
  | unreadable {payload : ByteArray} {after : Contents} (calm : reloads.headD false = false)
      (offered : before (.signal .offered) = some payload) (nameless : ∀ id, ¬Names payload id)
      (cleared : Cleared before after) : Effect plan reloads machine before (.ok .idle) after
  | stuck {payload : ByteArray} {id : WorkUnitId} {fault : VcsFault}
      (calm : reloads.headD false = false) (offered : before (.signal .offered) = some payload)
      (named : Names payload id) (checkOut : facilities.checkOut id = .error fault) :
      Effect plan reloads machine before (.error (.vcs fault)) before
  | skipped {payload : ByteArray} {id : WorkUnitId} {after : Contents}
      (calm : reloads.headD false = false) (offered : before (.signal .offered) = some payload)
      (named : Names payload id) (checkOut : facilities.checkOut id = .ok none)
      (skipped : Skipped id before after) :
      Effect plan reloads machine before (.ok (.skipped id)) after
  | replaced {payload : ByteArray} {id checkedOut : WorkUnitId}
      (calm : reloads.headD false = false) (offered : before (.signal .offered) = some payload)
      (named : Names payload id) (checkOut : facilities.checkOut id = .ok (some checkedOut))
      (wanted : reloads.tail.headD false = true) :
      Effect plan reloads machine before (.ok .reload) before
  | mismatch {payload : ByteArray} {id checkedOut : WorkUnitId}
      (calm : reloads.headD false = false) (offered : before (.signal .offered) = some payload)
      (named : Names payload id) (checkOut : facilities.checkOut id = .ok (some checkedOut))
      (calm' : reloads.tail.headD false = false) (mismatch : checkedOut ≠ id) :
      Effect plan reloads machine before (.error (.checkoutMismatch id checkedOut)) before
  | completed {payload : ByteArray} {id : WorkUnitId} {status : Status} {after : Contents}
      (calm : reloads.headD false = false) (offered : before (.signal .offered) = some payload)
      (named : Names payload id) (checkOut : facilities.checkOut id = .ok (some id))
      (calm' : reloads.tail.headD false = false)
      (failed : status = .failed ↔ facilities.failures plan.commands machine ≠ [])
      (completed : Completed id status (facilities.failures plan.commands machine) before after) :
      Effect plan reloads machine before (.ok (.completed id status)) after

variable {facilities} {shop : Workshop σ ω} {reloads : List Bool}

/-! ## Store programs in a poll -/

theorem perform_ofStorage {α : Type} (program : Program Storage α) (reloads : List Bool)
    (shop : Workshop σ ω) :
    (Work.ofStorage program).perform facilities.restless (reloads, shop) =
      ((facilities.store.run program shop.store).1, reloads,
        { shop with store := (facilities.store.run program shop.store).2 }) := by
  induction program generalizing shop with
  | done value => rfl
  | ask call next ih => exact ih _ _

theorem perform_store {α : Type} {program : StoreM α} {value : α} {t : σ}
    (h : facilities.store.run program.run shop.store = (.ok value, t)) (reloads : List Bool) :
    (Work.store program).run.perform facilities.restless (reloads, shop) =
      (.ok value, reloads, { shop with store := t }) := by
  apply Work.perform_store_ok
  rw [perform_ofStorage, h]

theorem perform_store_bind {α β : Type} {program : StoreM α} {next : α → WorkM β} {value : α}
    {t : σ} (h : facilities.store.run program.run shop.store = (.ok value, t))
    (reloads : List Bool) :
    (Work.store program >>= next).run.perform facilities.restless (reloads, shop) =
      (next value).run.perform facilities.restless (reloads, { shop with store := t }) :=
  WorkM.perform_bind_ok (perform_store h reloads)

theorem perform_observed (reloads : List Bool) (shop : Workshop σ ω) :
    (Work.ofStorage SignalBoard.logState).perform facilities.restless (reloads, shop) =
      ((), reloads, shop) := by
  refine Work.perform_observe (fun signal => ?_) Signal.all
  simp only [restless, scripted, answer, facilities.get_snd]

theorem perform_unlessReload (rest : WorkM PollOutcome) (reloads : List Bool)
    (shop : Workshop σ ω) :
    (Consumer.unlessReload rest).run.perform facilities.restless (reloads, shop) =
      if reloads.headD false then (.ok .reload, reloads.tail, shop)
      else rest.run.perform facilities.restless (reloads.tail, shop) := by
  have hasked : Work.reloadWanted.perform facilities.restless (reloads, shop) =
      (reloads.headD false, reloads.tail, shop) := rfl
  rw [Consumer.unlessReload, WorkM.perform_lift_bind hasked]
  cases reloads.headD false <;> rfl

theorem perform_checkOut_bind {id : WorkUnitId} {found : Option WorkUnitId}
    (h : facilities.checkOut id = .ok found) (next : Option WorkUnitId → WorkM PollOutcome)
    (reloads : List Bool) (shop : Workshop σ ω) :
    (Work.checkOut id >>= next).run.perform facilities.restless (reloads, shop) =
      (next found).run.perform facilities.restless (reloads, shop) := by
  have hasked : (request (I := Work) (.checkOut id)).perform facilities.restless (reloads, shop) =
      (facilities.checkOut id, reloads, shop) := rfl
  refine WorkM.perform_bind_ok ?_
  rw [Work.checkOut, ExceptT.run_mk, perform_bind, hasked, h]
  rfl

theorem perform_checkOut_error {id : WorkUnitId} {fault : VcsFault}
    (h : facilities.checkOut id = .error fault) (next : Option WorkUnitId → WorkM PollOutcome)
    (reloads : List Bool) (shop : Workshop σ ω) :
    (Work.checkOut id >>= next).run.perform facilities.restless (reloads, shop) =
      (.error (.vcs fault), reloads, shop) := by
  have hasked : (request (I := Work) (.checkOut id)).perform facilities.restless (reloads, shop) =
      (facilities.checkOut id, reloads, shop) := rfl
  refine WorkM.perform_bind_error ?_
  rw [Work.checkOut, ExceptT.run_mk, perform_bind, hasked, h]
  rfl

end Facilities

/-! ## The store programs of a poll -/

namespace KeyValue

variable {σ : Type} {model : StoreModel σ} (map : KeyValue model)
include map

theorem exists_put (key : BlobKey) (value : ByteArray) (s : σ) :
    ∃ t, model.run (storeCall (.put key value)).run s = (.ok (), t) ∧
      map.contents t = Function.update (map.contents s) key (some value) :=
  ⟨_, map.run_put key value s, map.contents_snd _ s⟩

theorem exists_delete (key : BlobKey) (s : σ) :
    ∃ t, model.run (storeCall (.delete key)).run s = (.ok (), t) ∧
      map.contents t = Function.update (map.contents s) key none :=
  ⟨_, Prod.ext (map.delete_fst key s) rfl, map.contents_snd _ s⟩

theorem run_clear_cons (signal : Signal) (rest : List Signal) (s : σ) :
    ∃ t, (∀ key, map.contents t key =
        if key = .signal signal then none else map.contents s key) ∧
      ∀ {up u}, model.run (SignalBoard.clear rest).run t = (.ok up, u) →
        ∃ up, model.run (SignalBoard.clear (signal :: rest)).run s = (.ok up, u) := by
  have hup : model.run (SignalBoard.isUp signal).run s =
      (.ok (map.contents s (.signal signal)).isSome, s) := map.has_eq _ s
  cases hheld : map.contents s (.signal signal) with
  | none =>
      rw [hheld] at hup
      refine ⟨s, fun key => ?_, fun {up u} hrest => ⟨up, ?_⟩⟩
      · split
        · next hkey => rw [hkey, hheld]
        · rfl
      · rw [SignalBoard.clear, StoreModel.run_bind_ok hup]
        exact hrest
  | some payload =>
      rw [hheld] at hup
      obtain ⟨t, hdelete, ht⟩ := map.exists_delete (.signal signal) s
      refine ⟨t, fun key => ?_, fun {up u} hrest => ⟨signal :: up, ?_⟩⟩
      · rw [ht, Function.update_apply]
      · rw [SignalBoard.clear, StoreModel.run_bind_ok hup]
        exact (StoreModel.run_bind_ok hdelete).trans (StoreModel.run_bind_ok hrest)

theorem run_clear (signals : List Signal) (s : σ) :
    ∃ up t, model.run (SignalBoard.clear signals).run s = (.ok up, t) ∧
      (∀ signal ∈ signals, map.contents t (.signal signal) = none) ∧
      ∀ key, (∀ signal ∈ signals, key ≠ .signal signal) →
        map.contents t key = map.contents s key := by
  induction signals generalizing s with
  | nil => exact ⟨[], s, rfl, nofun, fun _ _ => rfl⟩
  | cons signal rest ih =>
      obtain ⟨t, hfirst, hcons⟩ := map.run_clear_cons signal rest s
      obtain ⟨up, u, hrest, hdown, hkept⟩ := ih t
      obtain ⟨all, hrun⟩ := hcons hrest
      refine ⟨all, u, hrun, fun other hother => ?_, fun key hkey => ?_⟩
      · by_cases hrest : other ∈ rest
        · exact hdown other hrest
        · obtain rfl := (List.mem_cons.1 hother).resolve_right hrest
          rw [hkept _ fun next hnext heq => hrest (by rwa [BlobKey.signal_injective heq]), hfirst,
            if_pos rfl]
      · rw [List.forall_mem_cons] at hkey
        rw [hkept key hkey.2, hfirst, if_neg hkey.1]

theorem run_clearStale (s : σ) : ∃ up t, model.run SignalBoard.clearStale.run s = (.ok up, t) ∧
    Cleared (map.contents s) (map.contents t) := by
  obtain ⟨up, t, hrun, hdown, hkept⟩ := map.run_clear Signal.all s
  exact ⟨up, t, hrun, fun signal => hdown signal (Signal.mem_all signal),
    fun key hkey => hkept key fun signal _ => hkey signal⟩

end KeyValue

theorem Names.decodePayload {payload : ByteArray} {id : WorkUnitId} (h : Names payload id)
    (signal : Signal) : SignalBoard.decodePayload signal payload = .ok id := by
  obtain ⟨text, hdecode, hid⟩ := h
  rw [← Text.decode?_eq_some_iff.1 hdecode, SignalBoard.decodePayload_toUTF8, hid]
  rfl

/-- What stands for no unit is not UTF-8, or no work unit id. -/
theorem decodePayload_of_nameless {payload : ByteArray} (h : ∀ id, ¬Names payload id)
    (signal : Signal) :
    SignalBoard.decodePayload signal payload = .error (.notUtf8 (.signal signal)) ∨
      ∃ fault, SignalBoard.decodePayload signal payload =
        .error (.invalidPayload (.signal signal) fault) := by
  by_cases htext : ∃ text : String, text.toUTF8 = payload
  · obtain ⟨text, rfl⟩ := htext
    rw [SignalBoard.decodePayload_toUTF8]
    cases hid : WorkUnitId.ofText text with
    | ok id => exact absurd ⟨text, Text.decode?_toUTF8 text, hid⟩ (h id)
    | error fault => exact .inr ⟨fault, rfl⟩
  · exact .inl (SignalBoard.decodePayload_of_no_text htext)

namespace Facilities

variable {σ ω : Type} {facilities : Facilities σ ω} (map : KeyValue facilities.store)
  {shop : Workshop σ ω} {reloads : List Bool} {payload : ByteArray} {id : WorkUnitId}
include map

theorem perform_readOffer_absent (h : map.contents shop.store (.signal .offered) = none)
    (reloads : List Bool) :
    Consumer.readOffer.run.perform facilities.restless (reloads, shop) =
      (.ok none, reloads, shop) := by
  rw [Consumer.readOffer, ExceptT.run_mk, perform_bind, perform_ofStorage, map.run_readSignal, h]
  rfl

theorem perform_readOffer_named
    (h : map.contents shop.store (.signal .offered) = some payload) (hname : Names payload id)
    (reloads : List Bool) :
    Consumer.readOffer.run.perform facilities.restless (reloads, shop) =
      (.ok (some id), reloads, shop) := by
  rw [Consumer.readOffer, ExceptT.run_mk, perform_bind, perform_ofStorage, map.run_readSignal, h]
  simp only [SignalBoard.reading, hname.decodePayload]
  rfl

theorem perform_clear (reloads : List Bool) (shop : Workshop σ ω) :
    ∃ t, Consumer.readOffer.clear.perform facilities.restless (reloads, shop) =
        (.ok none, reloads, { shop with store := t }) ∧
      Cleared (map.contents shop.store) (map.contents t) := by
  obtain ⟨up, t, hrun, hcleared⟩ := map.run_clearStale shop.store
  refine ⟨t, ?_, hcleared⟩
  rw [Consumer.readOffer.clear, perform_bind, perform_store hrun]
  rfl

theorem perform_readOffer_nameless
    (h : map.contents shop.store (.signal .offered) = some payload)
    (hname : ∀ id, ¬Names payload id) (reloads : List Bool) :
    ∃ t, Consumer.readOffer.run.perform facilities.restless (reloads, shop) =
        (.ok none, reloads, { shop with store := t }) ∧
      Cleared (map.contents shop.store) (map.contents t) := by
  obtain ⟨t, hclear, hcleared⟩ := perform_clear map reloads shop
  refine ⟨t, ?_, hcleared⟩
  rw [Consumer.readOffer, ExceptT.run_mk, perform_bind, perform_ofStorage, map.run_readSignal, h]
  rcases decodePayload_of_nameless hname .offered with hfault | ⟨fault, hfault⟩ <;>
    simp only [SignalBoard.reading, hfault] <;> exact hclear

/-! ## Running the plan -/

theorem perform_skip (reloads : List Bool) (shop : Workshop σ ω) (id : WorkUnitId) :
    ∃ t, (Consumer.skip id).run.perform facilities.restless (reloads, shop) =
        (.ok (.skipped id), reloads, { shop with store := t }) ∧
      Skipped id (map.contents shop.store) (map.contents t) := by
  obtain ⟨u, hstatus, hu⟩ := map.exists_put (.status id) Status.passed.payload shop.store
  obtain ⟨v, hfinished, hv⟩ := map.exists_put (.signal .finished) id.payload u
  obtain ⟨w, hoffered, hw⟩ := map.exists_delete (.signal .offered) v
  refine ⟨w, ?_, ?_⟩
  · rw [Consumer.skip, Archive.writeStatus, SignalBoard.put, SignalBoard.delete,
      perform_store_bind hstatus]
    rw [perform_store_bind hfinished, perform_store_bind hoffered]
    rfl
  · rw [hw, hv, hu]
    exact {
      status := by simp
      finished := by simp
      offered := by simp
      others := fun key hstatus hfinished hoffered => by simp [hstatus, hfinished, hoffered] }

end Facilities

namespace Sequence

variable {τ : Type} (sink : FailureSink τ)

def attempt (command : Command) : Program Work (Option (CommandLabel × ExecutionRecord)) :=
  match command.label with
  | none => return none
  | some label => do
      let found ← record command
      return found.map fun record => (label, record)

def note (command : Command) (rest : List Command) (outcome : SequenceOutcome) (state : τ) :
    Option (CommandLabel × ExecutionRecord) → Program Work (SequenceOutcome × τ)
  | none => runCommands sink rest outcome state
  | some (label, record) => do
      let outcome := { outcome with ran := outcome.ran + 1 }
      if record.failed then
        let state ← sink.accept state label command record
        runCommands sink rest { outcome with failures := outcome.failures ++ [label] } state
      else runCommands sink rest outcome state

theorem runCommands_cons (command : Command) (rest : List Command) (outcome : SequenceOutcome)
    (state : τ) : runCommands sink (command :: rest) outcome state =
      attempt command >>= note sink command rest outcome state := by
  rw [runCommands, attempt]
  cases command.label with
  | none => rfl
  | some label =>
      dsimp only
      rw [bind_assoc]
      refine congrArg _ (funext fun found => ?_)
      cases found <;> rfl

end Sequence

namespace Facilities

variable {σ ω : Type} {facilities : Facilities σ ω} {shop : Workshop σ ω} {id : WorkUnitId}

theorem perform_attempt (command : Command) (reloads : List Bool) (shop : Workshop σ ω) :
    (Sequence.attempt command).perform facilities.restless (reloads, shop) =
      ((facilities.outcome command shop.machine).1, reloads,
        { shop with machine := (facilities.outcome command shop.machine).2 }) := by
  rw [Sequence.attempt, outcome]
  cases command.label with
  | none => rfl
  | some label =>
      have hasked : (Work.run command none).perform facilities.restless (reloads, shop) =
          ((facilities.run command none shop.machine).1, reloads,
            { shop with machine := (facilities.run command none shop.machine).2 }) := rfl
      dsimp only
      rw [Sequence.record, bind_assoc, perform_bind, hasked]
      generalize facilities.run command none shop.machine = ran
      obtain ⟨_ | _ | record, machine⟩ := ran <;> rfl

variable (map : KeyValue facilities.store)
include map

theorem perform_accept (id : WorkUnitId) (errors : Nat) (label : CommandLabel) (command : Command)
    (record : ExecutionRecord) (reloads : List Bool) (shop : Workshop σ ω) :
    ∃ t, ((FailureSink.archive id).accept errors label command record).perform
        facilities.restless (reloads, shop) = (errors, reloads, { shop with store := t }) ∧
      (∀ field, map.contents t (.log id label field) =
        some (Archive.fieldContent record field)) ∧
      ∀ key, (∀ field, key ≠ .log id label field) →
        map.contents t key = map.contents shop.store key := by
  obtain ⟨t, hrun, hset, hkept⟩ := map.run_putRecord id label record shop.store
  refine ⟨t, ?_, hset, hkept⟩
  rw [FailureSink.archive, perform_bind, perform_ofStorage, hrun]
  rfl

/-- The commands that fail are logged, the last one of each label to be read. -/
theorem perform_runCommands (id : WorkUnitId) (commands : List Command)
    (outcome : SequenceOutcome) (errors : Nat) (reloads : List Bool) (shop : Workshop σ ω) :
    ∃ ran later, (Sequence.runCommands (FailureSink.archive id) commands outcome errors).perform
        facilities.restless (reloads, shop) =
          ((⟨ran, outcome.failures ++ (facilities.failures commands shop.machine).map Prod.fst⟩,
            errors), reloads, later) ∧
      Logged id (facilities.failures commands shop.machine) (map.contents shop.store)
        (map.contents later.store) := by
  induction commands generalizing outcome shop with
  | nil =>
      refine ⟨outcome.ran, shop, by rw [failures, List.map_nil, List.append_nil]; rfl, ?_⟩
      exact .nil id _
  | cons command rest ih =>
      rw [failures, Sequence.runCommands_cons, perform_bind, perform_attempt]
      generalize facilities.outcome command shop.machine = ran
      obtain ⟨_ | ⟨label, record⟩, machine⟩ := ran
      · exact ih outcome { shop with machine }
      · dsimp only [Sequence.note]
        by_cases hfailed : record.failed = true
        · obtain ⟨t, haccept, hset, hkept⟩ := perform_accept map id errors label command
            record reloads { shop with machine }
          obtain ⟨ran, later, hrun, hlogged⟩ := ih
            ⟨outcome.ran + 1, outcome.failures ++ [label]⟩ ⟨t, machine⟩
          have hfailures : (Option.filter (·.2.failed) (some (label, record))).toList =
              [(label, record)] := by simp [hfailed]
          rw [if_pos hfailed, perform_bind, haccept, hrun, hfailures]
          exact ⟨ran, later, by simp, hlogged.cons hset hkept⟩
        · have hfailures : (Option.filter (·.2.failed) (some (label, record))).toList = [] := by
            simp [hfailed]
          rw [if_neg hfailed, hfailures]
          exact ih ⟨outcome.ran + 1, outcome.failures⟩ { shop with machine }

omit map in
variable (facilities) in
theorem perform_runCleanup (cleanup : Option Command) (limit : Duration) (reloads : List Bool)
    (shop : Workshop σ ω) : ∃ machine,
      (Sequence.runCleanup cleanup limit).perform facilities.restless (reloads, shop) =
        ((), reloads, { shop with machine }) := by
  cases cleanup with
  | none => exact ⟨shop.machine, rfl⟩
  | some command => exact ⟨(facilities.run command (some limit) shop.machine).2, rfl⟩

theorem perform_runPlan (plan : Plan) (id : WorkUnitId) (reloads : List Bool)
    (shop : Workshop σ ω) :
    ∃ ran later, (Sequence.runPlan plan (FailureSink.archive id) 0).perform facilities.restless
        (reloads, shop) =
          ((⟨ran, (facilities.failures plan.commands shop.machine).map Prod.fst⟩, 0), reloads,
            later) ∧
      Logged id (facilities.failures plan.commands shop.machine) (map.contents shop.store)
        (map.contents later.store) := by
  obtain ⟨ran, later, hrun, hlogged⟩ :=
    perform_runCommands map id plan.commands ⟨0, []⟩ 0 reloads shop
  obtain ⟨machine, hcleanup⟩ := perform_runCleanup facilities plan.cleanup plan.cleanupTimeout
    reloads later
  refine ⟨ran, { later with machine }, ?_, hlogged⟩
  rw [Sequence.runPlan, Sequence.runAll, perform_bind, hrun, perform_bind, hcleanup]
  rfl

theorem perform_execute (consumer : Consumer) (id : WorkUnitId) (reloads : List Bool)
    (shop : Workshop σ ω) :
    ∃ status later, (consumer.execute id).perform facilities.restless (reloads, shop) =
        (status, reloads, later) ∧
      (status = .failed ↔ facilities.failures consumer.plan.commands shop.machine ≠ []) ∧
      Logged id (facilities.failures consumer.plan.commands shop.machine)
        (map.contents shop.store) (map.contents later.store) := by
  obtain ⟨ran, later, hrun, hlogged⟩ := perform_runPlan map consumer.plan id reloads shop
  refine ⟨Status.ofFailed (SequenceOutcome.failed
    ⟨ran, (facilities.failures consumer.plan.commands shop.machine).map Prod.fst⟩), later, ?_, ?_,
    hlogged⟩
  · rw [Consumer.execute, perform_bind, hrun]
    rfl
  · simp [Status.ofFailed, SequenceOutcome.failed]

theorem perform_process (consumer : Consumer) (id : WorkUnitId) (reloads : List Bool)
    (shop : Workshop σ ω) :
    ∃ status later, (consumer.process id).run.perform facilities.restless (reloads, shop) =
        (.ok (.completed id status), reloads, later) ∧
      (status = .failed ↔ facilities.failures consumer.plan.commands shop.machine ≠ []) ∧
      Completed id status (facilities.failures consumer.plan.commands shop.machine)
        (map.contents shop.store) (map.contents later.store) := by
  obtain ⟨s, hclaimed, hs⟩ := map.exists_put (.signal .claimed) id.payload shop.store
  obtain ⟨t, hoffered, ht⟩ := map.exists_delete (.signal .offered) s
  obtain ⟨status, later, hexecute, hstatus, hlogged⟩ :=
    perform_execute map consumer id reloads { shop with store := t }
  obtain ⟨u, hreport, hu⟩ := map.exists_put (.status id) status.payload later.store
  obtain ⟨v, hfinished, hv⟩ := map.exists_put (.signal .finished) id.payload u
  obtain ⟨w, hlowered, hw⟩ := map.exists_delete (.signal .claimed) v
  refine ⟨status, { later with store := w }, ?_, hstatus, ?_⟩
  · rw [Consumer.process, SignalBoard.put, SignalBoard.delete, perform_store_bind hclaimed,
      perform_store_bind hoffered, WorkM.perform_lift_bind hexecute, Archive.writeStatus,
      SignalBoard.put, SignalBoard.delete, perform_store_bind hreport,
      perform_store_bind hfinished, perform_store_bind hlowered]
    rfl
  · rw [ht, hs] at hlogged
    rw [hw, hv, hu]
    exact hlogged.completed status

end Facilities

/-! ## The poll as a whole -/

def Consumer.take (consumer : Consumer) : Option WorkUnitId → WorkM PollOutcome
  | none => return .idle
  | some id => do
      match ← Work.checkOut id with
      | none => skip id
      | some checkedOut => unlessReload (consumer.carryOut id checkedOut)

namespace Facilities

variable {σ ω : Type} {facilities : Facilities σ ω} (consumer : Consumer)
  {shop later : Workshop σ ω} {reloads : List Bool} {payload : ByteArray}
  {id checkedOut : WorkUnitId}

theorem perform_poll_reload (h : reloads.headD false = true) :
    consumer.poll.run.perform facilities.restless (reloads, shop) =
      (.ok .reload, reloads.tail, shop) := by
  rw [Consumer.poll_eq, perform_unlessReload, if_pos h]

theorem perform_poll {found : Option WorkUnitId} (h : reloads.headD false = false)
    (hread : Consumer.readOffer.run.perform facilities.restless (reloads.tail, shop) =
      (.ok found, reloads.tail, later)) :
    consumer.poll.run.perform facilities.restless (reloads, shop) =
      (consumer.take found).run.perform facilities.restless (reloads.tail, later) := by
  have hattend : consumer.attend = ExceptT.lift (Work.ofStorage SignalBoard.logState) >>=
      fun _ => Consumer.readOffer >>= consumer.take := rfl
  rw [Consumer.poll_eq, perform_unlessReload, if_neg (Bool.eq_false_iff.1 h), hattend,
    WorkM.perform_lift_bind (perform_observed _ _), WorkM.perform_bind_ok hread]

theorem perform_take_stuck {fault : VcsFault} (h : facilities.checkOut id = .error fault) :
    (consumer.take (some id)).run.perform facilities.restless (reloads, shop) =
      (.error (.vcs fault), reloads, shop) :=
  perform_checkOut_error h _ reloads shop

theorem perform_take_replaced (h : facilities.checkOut id = .ok (some checkedOut))
    (hwanted : reloads.headD false = true) :
    (consumer.take (some id)).run.perform facilities.restless (reloads, shop) =
      (.ok .reload, reloads.tail, shop) := by
  rw [Consumer.take, perform_checkOut_bind h, perform_unlessReload, if_pos hwanted]

theorem perform_take_mismatch (h : facilities.checkOut id = .ok (some checkedOut))
    (hcalm : reloads.headD false = false) (hne : checkedOut ≠ id) :
    (consumer.take (some id)).run.perform facilities.restless (reloads, shop) =
      (.error (.checkoutMismatch id checkedOut), reloads.tail, shop) := by
  rw [Consumer.take, perform_checkOut_bind h, perform_unlessReload,
    if_neg (Bool.eq_false_iff.1 hcalm), Consumer.carryOut, if_pos hne]
  rfl

variable (map : KeyValue facilities.store)
include map

theorem perform_take_skipped (h : facilities.checkOut id = .ok none) :
    ∃ t, (consumer.take (some id)).run.perform facilities.restless (reloads, shop) =
        (.ok (.skipped id), reloads, { shop with store := t }) ∧
      Skipped id (map.contents shop.store) (map.contents t) := by
  obtain ⟨t, hskip, hskipped⟩ := perform_skip map reloads shop id
  exact ⟨t, (perform_checkOut_bind h _ reloads shop).trans hskip, hskipped⟩

theorem perform_take_completed (h : facilities.checkOut id = .ok (some id))
    (hcalm : reloads.headD false = false) :
    ∃ status later, (consumer.take (some id)).run.perform facilities.restless (reloads, shop) =
        (.ok (.completed id status), reloads.tail, later) ∧
      (status = .failed ↔ facilities.failures consumer.plan.commands shop.machine ≠ []) ∧
      Completed id status (facilities.failures consumer.plan.commands shop.machine)
        (map.contents shop.store) (map.contents later.store) := by
  obtain ⟨status, later, hprocess, hresult⟩ := perform_process map consumer id reloads.tail shop
  refine ⟨status, later, ?_, hresult⟩
  have hcarry : consumer.carryOut id id = consumer.process id := if_neg (not_not.2 rfl)
  rw [Consumer.take, perform_checkOut_bind h, perform_unlessReload,
    if_neg (Bool.eq_false_iff.1 hcalm), hcarry, hprocess]

/-- A poll has one of the effects. -/
theorem exists_effect (reloads : List Bool) (shop : Workshop σ ω) :
    ∃ result rest later,
      consumer.poll.run.perform facilities.restless (reloads, shop) = (result, rest, later) ∧
      facilities.Effect consumer.plan reloads shop.machine (map.contents shop.store) result
        (map.contents later.store) := by
  cases hreload : reloads.headD false with
  | true => exact ⟨_, _, _, perform_poll_reload consumer hreload, .reload hreload⟩
  | false =>
  cases hoffered : map.contents shop.store (.signal .offered) with
  | none =>
      have hread := perform_readOffer_absent map hoffered reloads.tail
      exact ⟨_, _, _, perform_poll consumer hreload hread, .absent hreload hoffered⟩
  | some payload =>
  by_cases hname : ∃ id, Names payload id
  case neg =>
    have hnameless := not_exists.1 hname
    obtain ⟨t, hread, hcleared⟩ := perform_readOffer_nameless map hoffered hnameless reloads.tail
    exact ⟨_, _, _, perform_poll consumer hreload hread,
      .unreadable hreload hoffered hnameless hcleared⟩
  obtain ⟨id, hname⟩ := hname
  have hpoll := perform_poll consumer hreload
    (perform_readOffer_named map hoffered hname reloads.tail)
  cases hcheckOut : facilities.checkOut id with
  | error fault =>
      exact ⟨_, _, _, hpoll.trans (perform_take_stuck consumer hcheckOut),
        .stuck hreload hoffered hname hcheckOut⟩
  | ok found =>
  cases found with
  | none =>
      obtain ⟨t, htake, hskipped⟩ := perform_take_skipped consumer map hcheckOut
      exact ⟨_, _, _, hpoll.trans htake, .skipped hreload hoffered hname hcheckOut hskipped⟩
  | some checkedOut =>
  cases hlater : reloads.tail.headD false with
  | true =>
      exact ⟨_, _, _, hpoll.trans (perform_take_replaced consumer hcheckOut hlater),
        .replaced hreload hoffered hname hcheckOut hlater⟩
  | false =>
  by_cases hsame : checkedOut = id
  · subst hsame
    obtain ⟨status, later, htake, hstatus, hcompleted⟩ :=
      perform_take_completed consumer map hcheckOut hlater
    exact ⟨_, _, _, hpoll.trans htake,
      .completed hreload hoffered hname hcheckOut hlater hstatus hcompleted⟩
  · exact ⟨_, _, _, hpoll.trans (perform_take_mismatch consumer hcheckOut hlater hsame),
      .mismatch hreload hoffered hname hcheckOut hlater hsame⟩

/-- An effect that a poll can have is the one that it has. -/
theorem Effect.performed {result : Except RoundFault PollOutcome} {after : Contents}
    (h : facilities.Effect consumer.plan reloads shop.machine (map.contents shop.store) result
      after) :
    ∃ rest later,
      consumer.poll.run.perform facilities.restless (reloads, shop) = (result, rest, later) ∧
        map.contents later.store = after := by
  cases h with
  | reload hwanted => exact ⟨_, _, perform_poll_reload consumer hwanted, rfl⟩
  | absent hcalm habsent =>
      have hread := perform_readOffer_absent map habsent reloads.tail
      exact ⟨_, _, perform_poll consumer hcalm hread, rfl⟩
  | unreadable hcalm hoffered hnameless hcleared =>
      obtain ⟨t, hread, ht⟩ := perform_readOffer_nameless map hoffered hnameless reloads.tail
      exact ⟨_, _, perform_poll consumer hcalm hread, ht.unique hcleared⟩
  | stuck hcalm hoffered hname hcheckOut =>
      have hread := perform_readOffer_named map hoffered hname reloads.tail
      exact ⟨_, _, (perform_poll consumer hcalm hread).trans
        (perform_take_stuck consumer hcheckOut), rfl⟩
  | skipped hcalm hoffered hname hcheckOut hskipped =>
      have hread := perform_readOffer_named map hoffered hname reloads.tail
      obtain ⟨t, htake, ht⟩ := perform_take_skipped consumer map hcheckOut
      exact ⟨_, _, (perform_poll consumer hcalm hread).trans htake, ht.unique hskipped⟩
  | replaced hcalm hoffered hname hcheckOut hwanted =>
      have hread := perform_readOffer_named map hoffered hname reloads.tail
      exact ⟨_, _, (perform_poll consumer hcalm hread).trans
        (perform_take_replaced consumer hcheckOut hwanted), rfl⟩
  | mismatch hcalm hoffered hname hcheckOut hcalm' hne =>
      have hread := perform_readOffer_named map hoffered hname reloads.tail
      exact ⟨_, _, (perform_poll consumer hcalm hread).trans
        (perform_take_mismatch consumer hcheckOut hcalm' hne), rfl⟩
  | @completed payload id status after hcalm hoffered hname hcheckOut hcalm' hstatus hcompleted =>
      have hread := perform_readOffer_named map hoffered hname reloads.tail
      obtain ⟨status', later, htake, hstatus', hcompleted'⟩ :=
        perform_take_completed consumer map hcheckOut hcalm'
      have hsame : status' = status := by
        have hiff := hstatus'.trans hstatus.symm
        revert hiff
        cases status <;> cases status' <;> simp
      subst hsame
      exact ⟨_, _, (perform_poll consumer hcalm hread).trans htake,
        hcompleted'.unique hcompleted⟩

/-- What a poll comes to and what it leaves in a store that behaves as a map is what its effect
says, and nothing else: a reload, an empty board, a fault of the checkout or the wrong revision
leave everything as it was; an offer that cannot be read takes the three signals down; a unit
that cannot be checked out is reported as passing; and a unit that is run has the logs of its
failed commands, its status and FINISHED, with OFFERED and CLAIMED down. -/
theorem polls_with_effect {result : Except RoundFault PollOutcome} {after : Contents} :
    facilities.Effect consumer.plan reloads shop.machine (map.contents shop.store) result after ↔
      ∃ rest later,
        consumer.poll.run.perform facilities.restless (reloads, shop) = (result, rest, later) ∧
          map.contents later.store = after := by
  refine ⟨Effect.performed consumer map, ?_⟩
  rintro ⟨rest, later, hrun, rfl⟩
  obtain ⟨result', rest', later', hrun', heffect⟩ := exists_effect consumer map reloads shop
  obtain ⟨rfl, heq⟩ := Prod.mk.inj (hrun.symm.trans hrun')
  obtain ⟨rfl, rfl⟩ := Prod.mk.inj heq
  exact heffect

end Facilities

end Handoff
