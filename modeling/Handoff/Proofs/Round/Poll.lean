import Handoff.Proofs.Conduct
import Handoff.Proofs.Round.Exchange
import Handoff.Round.Consumer
/-!
# How a poll goes

The phases of one poll of the consumer, what it may ask in each of them, and the proof
that `Consumer.poll` asks nothing else, whatever it is answered.  After its last look at
OFFERED a poll makes one write after the other, each only when the one before it has
succeeded.
-/

namespace Handoff

/-- A fault that stands for an offer that cannot be read. -/
def StoreFault.Garbled : StoreFault → Prop
  | notUtf8 _ => True
  | invalidPayload _ _ => True
  | _ => False

inductive PollPhase where
  /-- Nothing is decided; the last look at OFFERED read as `seen`. -/
  | looking (seen : Except StoreFault (Option WorkUnitId))
  /-- A recovery looks at the signals before it takes them down. -/
  | surveying
  /-- Signals are taken down. -/
  | clearing
  /-- The offered unit cannot be checked out. -/
  | unreachable (id : WorkUnitId)
  /-- The checkout for `id` came to `found`. -/
  | arrived (id found : WorkUnitId)
  | ready (id : WorkUnitId)
  | claimed (id : WorkUnitId)
  /-- The commands run; `failed` tells whether one of them did not pass. -/
  | running (id : WorkUnitId) (failed : Bool)
  /-- The status is written; `ran` tells whether the unit was checked out and run. -/
  | judged (ran : Bool) (id : WorkUnitId) (status : Status)
  | announced (ran : Bool) (id : WorkUnitId) (status : Status)
  | ended (id : WorkUnitId)

namespace PollPhase

open WorkRequest

/-- The writes of a poll for `id`: the phase, the call, and the phase after its
success. -/
inductive Writes (id : WorkUnitId) : PollPhase → StoreCall → PollPhase → Prop
  | excuse :
      Writes id (unreachable id) (.put (BlobKey.status id) Status.passed.payload)
        (judged false id .passed)
  | claim : Writes id (ready id) (.put (BlobKey.signal .claimed) id.payload) (claimed id)
  | take : Writes id (claimed id) (.delete (BlobKey.signal .offered)) (running id false)
  | judge {failed : Bool} :
      Writes id (running id failed)
        (.put (BlobKey.status id) (Status.ofFailed failed).payload)
        (judged true id (Status.ofFailed failed))
  | announce {ran : Bool} {status : Status} :
      Writes id (judged ran id status) (.put (BlobKey.signal .finished) id.payload)
        (announced ran id status)
  | release {status : Status} :
      Writes id (announced true id status) (.delete (BlobKey.signal .claimed)) (ended id)
  | withdraw {status : Status} :
      Writes id (announced false id status) (.delete (BlobKey.signal .offered)) (ended id)

def unit? : PollPhase → Option WorkUnitId
  | looking (.ok found) => found
  | looking (.error _) => none
  | surveying => none
  | clearing => none
  | unreachable id => some id
  | arrived id _ => some id
  | ready id => some id
  | claimed id => some id
  | running id _ => some id
  | judged _ id _ => some id
  | announced _ id _ => some id
  | ended id => some id

inductive Moves : PollPhase → (request : WorkRequest) → request.Answer → PollPhase → Prop
  | reloadCheck {seen : Except StoreFault (Option WorkUnitId)} (wanted : Bool) :
      Moves (.looking seen) .reloadWanted wanted (.looking seen)
  | look {seen : Except StoreFault (Option WorkUnitId)}
      (answer : Except StoreFault (Option ByteArray)) :
      Moves (.looking seen) (look .offered) answer
        (.looking (SignalBoard.reading .offered answer))
  | observe {seen : Except StoreFault (Option WorkUnitId)} {signal : Signal}
      (answer : Except StoreFault (Option ByteArray)) (other : signal ≠ .offered) :
      Moves (.looking seen) (look signal) answer (.looking seen)
  | giveUp {fault : StoreFault} {signal : Signal} (answer : Except StoreFault Bool)
      (garbled : fault.Garbled) :
      Moves (.looking (.error fault)) (probe signal) answer .clearing
  | inspect {signal : Signal} (answer : Except StoreFault (Option ByteArray)) :
      Moves .surveying (WorkRequest.look signal) answer .surveying
  | recover {signal : Signal} (answer : Except StoreFault Bool) :
      Moves .surveying (probe signal) answer .clearing
  | probe {signal : Signal} (answer : Except StoreFault Bool) :
      Moves .clearing (probe signal) answer .clearing
  | lower {signal : Signal} (answer : Except StoreFault Unit) :
      Moves .clearing (lower signal) answer .clearing
  | stuck {id : WorkUnitId} (fault : VcsFault) :
      Moves (.looking (.ok (some id))) (.checkOut id) (.error fault) (.ended id)
  | missing {id : WorkUnitId} :
      Moves (.looking (.ok (some id))) (.checkOut id) (.ok none) (.unreachable id)
  | arrive {id : WorkUnitId} (found : WorkUnitId) :
      Moves (.looking (.ok (some id))) (.checkOut id) (.ok (some found)) (.arrived id found)
  | reload {id found : WorkUnitId} :
      Moves (.arrived id found) .reloadWanted true (.ended id)
  | astray {id found : WorkUnitId} (other : found ≠ id) :
      Moves (.arrived id found) .reloadWanted false (.ended id)
  | agree {id : WorkUnitId} : Moves (.arrived id id) .reloadWanted false (.ready id)
  | run {id : WorkUnitId} {failed : Bool} (command : Command)
      (answer : Except RunFault (Option ExecutionRecord)) :
      Moves (.running id failed) (.run command none) answer
        (.running id (failed || Exchange.isFailedRun ⟨.run command none, answer⟩))
  | cleanUp {id : WorkUnitId} {failed : Bool} (command : Command) (limit : Duration)
      (answer : Except RunFault (Option ExecutionRecord)) :
      Moves (.running id failed) (.run command (some limit)) answer (.running id failed)
  | archive {id : WorkUnitId} {failed : Bool} (label : CommandLabel) (field : LogField)
      (content : ByteArray) (answer : Except StoreFault Unit) :
      Moves (.running id failed) (.store (.put (BlobKey.log id label field) content)) answer
        (.running id failed)
  | write {phase after : PollPhase} {call : StoreCall} {id : WorkUnitId}
      (result : call.Result) (writes : Writes id phase call after) :
      Moves phase (.store call) (.ok result) after
  | fault {phase after : PollPhase} {call : StoreCall} {id : WorkUnitId}
      (fault : StoreFault) (writes : Writes id phase call after) :
      Moves phase (.store call) (.error fault) (.ended id)

def MayLowerOffered : PollPhase → Prop
  | clearing => True
  | claimed _ => True
  | announced ran _ _ => ran = false
  | _ => False

theorem Writes.writes_offered {id : WorkUnitId} {phase after : PollPhase} {call : StoreCall}
    (h : Writes id phase call after)
    (hwrites : (WorkRequest.store call).writes (BlobKey.signal .offered)) :
    call = .delete (BlobKey.signal .offered) ∧ phase.MayLowerOffered := by
  cases h with
  | excuse => exact absurd hwrites (BlobKey.status_ne_signal _ _)
  | claim => exact absurd (BlobKey.signal_injective hwrites) nofun
  | take => exact ⟨rfl, trivial⟩
  | judge => exact absurd hwrites (BlobKey.status_ne_signal _ _)
  | announce => exact absurd (BlobKey.signal_injective hwrites) nofun
  | release => exact absurd (BlobKey.signal_injective hwrites) nofun
  | withdraw => exact ⟨rfl, rfl⟩

/-- A poll takes signals down when it clears an offer, writes logs while commands run,
and else makes its writes in their order. -/
theorem Moves.of_writes {phase after : PollPhase} {key : BlobKey} {request : WorkRequest}
    {answer : request.Answer} (h : Moves phase request answer after)
    (hwrites : request.writes key) :
    (phase = clearing ∧ ∃ signal, request = WorkRequest.lower signal) ∨
      (∃ id label field content,
        request = .store (.put (BlobKey.log id label field) content)) ∨
      ∃ id call later, request = .store call ∧ Writes id phase call later := by
  cases h with
  | lower answer => exact .inl ⟨rfl, _, rfl⟩
  | archive label field content answer => exact .inr (.inl ⟨_, _, _, _, rfl⟩)
  | write result writes => exact .inr (.inr ⟨_, _, _, rfl, writes⟩)
  | fault fault writes => exact .inr (.inr ⟨_, _, _, rfl, writes⟩)
  | _ => exact hwrites.elim

theorem Moves.writes_offered {phase after : PollPhase} {request : WorkRequest}
    {answer : request.Answer} (h : Moves phase request answer after)
    (hwrites : request.writes (BlobKey.signal .offered)) :
    request = WorkRequest.lower .offered ∧ phase.MayLowerOffered := by
  rcases h.of_writes hwrites with
    ⟨rfl, signal, rfl⟩ | ⟨id, label, field, content, rfl⟩ | ⟨id, call, later, rfl, hcall⟩
  · obtain rfl := BlobKey.signal_injective hwrites
    exact ⟨rfl, trivial⟩
  · exact absurd hwrites (BlobKey.log_ne_signal _ _ _ _)
  · obtain ⟨rfl, hphase⟩ := hcall.writes_offered hwrites
    exact ⟨rfl, hphase⟩

theorem Writes.put_finished {id : WorkUnitId} {phase after : PollPhase} {call : StoreCall}
    {value : ByteArray} (h : Writes id phase call after)
    (hcall : call = .put (BlobKey.signal .finished) value) :
    ∃ ran status, phase = judged ran id status ∧ value = id.payload := by
  cases h with
  | announce => exact ⟨_, _, rfl, (StoreCall.put.inj hcall).2.symm⟩
  | excuse => exact absurd (StoreCall.put.inj hcall).1 (BlobKey.status_ne_signal _ _)
  | judge => exact absurd (StoreCall.put.inj hcall).1 (BlobKey.status_ne_signal _ _)
  | claim => exact absurd (BlobKey.signal_injective (StoreCall.put.inj hcall).1) nofun
  | take => cases hcall
  | release => cases hcall
  | withdraw => cases hcall

theorem Moves.put_finished {phase after : PollPhase} {request : WorkRequest}
    {answer : request.Answer} {value : ByteArray} (h : Moves phase request answer after)
    (hput : request = .store (.put (BlobKey.signal .finished) value)) :
    ∃ ran id status, phase = judged ran id status ∧ value = id.payload := by
  have hwrites : request.writes (BlobKey.signal .finished) := by
    rw [hput]
    rfl
  rcases h.of_writes hwrites with
    ⟨-, signal, rfl⟩ | ⟨id, label, field, content, rfl⟩ | ⟨id, call, later, rfl, hcall⟩
  · cases hput
  · exact absurd hwrites (BlobKey.log_ne_signal _ _ _ _)
  · obtain ⟨ran, status, hphase, hvalue⟩ := hcall.put_finished (WorkRequest.store.inj hput)
    exact ⟨ran, id, status, hphase, hvalue⟩

theorem Moves.writes_status {phase after : PollPhase} {unit : WorkUnitId}
    {request : WorkRequest} {answer : request.Answer} (h : Moves phase request answer after)
    (hwrites : request.writes (BlobKey.status unit)) :
    (∃ status, request = WorkRequest.report unit status) ∧ phase ≠ surveying ∧
      phase ≠ clearing := by
  rcases h.of_writes hwrites with
    ⟨-, signal, rfl⟩ | ⟨id, label, field, content, rfl⟩ | ⟨id, call, later, rfl, hcall⟩
  · exact absurd hwrites (BlobKey.signal_ne_status _ _)
  · exact absurd hwrites (BlobKey.log_ne_status _ _ _ _)
  · cases hcall with
    | excuse =>
        obtain rfl := BlobKey.status_injective hwrites
        exact ⟨⟨_, rfl⟩, nofun, nofun⟩
    | judge =>
        obtain rfl := BlobKey.status_injective hwrites
        exact ⟨⟨_, rfl⟩, nofun, nofun⟩
    | claim => exact absurd hwrites (BlobKey.signal_ne_status _ _)
    | take => exact absurd hwrites (BlobKey.signal_ne_status _ _)
    | announce => exact absurd hwrites (BlobKey.signal_ne_status _ _)
    | release => exact absurd hwrites (BlobKey.signal_ne_status _ _)
    | withdraw => exact absurd hwrites (BlobKey.signal_ne_status _ _)

def Rests : PollPhase → Prop
  | looking _ => True
  | surveying => True
  | clearing => True
  | ended _ => True
  | _ => False

inductive LoopMoves : PollPhase → (request : WorkRequest) → request.Answer → PollPhase → Prop
  | poll {phase after : PollPhase} {request : WorkRequest} {answer : request.Answer}
      (moves : Moves phase request answer after) : LoopMoves phase request answer after
  /-- The first request of the next poll. -/
  | again {phase after : PollPhase} {request : WorkRequest} {answer : request.Answer}
      (rests : phase.Rests) (moves : Moves (.looking (.ok none)) request answer after) :
      LoopMoves phase request answer after
  | pause {phase : PollPhase} (rests : phase.Rests) (span : Duration) :
      LoopMoves phase (.sleep span) () phase

end PollPhase

namespace Consumer

open Program PollPhase

variable {ends : Except RoundFault PollOutcome → PollPhase → Prop}

/-- Logging the signals leaves the phase of a poll in which it looks around, though not
what it last saw. -/
theorem follows_observe {signals : List Signal} {seen : Except StoreFault (Option WorkUnitId)} :
    (Work.ofStorage (SignalBoard.observe signals)).Follows Moves
      (fun _ phase => ∃ seen, phase = .looking seen) (.looking seen) := by
  induction signals generalizing seen with
  | nil => exact ⟨seen, rfl⟩
  | cons signal rest ih =>
      intro answer
      by_cases h : signal = .offered
      · subst h
        exact ⟨_, .look answer, ih⟩
      · exact ⟨_, .observe answer h, ih⟩

def Clears (phase : PollPhase) : Prop :=
  phase = .clearing ∨ phase = .surveying ∨
    ∃ fault : StoreFault, fault.Garbled ∧ phase = .looking (.error fault)

theorem Clears.probe {phase : PollPhase} (h : Clears phase) (signal : Signal)
    (answer : Except StoreFault Bool) :
    Moves phase (WorkRequest.probe signal) answer .clearing := by
  rcases h with rfl | rfl | ⟨fault, hfault, rfl⟩
  · exact .probe answer
  · exact .recover answer
  · exact .giveUp answer hfault

theorem Clears.rests {phase : PollPhase} (h : Clears phase) : phase.Rests := by
  rcases h with rfl | rfl | ⟨fault, hfault, rfl⟩
  · trivial
  · trivial
  · trivial

theorem follows_clear (signals : List Signal) {phase : PollPhase} (h : Clears phase) :
    (Work.ofStorage (SignalBoard.clear signals).run).Follows Moves
      (fun _ phase => Clears phase) phase := by
  induction signals generalizing phase with
  | nil => exact h
  | cons signal rest ih =>
      refine Work.follows_bind fun answer => ⟨_, h.probe signal answer, ?_⟩
      rcases answer with fault | _ | _
      · exact .inl rfl
      · exact ih (.inl rfl)
      · refine Work.follows_bind fun answer => ⟨_, .lower answer, ?_⟩
        cases answer with
        | error fault => exact .inl rfl
        | ok _ =>
            refine Work.follows_bind ((ih (.inl rfl)).mono fun result phase hresult => ?_)
            cases result with
            | error fault => exact hresult
            | ok cleared => exact hresult

/-- A readable offer is handed on, an unreadable one is cleared away. -/
def Read (result : Except RoundFault (Option WorkUnitId)) (phase : PollPhase) : Prop :=
  phase.Rests ∧ ∀ id, result = .ok (some id) → phase = .looking (.ok (some id))

theorem follows_read {seen : Except StoreFault (Option WorkUnitId)} :
    (Work.ofStorage (SignalBoard.read .offered).run).Follows Moves
      (fun result phase => phase = .looking result) (.looking seen) := by
  rw [SignalBoard.run_read]
  exact fun answer => ⟨_, .look answer, rfl⟩

theorem follows_readOffer {seen : Except StoreFault (Option WorkUnitId)} :
    readOffer.run.Follows Moves Read (.looking seen) := by
  refine Program.follows_bind.2 (follows_read.mono ?_)
  rintro result _ rfl
  have hclear : ∀ fault : StoreFault, fault.Garbled →
      readOffer.clear.Follows Moves Read (.looking (.error fault)) := by
    intro fault hfault
    have hends := follows_clear Signal.all (.inr (.inr ⟨fault, hfault, rfl⟩))
    refine Program.follows_bind.2 (Work.follows_store (hends.mono ?_))
    intro result phase hphase
    cases result with
    | ok cleared => exact ⟨hphase.rests, by simp⟩
    | error fault => exact ⟨hphase.rests, by simp⟩
  match result with
  | .ok none => exact ⟨trivial, by simp⟩
  | .ok (some id) => exact ⟨trivial, by simp⟩
  | .error (.notUtf8 key) => exact hclear (.notUtf8 key) trivial
  | .error (.invalidPayload key fault) => exact hclear (.invalidPayload key fault) trivial
  | .error (.os fault) => exact ⟨trivial, by simp⟩
  | .error (.sql text) => exact ⟨trivial, by simp⟩
  | .error (.invalidKey fault) => exact ⟨trivial, by simp⟩
  | .error (.invalidSpec spec) => exact ⟨trivial, by simp⟩
  | .error .poisoned => exact ⟨trivial, by simp⟩

/-! ## The commands -/

theorem follows_putFields {id : WorkUnitId} {failed : Bool} {label : CommandLabel}
    {record : ExecutionRecord} {fields : List LogField} :
    (Work.ofStorage (Archive.putFields id label record fields).run).Follows Moves
      (fun _ phase => phase = .running id failed) (.running id failed) := by
  induction fields with
  | nil => rfl
  | cons field rest ih =>
      refine Work.follows_bind fun answer => ⟨_, .archive label field _ answer, ?_⟩
      cases answer with
      | ok _ => exact ih
      | error fault => rfl

theorem follows_accept {id : WorkUnitId} {failed : Bool} {errors : Nat}
    {label : CommandLabel} {command : Command} {record : ExecutionRecord} :
    ((FailureSink.archive id).accept errors label command record).Follows Moves
      (fun _ phase => phase = .running id failed) (.running id failed) := by
  refine Program.follows_bind.2 (follows_putFields.mono ?_)
  rintro result _ rfl
  cases result with
  | ok _ => rfl
  | error fault => rfl

theorem follows_record {id : WorkUnitId} {failed : Bool} (command : Command) :
    (Sequence.record command).Follows Moves
      (fun result phase => phase = .running id (failed || result.any ExecutionRecord.failed))
      (.running id failed) := by
  intro answer
  refine ⟨_, .run command answer, ?_⟩
  rcases answer with fault | _ | record
  · rfl
  · rfl
  · rfl

theorem failed_append (outcome : SequenceOutcome) (ran : Nat) (label : CommandLabel) :
    ({ ran, failures := outcome.failures ++ [label] } : SequenceOutcome).failed = true := by
  simp [SequenceOutcome.failed]

theorem follows_runCommands {id : WorkUnitId} {commands : List Command}
    (outcome : SequenceOutcome) {errors : Nat} :
    (Sequence.runCommands (FailureSink.archive id) commands outcome errors).Follows Moves
      (fun result phase => phase = .running id result.1.failed)
      (.running id outcome.failed) := by
  induction commands generalizing outcome errors with
  | nil => rfl
  | cons command rest ih =>
      unfold Sequence.runCommands
      cases command.label with
      | none => exact ih outcome
      | some label =>
          refine Program.follows_bind.2 ((follows_record command).mono ?_)
          rintro result _ rfl
          cases result with
          | none => simpa using ih outcome
          | some record =>
              cases hfailed : record.failed with
              | false =>
                simp only [Option.any_some, hfailed, Bool.or_false]
                exact ih { outcome with ran := outcome.ran + 1 }
              | true =>
                simp only [Option.any_some, hfailed, Bool.or_true, if_true]
                refine Program.follows_bind.2 (follows_accept.mono ?_)
                rintro errors _ rfl
                rw [← failed_append outcome (outcome.ran + 1) label]
                exact ih _

theorem follows_runCleanup {id : WorkUnitId} {failed : Bool} {cleanup : Option Command}
    {limit : Duration} :
    (Sequence.runCleanup cleanup limit).Follows Moves
      (fun _ phase => phase = .running id failed) (.running id failed) := by
  cases cleanup with
  | none => rfl
  | some command => exact fun answer => ⟨_, .cleanUp command limit answer, rfl⟩

theorem follows_execute {consumer : Consumer} {id : WorkUnitId} :
    (consumer.execute id).Follows Moves
      (fun status phase => ∃ failed, phase = .running id failed ∧
        status = Status.ofFailed failed) (.running id false) := by
  unfold execute Sequence.runPlan Sequence.runAll
  refine Program.follows_bind.2 (Program.follows_bind.2
    ((follows_runCommands { ran := 0, failures := [] }).mono ?_))
  rintro ⟨outcome, errors⟩ _ rfl
  refine Program.follows_bind.2 (follows_runCleanup.mono ?_)
  rintro _ _ rfl
  exact ⟨_, rfl, rfl⟩

/-! ## The whole poll -/

/-- A write of the poll, whose fault ends it. -/
theorem follows_write {β : Type} {ends : Except RoundFault β → PollPhase → Prop}
    {phase after : PollPhase} {call : StoreCall} {id : WorkUnitId} {next : call.Result → WorkM β}
    (hwrites : Writes id phase call after)
    (hfault : ∀ fault, ends (.error fault) (.ended id))
    (hafter : ∀ result, (next result).run.Follows Moves ends after) :
    (Work.store (storeCall call) >>= next).run.Follows Moves ends phase := by
  refine WorkM.follows_bind (Work.follows_call fun answer => ?_)
  cases answer with
  | ok result => exact ⟨_, .write result hwrites, hafter result⟩
  | error fault => exact ⟨_, .fault fault hwrites, hfault (.store fault)⟩

def Ended (_ : Except RoundFault PollOutcome) (phase : PollPhase) : Prop :=
  phase.Rests

theorem follows_skip {id : WorkUnitId} :
    (skip id).run.Follows Moves Ended (.unreachable id) := by
  refine follows_write .excuse (fun _ => trivial) fun _ => ?_
  refine follows_write .announce (fun _ => trivial) fun _ => ?_
  refine follows_write .withdraw (fun _ => trivial) fun _ => ?_
  trivial

theorem follows_process {consumer : Consumer} {id : WorkUnitId} :
    (consumer.process id).run.Follows Moves Ended (.ready id) := by
  refine follows_write .claim (fun _ => trivial) fun _ => ?_
  refine follows_write .take (fun _ => trivial) fun _ => ?_
  refine WorkM.follows_bind (WorkM.follows_lift (follows_execute.mono ?_))
  rintro status _ ⟨failed, rfl, rfl⟩
  refine follows_write .judge (fun _ => trivial) fun _ => ?_
  refine follows_write .announce (fun _ => trivial) fun _ => ?_
  refine follows_write .release (fun _ => trivial) fun _ => ?_
  trivial

/-- A poll asks what its phase allows and nothing else, and ends at rest. -/
theorem follows_poll (consumer : Consumer) :
    consumer.poll.run.Follows Moves Ended (.looking (.ok none)) := by
  unfold poll
  refine WorkM.follows_bind (WorkM.follows_lift fun wanted => ⟨_, .reloadCheck wanted, ?_⟩)
  cases wanted with
  | true => trivial
  | false =>
      refine WorkM.follows_bind (WorkM.follows_lift (follows_observe.mono ?_))
      rintro _ _ ⟨seen, rfl⟩
      refine WorkM.follows_bind (follows_readOffer.mono ?_)
      rintro result phase ⟨hrests, hread⟩
      rcases result with fault | _ | id
      · exact hrests
      · exact hrests
      · obtain rfl := hread id rfl
        refine WorkM.follows_bind fun answer => ?_
        rcases answer with fault | _ | found
        · exact ⟨_, .stuck fault, trivial⟩
        · exact ⟨_, .missing, follows_skip⟩
        · refine ⟨_, .arrive found, ?_⟩
          refine WorkM.follows_bind (WorkM.follows_lift fun wanted => ?_)
          cases wanted with
          | true => exact ⟨_, .reload, trivial⟩
          | false =>
              by_cases hfound : found = id
              · subst hfound
                refine ⟨_, .agree, ?_⟩
                simp only [ne_eq, not_true_eq_false, if_false]
                exact follows_process
              · refine ⟨_, .astray hfound, ?_⟩
                simp only [ne_eq, hfound, not_false_eq_true, if_true]
                trivial

/-! ## One poll after another -/

theorem follows_again (consumer : Consumer) {phase : PollPhase} (h : phase.Rests) :
    consumer.poll.run.Follows LoopMoves Ended phase := by
  have hpoll := consumer.follows_poll
  cases hprogram : consumer.poll.run with
  | done value => exact h
  | ask request next =>
      rw [hprogram] at hpoll
      intro answer
      obtain ⟨after, hmove, hnext⟩ := hpoll.step answer
      exact ⟨after, .again h hmove, hnext.of_moves .poll⟩

theorem follows_loop (consumer : Consumer) (once : Bool) (polls : Nat) {phase : PollPhase}
    (h : phase.Rests) :
    (consumer.loop once polls).run.Follows LoopMoves (fun _ phase => phase.Rests) phase := by
  induction polls generalizing phase with
  | zero => exact h
  | succ polls ih =>
      have hpause {phase : PollPhase} (hphase : phase.Rests) :
          (ExceptT.lift (Work.sleep consumer.pollInterval) >>= fun _ =>
            consumer.loop once polls : WorkM _).run.Follows LoopMoves
              (fun _ phase => phase.Rests) phase :=
        WorkM.follows_request fun _ => ⟨phase, .pause hphase consumer.pollInterval, ih hphase⟩
      unfold loop
      refine WorkM.follows_bind ((follows_again consumer h).mono ?_)
      rintro (fault | outcome) phase hphase
      · exact hphase
      · cases outcome with
        | reload => exact hphase
        | skipped id =>
            cases once with
            | true => exact hphase
            | false => exact ih hphase
        | idle =>
            cases once with
            | true => exact hphase
            | false => exact hpause hphase
        | completed id status =>
            cases once with
            | true => exact hphase
            | false => exact hpause hphase

/-! ## The recovery -/

/-- The recovery looks at signals and takes them down, as a poll does that clears an
unreadable offer. -/
theorem follows_recover (consumer : Consumer) :
    consumer.recover.run.Follows Moves (fun _ phase => phase.Rests) .surveying := by
  unfold recover
  cases consumer.start with
  | reloaded => trivial
  | fresh =>
      have hobserve := Work.follows_observe Signal.all fun _ => Moves.inspect
      refine WorkM.follows_bind (WorkM.follows_lift (hobserve.mono ?_))
      rintro _ _ rfl
      refine Work.follows_store ((follows_clear Signal.all (.inr (.inl rfl))).mono ?_)
      intro result phase hphase
      cases result with
      | ok cleared => exact hphase.rests
      | error fault => exact hphase.rests

end Consumer

end Handoff
