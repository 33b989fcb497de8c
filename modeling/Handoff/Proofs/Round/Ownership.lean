import Handoff.Proofs.Performance
import Handoff.Proofs.Round.Offer
import Handoff.Proofs.Round.Verdict
/-!
# Who writes which signal, and when

The writes of either side, whatever it is answered, told by the course of its requests.  A
producer sweeps, raises OFFERED once and takes down the FINISHED that answers it.  A poll writes
for the unit that it has read and in one order, up to the first write that fails.
-/

namespace Handoff

open Program WorkRequest

def Work.exchanges (talk : Work.Talk) : List Exchange :=
  talk.map fun x => ⟨x.1, x.2⟩

/-- The calls are made one after the other, up to the first that fails.  The record may end
before that. -/
inductive InTurn : List StoreCall → List Exchange → Prop
  | pending (calls : List StoreCall) : InTurn calls []
  | failed {call : StoreCall} {rest : List StoreCall} (fault : StoreFault) :
      InTurn (call :: rest) [⟨.store call, .error fault⟩]
  | made {call : StoreCall} {rest : List StoreCall} {later : List Exchange}
      (result : call.Result) (others : InTurn rest later) :
      InTurn (call :: rest) (⟨.store call, .ok result⟩ :: later)

namespace InTurn

theorem eq_nil {record : List Exchange} (h : InTurn [] record) : record = [] := by
  cases h
  rfl

theorem fault {call : StoreCall} {rest : List StoreCall} {later : List Exchange}
    (fault : StoreFault) (h : InTurn [] later) :
    InTurn (call :: rest) (⟨.store call, .error fault⟩ :: later) := by
  rw [h.eq_nil]
  exact .failed fault

end InTurn

/-- Nothing is written but that signals are taken down. -/
def Clearing (record : List Exchange) : Prop :=
  ∀ x ∈ record, ∀ key, x.request.writes key → ∃ signal, x.request = lower signal

theorem Clearing.cons {x : Exchange} {record : List Exchange} (h : Clearing record)
    (hx : ∀ key, x.request.writes key → ∃ signal, x.request = lower signal) :
    Clearing (x :: record) :=
  List.forall_mem_cons.2 ⟨hx, h⟩

theorem clearing_nil : Clearing [] := fun _ hx => absurd hx List.not_mem_nil

theorem unchanged_nil : Unchanged [] := fun _ hx => absurd hx List.not_mem_nil

/-! ## The producer -/

/-- What a producer does once it has made its offer: it waits, and when FINISHED shows its unit
it reads the status and takes FINISHED down. -/
inductive Awaits (id : WorkUnitId) : List Exchange → Prop
  | waiting {wait : List Exchange} (quiet : Unchanged wait) : Awaits id wait
  | collecting {wait after : List Exchange} {shown : Except StoreFault (Option ByteArray)}
      (quiet : Unchanged wait) (finished : SignalBoard.reading .finished shown = .ok (some id))
      (collects : InTurn [.get (BlobKey.status id), .delete (BlobKey.signal .finished)] after) :
      Awaits id (wait ++ ⟨look .finished, shown⟩ :: after)

/-- What a producer does: it takes signals down, and makes its offer when OFFERED is down. -/
inductive OfferCourse (id : WorkUnitId) : List Exchange → Prop
  | sweeping {sweep : List Exchange} (clears : Clearing sweep) : OfferCourse id sweep
  | offering {sweep later : List Exchange} {answer : Except StoreFault Unit}
      (clears : Clearing sweep) (awaits : Awaits id later) :
      OfferCourse id
        (sweep ++ ⟨probe .offered, .ok false⟩ :: ⟨raise .offered id, answer⟩ :: later)

theorem Awaits.cons {id : WorkUnitId} {x : Exchange} {record : List Exchange}
    (h : Awaits id record) (hx : ∀ key, ¬x.request.writes key) : Awaits id (x :: record) := by
  cases h with
  | waiting quiet => exact .waiting (quiet.cons hx)
  | collecting quiet finished collects => exact .collecting (quiet.cons hx) finished collects

theorem OfferCourse.cons {id : WorkUnitId} {x : Exchange} {record : List Exchange}
    (h : OfferCourse id record)
    (hx : ∀ key, x.request.writes key → ∃ signal, x.request = lower signal) :
    OfferCourse id (x :: record) := by
  cases h with
  | sweeping clears => exact .sweeping (clears.cons hx)
  | offering clears awaits => exact .offering (clears.cons hx) awaits

namespace OfferPhase

variable {id : WorkUnitId} {phase after : OfferPhase} {talk : Work.Talk}

def left (id : WorkUnitId) : OfferPhase → List StoreCall
  | seen => [.get (BlobKey.status id), .delete (BlobKey.signal .finished)]
  | collected _ => [.delete (BlobKey.signal .finished)]
  | _ => []

def Collects : OfferPhase → Prop
  | seen => True
  | collected _ => True
  | returned _ => True
  | failed _ => True
  | _ => False

theorem collects_of_trail (h : Trail (Moves id) phase talk after) (hphase : phase.Collects) :
    InTurn (phase.left id) (Work.exchanges talk) := by
  induction h with
  | rest phase => exact .pending _
  | move first later ih =>
      cases first with
      | collect entry => exact .made _ (ih trivial)
      | collectFault fault => exact .fault fault (ih trivial)
      | finish => exact .made _ (ih trivial)
      | finishFault fault => exact .fault fault (ih trivial)
      | _ => exact hphase.elim

theorem awaits_of_failed {fault : RoundFault} (h : Trail (Moves id) (failed fault) talk after) :
    Awaits id (Work.exchanges talk) := by
  have hnil : Work.exchanges talk = [] := (collects_of_trail h trivial).eq_nil
  rw [hnil]
  exact .waiting unchanged_nil

/-- A look at FINISHED ends the wait, or shows nothing yet. -/
theorem awaits_of_peek {answer : Except StoreFault (Option ByteArray)}
    (h : Trail (Moves id) (peek id (SignalBoard.reading .finished answer)) talk after)
    (hwaiting : Trail (Moves id) waiting talk after → Awaits id (Work.exchanges talk)) :
    Awaits id (⟨look .finished, answer⟩ :: Work.exchanges talk) := by
  have hquiet (hlater : Awaits id (Work.exchanges talk)) :
      Awaits id (⟨look .finished, answer⟩ :: Work.exchanges talk) := hlater.cons fun _ h => h
  rcases hread : SignalBoard.reading .finished answer with fault | _ | found
  · rw [hread] at h
    exact hquiet (awaits_of_failed h)
  · rw [hread] at h
    exact hquiet (hwaiting h)
  · rw [hread, peek] at h
    split at h
    · next hfound =>
      subst hfound
      exact .collecting unchanged_nil hread (collects_of_trail h trivial)
    · exact hquiet (awaits_of_failed h)

theorem awaits_of_trail (h : Trail (Moves id) phase talk after)
    (hphase : phase = waiting ∨ phase = peeking) : Awaits id (Work.exchanges talk) := by
  induction talk generalizing phase with
  | nil => exact .waiting unchanged_nil
  | cons x talk ih =>
      cases h with
      | move first later =>
          rcases hphase with rfl | rfl
          · cases first with
            | clock reading => exact (ih later (.inr rfl)).cons fun _ h => h
            | watch answer => exact (ih later (.inl rfl)).cons fun _ h => h
            | sleep span => exact (ih later (.inl rfl)).cons fun _ h => h
          · cases first with
            | clockAgain reading => exact (ih later (.inr rfl)).cons fun _ h => h
            | peek answer => exact awaits_of_peek later fun h => ih h (.inl rfl)

theorem course_of_clear (h : Trail (Moves id) clear talk after) :
    OfferCourse id (⟨probe .offered, .ok false⟩ :: Work.exchanges talk) := by
  have hsweep : OfferCourse id [⟨probe .offered, .ok false⟩] :=
    .sweeping (clearing_nil.cons fun _ h => h.elim)
  cases h with
  | rest => exact hsweep
  | move first later =>
      cases first with
      | offer => exact .offering clearing_nil (awaits_of_trail later (.inl rfl))
      | offerFault fault => exact .offering clearing_nil (awaits_of_failed later)

def Sweeps : OfferPhase → Prop
  | sweeping _ => True
  | removing _ _ => True
  | _ => False

theorem course_of_failed {fault : RoundFault} (h : Trail (Moves id) (failed fault) talk after) :
    OfferCourse id (Work.exchanges talk) := by
  have hnil : Work.exchanges talk = [] := (collects_of_trail h trivial).eq_nil
  rw [hnil]
  exact .sweeping clearing_nil

theorem course_of_trail (h : Trail (Moves id) phase talk after) (hphase : phase.Sweeps) :
    OfferCourse id (Work.exchanges talk) := by
  induction h with
  | rest phase => exact .sweeping clearing_nil
  | move first later ih =>
      cases first with
      | observe answer => exact (ih trivial).cons fun _ h => h.elim
      | down => exact (ih trivial).cons fun _ h => h.elim
      | up => exact (ih trivial).cons fun _ h => h.elim
      | removed => exact (ih trivial).cons fun _ _ => ⟨_, rfl⟩
      | free => exact course_of_clear later
      | sweepFault | taken | checkFault => exact (course_of_failed later).cons fun _ h => h.elim
      | removeFault => exact (course_of_failed later).cons fun _ _ => ⟨_, rfl⟩
      | _ => exact hphase.elim

end OfferPhase

theorem Producer.course_of_converses {producer : Producer} {polls : Nat} {id : WorkUnitId}
    {talk : Work.Talk} {rest : Program Work (Except RoundFault (Option Status))}
    (h : Converses (producer.offerAndWait polls id).run talk rest) :
    OfferCourse id (Work.exchanges talk) := by
  obtain ⟨after, htrail, -⟩ := (follows_offerAndWait producer polls id).converses h
  exact OfferPhase.course_of_trail htrail trivial

/-! ## The poll -/

/-- What the last look at OFFERED read as; `seen` when there was none. -/
def lastSeen (seen : Except StoreFault (Option WorkUnitId)) :
    List Exchange → Except StoreFault (Option WorkUnitId)
  | [] => seen
  | ⟨.store (.get key), answer⟩ :: later =>
      if key = BlobKey.signal .offered then lastSeen (SignalBoard.reading .offered answer) later
      else lastSeen seen later
  | _ :: later => lastSeen seen later

def excuse (id : WorkUnitId) : List StoreCall :=
  [.put (BlobKey.status id) Status.passed.payload, .put (BlobKey.signal .finished) id.payload,
    .delete (BlobKey.signal .offered)]

def claim (id : WorkUnitId) : List StoreCall :=
  [.put (BlobKey.signal .claimed) id.payload, .delete (BlobKey.signal .offered)]

def delivery (id : WorkUnitId) (status : Status) : List StoreCall :=
  [.put (BlobKey.status id) status.payload, .put (BlobKey.signal .finished) id.payload,
    .delete (BlobKey.signal .claimed)]

/-- Commands are run, and their logs are archived for the unit.  Archiving may fail. -/
def Runs (id : WorkUnitId) (record : List Exchange) : Prop :=
  ∀ x ∈ record, (∃ command limit, x.request = .run command limit) ∨
    ∃ label field content, x.request = .store (.put (BlobKey.log id label field) content)

/-- What a poll does once it has read OFFERED. -/
inductive Deeds : Except StoreFault (Option WorkUnitId) → List Exchange → Prop
  | nothing (seen : Except StoreFault (Option WorkUnitId)) : Deeds seen []
  | clearing {fault : StoreFault} {record : List Exchange} (garbled : fault.Garbled)
      (clears : Clearing record) : Deeds (.error fault) record
  | skipping {id : WorkUnitId} {record : List Exchange} (reports : InTurn (excuse id) record) :
      Deeds (.ok (some id)) (⟨.checkOut id, .ok none⟩ :: record)
  | claiming {id : WorkUnitId} {record : List Exchange} (claims : InTurn (claim id) record) :
      Deeds (.ok (some id)) record
  | working {id : WorkUnitId} {status : Status} {run record : List Exchange} (runs : Runs id run)
      (reports : InTurn (delivery id status) record) :
      Deeds (.ok (some id))
        (⟨raise .claimed id, .ok ()⟩ :: ⟨lower .offered, .ok ()⟩ :: (run ++ record))

/-- What a poll does, whose last look at OFFERED so far read as `seen`: it writes nothing until
it has decided what its offer is. -/
def PollCourse (seen : Except StoreFault (Option WorkUnitId)) (record : List Exchange) : Prop :=
  ∃ before after, record = before ++ after ∧ Unchanged before ∧
    Deeds (lastSeen seen before) after

section Cons

variable {seen : Except StoreFault (Option WorkUnitId)} {record : List Exchange} {x : Exchange}

theorem lastSeen_cons_of_ne_look (hx : x.request ≠ look .offered) :
    lastSeen seen (x :: record) = lastSeen seen record := by
  obtain ⟨request, answer⟩ := x
  rcases request with call | _ | _ | _ | _ | _
  · cases call with
    | get key =>
        have hkey : key ≠ BlobKey.signal .offered := fun h => hx (by rw [h])
        rw [lastSeen, if_neg hkey]
    | _ => rfl
  all_goals rfl

theorem Deeds.course (h : Deeds seen record) : PollCourse seen record :=
  ⟨[], record, rfl, unchanged_nil, h⟩

theorem PollCourse.cons (h : PollCourse seen record) (hx : ∀ key, ¬x.request.writes key)
    (hlook : x.request ≠ look .offered) : PollCourse seen (x :: record) := by
  obtain ⟨before, after, rfl, hbefore, hdeeds⟩ := h
  refine ⟨x :: before, after, rfl, hbefore.cons hx, ?_⟩
  rwa [lastSeen_cons_of_ne_look hlook]

theorem PollCourse.cons_look {answer : Except StoreFault (Option ByteArray)}
    (h : PollCourse (SignalBoard.reading .offered answer) record) :
    PollCourse seen (⟨look .offered, answer⟩ :: record) := by
  obtain ⟨before, after, rfl, hbefore, hdeeds⟩ := h
  refine ⟨⟨look .offered, answer⟩ :: before, after, rfl, hbefore.cons fun _ h => h, ?_⟩
  rwa [lastSeen, if_pos rfl]

end Cons

namespace PollPhase

variable {id : WorkUnitId} {phase after : PollPhase} {talk : Work.Talk}

def left : PollPhase → List StoreCall
  | unreachable id => excuse id
  | judged ran id _ =>
      [.put (BlobKey.signal .finished) id.payload,
        .delete (BlobKey.signal (if ran then .claimed else .offered))]
  | announced ran _ _ => [.delete (BlobKey.signal (if ran then .claimed else .offered))]
  | _ => []

def Reporting : PollPhase → Prop
  | unreachable _ => True
  | judged _ _ _ => True
  | announced _ _ _ => True
  | ended _ => True
  | _ => False

theorem inTurn_of_trail (h : Trail Moves phase talk after) (hphase : phase.Reporting) :
    InTurn phase.left (Work.exchanges talk) := by
  induction h with
  | rest phase => exact .pending _
  | move first later ih =>
      cases first with
      | write result writes =>
          cases writes with
          | excuse | announce | release | withdraw => exact .made _ (ih trivial)
          | claim | take | judge => exact hphase.elim
      | fault fault writes =>
          cases writes with
          | excuse | announce | release | withdraw => exact .fault fault (ih trivial)
          | claim | take | judge => exact hphase.elim
      | _ => exact hphase.elim

theorem runs_of_trail {failed : Bool} (h : Trail Moves (running id failed) talk after) :
    ∃ run report status, Work.exchanges talk = run ++ report ∧ Runs id run ∧
      InTurn (delivery id status) report := by
  induction talk generalizing failed with
  | nil => exact ⟨[], [], .passed, rfl, fun _ hx => absurd hx List.not_mem_nil, .pending _⟩
  | cons x talk ih =>
      -- A command and an entry of the archive belong to what is run.
      have hrun {later : Bool} (hlater : Trail Moves (running id later) talk after)
          (hx : (∃ command limit, x.1 = WorkRequest.run command limit) ∨
            ∃ label field content, x.1 = .store (.put (BlobKey.log id label field) content)) :
          ∃ run report status, Work.exchanges (x :: talk) = run ++ report ∧ Runs id run ∧
            InTurn (delivery id status) report := by
        obtain ⟨run, report, status, htalk, hruns, hreport⟩ := ih hlater
        refine ⟨⟨x.1, x.2⟩ :: run, report, status, ?_, List.forall_mem_cons.2 ⟨hx, hruns⟩, hreport⟩
        exact congrArg (List.cons _) htalk
      cases h with
      | move first later =>
          cases first with
          | run command answer => exact hrun later (.inl ⟨_, _, rfl⟩)
          | cleanUp command limit answer => exact hrun later (.inl ⟨_, _, rfl⟩)
          | archive label field content answer => exact hrun later (.inr ⟨_, _, _, rfl⟩)
          | write result writes =>
              cases writes with
              | judge =>
                  refine ⟨[], _, Status.ofFailed failed, rfl,
                    fun _ hx => absurd hx List.not_mem_nil, ?_⟩
                  exact .made _ (inTurn_of_trail later trivial)
          | fault fault writes =>
              cases writes with
              | judge =>
                  refine ⟨[], _, Status.ofFailed failed, rfl,
                    fun _ hx => absurd hx List.not_mem_nil, ?_⟩
                  exact .fault fault (inTurn_of_trail later trivial)

theorem deeds_of_claimed (h : Trail Moves (claimed id) talk after) :
    Deeds (.ok (some id)) (⟨raise .claimed id, .ok ()⟩ :: Work.exchanges talk) := by
  cases h with
  | rest => exact .claiming (.made _ (.pending _))
  | move first later =>
      cases first with
      | fault fault writes =>
          cases writes with
          | take => exact .claiming (.made _ (.fault fault (inTurn_of_trail later trivial)))
      | write result writes =>
          cases writes with
          | take =>
              obtain ⟨run, report, status, htalk, hruns, hreport⟩ := runs_of_trail later
              have hworking := Deeds.working hruns hreport
              rwa [← htalk] at hworking

theorem deeds_of_ready (h : Trail Moves (ready id) talk after) :
    Deeds (.ok (some id)) (Work.exchanges talk) := by
  cases h with
  | rest => exact .nothing _
  | move first later =>
      cases first with
      | fault fault writes =>
          cases writes with
          | claim => exact .claiming (.fault fault (inTurn_of_trail later trivial))
      | write result writes =>
          cases writes with
          | claim => exact deeds_of_claimed later

theorem course_of_ended {seen : Except StoreFault (Option WorkUnitId)}
    (h : Trail Moves (ended id) talk after) : PollCourse seen (Work.exchanges talk) := by
  have hnil : Work.exchanges talk = [] := (inTurn_of_trail h trivial).eq_nil
  rw [hnil]
  exact (Deeds.nothing seen).course

theorem course_of_arrived {found : WorkUnitId} (h : Trail Moves (arrived id found) talk after) :
    PollCourse (.ok (some id)) (Work.exchanges talk) := by
  cases h with
  | rest => exact (Deeds.nothing _).course
  | move first later =>
      cases first with
      | reload | astray => exact (course_of_ended later).cons (fun _ h => h) nofun
      | agree => exact (deeds_of_ready later).course.cons (fun _ h => h) nofun
      | write result writes => cases writes
      | fault fault writes => cases writes

theorem clearing_of_trail (h : Trail Moves phase talk after) (hphase : phase = clearing) :
    Clearing (Work.exchanges talk) := by
  induction h with
  | rest => exact clearing_nil
  | move first later ih =>
      subst hphase
      cases first with
      | probe answer => exact (ih rfl).cons fun _ h => h.elim
      | lower answer => exact (ih rfl).cons fun _ _ => ⟨_, rfl⟩
      | write result writes => cases writes
      | fault fault writes => cases writes

theorem course_of_looking {seen : Except StoreFault (Option WorkUnitId)}
    (h : Trail Moves (looking seen) talk after) : PollCourse seen (Work.exchanges talk) := by
  induction talk generalizing seen with
  | nil => exact (Deeds.nothing seen).course
  | cons x talk ih =>
      cases h with
      | move first later =>
          cases first with
          | reloadCheck wanted => exact (ih later).cons (fun _ h => h) nofun
          | look answer => exact (ih later).cons_look
          | @observe _ signal answer other =>
              refine (ih later).cons (fun _ h => h) fun hlook => other ?_
              exact BlobKey.signal_injective (StoreCall.get.inj (WorkRequest.store.inj hlook))
          | giveUp answer garbled =>
              refine (Deeds.clearing garbled ?_).course
              exact (clearing_of_trail later rfl).cons fun _ h => h.elim
          | stuck fault => exact (course_of_ended later).cons (fun _ h => h) nofun
          | missing => exact (Deeds.skipping (inTurn_of_trail later trivial)).course
          | arrive found => exact (course_of_arrived later).cons (fun _ h => h) nofun
          | write result writes => cases writes
          | fault fault writes => cases writes

end PollPhase

theorem Consumer.course_of_converses {consumer : Consumer} {talk : Work.Talk}
    {rest : Program Work (Except RoundFault PollOutcome)}
    (h : Converses consumer.poll.run talk rest) :
    PollCourse (.ok none) (Work.exchanges talk) := by
  obtain ⟨after, htrail, -⟩ := (follows_poll consumer).converses h
  exact PollPhase.course_of_looking htrail

/-! ## A poll that comes to an outcome -/

inductive InFull : List StoreCall → List Exchange → Prop
  | done : InFull [] []
  | made {call : StoreCall} {rest : List StoreCall} {later : List Exchange}
      (result : call.Result) (others : InFull rest later) :
      InFull (call :: rest) (⟨.store call, .ok result⟩ :: later)

/-- What a poll has done for its outcome, once it has read OFFERED. -/
inductive Accomplished :
    PollOutcome → Except StoreFault (Option WorkUnitId) → List Exchange → Prop
  | reloading (seen : Except StoreFault (Option WorkUnitId)) : Accomplished .reload seen []
  | idling : Accomplished .idle (.ok none) []
  | clearing {fault : StoreFault} {record : List Exchange} (garbled : fault.Garbled)
      (clears : Clearing record) : Accomplished .idle (.error fault) record
  | skipping {id : WorkUnitId} {record : List Exchange} (reports : InFull (excuse id) record) :
      Accomplished (.skipped id) (.ok (some id)) (⟨.checkOut id, .ok none⟩ :: record)
  | working {id : WorkUnitId} {status : Status} {run record : List Exchange} (runs : Runs id run)
      (reports : InFull (delivery id status) record) :
      Accomplished (.completed id status) (.ok (some id))
        (⟨raise .claimed id, .ok ()⟩ :: ⟨lower .offered, .ok ()⟩ :: (run ++ record))

/-- What a poll with an outcome does: nothing is written before it has decided what its offer is,
and then all that belongs to the outcome. -/
def WholeCourse (outcome : PollOutcome) (record : List Exchange) : Prop :=
  ∃ before after, record = before ++ after ∧ Unchanged before ∧
    Accomplished outcome (lastSeen (.ok none) before) after

theorem Unchanged.append {first second : List Exchange} (hfirst : Unchanged first)
    (hsecond : Unchanged second) : Unchanged (first ++ second) :=
  List.forall_mem_append.2 ⟨hfirst, hsecond⟩

theorem lastSeen_append (seen : Except StoreFault (Option WorkUnitId))
    (first second : List Exchange) :
    lastSeen seen (first ++ second) = lastSeen (lastSeen seen first) second := by
  induction first generalizing seen with
  | nil => rfl
  | cons x rest ih =>
      by_cases hx : x.request = look .offered
      · obtain ⟨request, answer⟩ := x
        subst hx
        rw [List.cons_append, lastSeen, lastSeen, if_pos rfl, if_pos rfl, ih]
      · rw [List.cons_append, lastSeen_cons_of_ne_look hx, lastSeen_cons_of_ne_look hx, ih]

namespace WorkM

variable {α β : Type} {talk : Work.Talk} {value : α}

theorem converses_lift {program : Program Work α}
    (h : Converses (ExceptT.lift program : WorkM α).run talk (done (.ok value))) :
    Converses program talk (done value) := by
  rcases Converses.bind_cases h with ⟨_, _, -, hrest⟩ | ⟨found, first, second, rfl, hfirst, hsecond⟩
  · cases hrest
  · obtain ⟨rfl, hdone⟩ := converses_done.1 hsecond
    cases hdone
    rwa [List.append_nil]

theorem eq_of_converses_lift_request {request : WorkRequest} {answer : request.Answer}
    (h : Converses (ExceptT.lift (Program.request (I := Work) request) : WorkM _).run talk
      (done (.ok answer))) : talk = [⟨request, answer⟩] := by
  rcases converses_request (converses_lift h) with ⟨-, hdone⟩ | ⟨found, rfl, hdone⟩
  · cases hdone
  · cases hdone
    rfl

theorem eq_of_converses_checkOut {id : WorkUnitId} {found : Option WorkUnitId}
    (h : Converses (Work.checkOut id).run talk (done (.ok found))) :
    talk = [⟨.checkOut id, .ok found⟩] := by
  cases h with | @ask _ _ answer _ _ later
  cases answer with
  | error fault => cases (converses_done.1 later).2
  | ok answer =>
      obtain ⟨rfl, hdone⟩ := converses_done.1 later
      cases hdone
      rfl

theorem converses_store {program : StoreM α}
    (h : Converses (Work.store program).run talk (done (.ok value))) :
    Converses (Work.ofStorage program.run) talk (done (.ok value)) := by
  rcases Converses.bind_cases h with ⟨_, _, -, hrest⟩ | ⟨found, first, second, rfl, hfirst, hsecond⟩
  · cases hrest
  · cases found with
    | error fault => cases (converses_done.1 hsecond).2
    | ok found =>
        obtain ⟨rfl, hdone⟩ := converses_done.1 hsecond
        cases hdone
        rwa [List.append_nil]

theorem converses_call_bind {call : StoreCall} {next : call.Result → WorkM α}
    (h : Converses (Work.store (storeCall call) >>= next).run talk (done (.ok value))) :
    ∃ result later, talk = ⟨.store call, .ok result⟩ :: later ∧
      Converses (next result).run later (done (.ok value)) := by
  obtain ⟨result, first, later, rfl, hcall, hlater⟩ := h.ok_bind
  rcases converses_request (converses_store hcall) with ⟨-, hdone⟩ | ⟨answer, rfl, hdone⟩
  · cases hdone
  · cases hdone
    exact ⟨result, later, rfl, hlater⟩

end WorkM

namespace PollPhase

variable {id : WorkUnitId} {phase after : PollPhase} {talk : Work.Talk}

theorem reporting_of_trail (h : Trail Moves phase talk after) (hphase : phase.Reporting) :
    after.Reporting := by
  induction h with
  | rest phase => exact hphase
  | move first later ih =>
      refine ih ?_
      cases first with
      | write result writes =>
          cases writes with
          | excuse | announce | release | withdraw => trivial
          | claim | take | judge => exact hphase.elim
      | fault fault writes => trivial
      | _ => exact hphase.elim

/-- While the commands run nothing is written but logs. -/
theorem runs_of_running {failed now : Bool}
    (h : Trail Moves (running id failed) talk (running id now)) : Runs id (Work.exchanges talk) := by
  induction talk generalizing failed with
  | nil => exact fun _ hx => absurd hx List.not_mem_nil
  | cons x talk ih =>
      cases h with
      | move first later =>
          cases first with
          | run command answer => exact List.forall_mem_cons.2 ⟨.inl ⟨_, _, rfl⟩, ih later⟩
          | cleanUp command limit answer =>
              exact List.forall_mem_cons.2 ⟨.inl ⟨_, _, rfl⟩, ih later⟩
          | archive label field content answer =>
              exact List.forall_mem_cons.2 ⟨.inr ⟨_, _, _, rfl⟩, ih later⟩
          | write result writes =>
              cases writes with
              | judge => exact (reporting_of_trail later trivial).elim
          | fault fault writes => exact (reporting_of_trail later trivial).elim

end PollPhase

namespace Consumer

variable {consumer : Consumer} {id : WorkUnitId} {talk : Work.Talk} {outcome : PollOutcome}

theorem inFull_of_skip (h : Converses (skip id).run talk (done (.ok outcome))) :
    outcome = .skipped id ∧ InFull (excuse id) (Work.exchanges talk) := by
  obtain ⟨_, _, rfl, hannounce⟩ := WorkM.converses_call_bind h
  obtain ⟨_, _, rfl, hwithdraw⟩ := WorkM.converses_call_bind hannounce
  obtain ⟨_, _, rfl, hend⟩ := WorkM.converses_call_bind hwithdraw
  obtain ⟨rfl, hdone⟩ := converses_done.1 hend
  cases hdone
  exact ⟨rfl, .made _ (.made _ (.made _ .done))⟩

theorem accomplished_of_process (h : Converses (consumer.process id).run talk (done (.ok outcome))) :
    Accomplished outcome (.ok (some id)) (Work.exchanges talk) := by
  obtain ⟨_, _, rfl, htake⟩ := WorkM.converses_call_bind h
  obtain ⟨_, _, rfl, hexecute⟩ := WorkM.converses_call_bind htake
  obtain ⟨status, run, _, rfl, hrun, hjudge⟩ := hexecute.ok_bind
  obtain ⟨_, _, rfl, hannounce⟩ := WorkM.converses_call_bind hjudge
  obtain ⟨_, _, rfl, hrelease⟩ := WorkM.converses_call_bind hannounce
  obtain ⟨_, _, rfl, hend⟩ := WorkM.converses_call_bind hrelease
  obtain ⟨rfl, hdone⟩ := converses_done.1 hend
  cases hdone
  obtain ⟨_, htrail, failed, rfl, -⟩ := follows_execute.converses (WorkM.converses_lift hrun)
  have hworking := Accomplished.working (PollPhase.runs_of_running htrail)
    (.made () (.made () (.made () .done)) : InFull (delivery id status) _)
  rw [Work.exchanges, List.map_cons, List.map_cons, List.map_append]
  exact hworking

theorem unchanged_of_observe {signals : List Signal}
    (h : Converses (Work.ofStorage (SignalBoard.observe signals)) talk (done ())) :
    Unchanged (Work.exchanges talk) := by
  induction signals generalizing talk with
  | nil =>
      obtain ⟨rfl, -⟩ := converses_done.1 h
      exact unchanged_nil
  | cons signal rest ih =>
      cases h with
      | ask later => exact (ih later).cons fun _ h => h

theorem clearing_of_clear {found : Option WorkUnitId}
    (h : Converses readOffer.clear talk (done (.ok found))) :
    found = none ∧ Clearing (Work.exchanges talk) := by
  rcases Converses.bind_cases h with ⟨_, _, -, hrest⟩ | ⟨result, first, second, rfl, hfirst, hsecond⟩
  · cases hrest
  cases result with
  | error fault => cases (converses_done.1 hsecond).2
  | ok cleared =>
      obtain ⟨rfl, hdone⟩ := converses_done.1 hsecond
      cases hdone
      obtain ⟨_, htrail, -⟩ :=
        (follows_clear Signal.all (.inl rfl)).converses (WorkM.converses_store hfirst)
      rw [List.append_nil]
      exact ⟨rfl, PollPhase.clearing_of_trail htrail rfl⟩

theorem cases_of_readOffer {found : Option WorkUnitId}
    (h : Converses readOffer.run talk (done (.ok found))) :
    ∃ answer later, talk = ⟨look .offered, answer⟩ :: later ∧
      (SignalBoard.reading .offered answer = .ok found ∧ later = [] ∨
        found = none ∧ ∃ fault, SignalBoard.reading .offered answer = .error fault ∧
          fault.Garbled ∧ Clearing (Work.exchanges later)) := by
  have hclear {later : Work.Talk} {fault : StoreFault} (hgarbled : fault.Garbled)
      (hlater : Converses readOffer.clear later (done (.ok found))) :
      found = none ∧ ∃ other : StoreFault, (Except.error fault : Except StoreFault
        (Option WorkUnitId)) = .error other ∧ other.Garbled ∧ Clearing (Work.exchanges later) := by
    obtain ⟨hnone, hclears⟩ := clearing_of_clear hlater
    exact ⟨hnone, fault, rfl, hgarbled, hclears⟩
  unfold readOffer at h
  rcases Converses.bind_cases h with ⟨_, _, -, hrest⟩ | ⟨result, first, later, rfl, hfirst, hlater⟩
  · cases hrest
  rw [SignalBoard.run_read] at hfirst
  cases hfirst with | @ask _ _ answer _ _ hread
  obtain ⟨rfl, hdone⟩ := converses_done.1 hread
  refine ⟨answer, later, rfl, ?_⟩
  obtain rfl : result = SignalBoard.reading .offered answer := Program.done.inj hdone
  match hresult : SignalBoard.reading .offered answer with
  | .ok offer =>
      rw [hresult] at hlater
      obtain ⟨rfl, hdone⟩ := converses_done.1 hlater
      cases hdone
      exact .inl ⟨rfl, rfl⟩
  | .error (.notUtf8 key) =>
      rw [hresult] at hlater
      exact .inr (hclear trivial hlater)
  | .error (.invalidPayload key fault) =>
      rw [hresult] at hlater
      exact .inr (hclear trivial hlater)
  | .error (.os fault) | .error (.sql text) | .error (.invalidKey fault)
  | .error (.invalidSpec spec) | .error .poisoned =>
      rw [hresult] at hlater
      cases (converses_done.1 hlater).2

theorem accomplished_of_found {found : WorkUnitId}
    (h : Converses (do
      if ← ExceptT.lift Work.reloadWanted then return .reload
      if found ≠ id then throw (.checkoutMismatch id found)
      consumer.process id : WorkM PollOutcome).run talk (done (.ok outcome))) :
    ∃ wanted later, talk = ⟨.reloadWanted, wanted⟩ :: later ∧
      Accomplished outcome (.ok (some id)) (Work.exchanges later) := by
  obtain ⟨wanted, first, later, rfl, hreload, hlater⟩ := h.ok_bind
  obtain rfl : first = [⟨.reloadWanted, wanted⟩] := WorkM.eq_of_converses_lift_request hreload
  refine ⟨wanted, later, rfl, ?_⟩
  cases wanted with
  | true =>
      obtain ⟨rfl, hdone⟩ := converses_done.1 hlater
      cases hdone
      exact .reloading _
  | false =>
      by_cases hother : found ≠ id
      · simp only [Bool.false_eq_true, if_false, if_pos hother] at hlater
        cases (converses_done.1 hlater).2
      · simp only [Bool.false_eq_true, if_false, if_neg hother] at hlater
        exact accomplished_of_process hlater

theorem unchanged_reloadWanted (wanted : Bool) : Unchanged [⟨.reloadWanted, wanted⟩] :=
  List.forall_mem_singleton.2 fun _ h => h

/-- Before it writes for an offer a poll only checks it out, and asks once more for a reload. -/
theorem accomplished_of_offer
    (h : Converses (do
      match ← Work.checkOut id with
      | none => skip id
      | some found =>
          if ← ExceptT.lift Work.reloadWanted then return .reload
          if found ≠ id then throw (.checkoutMismatch id found)
          consumer.process id : WorkM PollOutcome).run talk (done (.ok outcome))) :
    ∃ before after, Work.exchanges talk = before ++ after ∧ Unchanged before ∧
      lastSeen (.ok (some id)) before = .ok (some id) ∧
      Accomplished outcome (.ok (some id)) after := by
  obtain ⟨found, asked, later, rfl, hcheckOut, hlater⟩ := h.ok_bind
  obtain rfl := WorkM.eq_of_converses_checkOut hcheckOut
  cases found with
  | none =>
      obtain ⟨rfl, hreports⟩ := inFull_of_skip hlater
      exact ⟨[], _, rfl, unchanged_nil, rfl, .skipping hreports⟩
  | some found =>
      obtain ⟨wanted, later, rfl, hdone⟩ := accomplished_of_found hlater
      exact ⟨[⟨.checkOut id, .ok (some found)⟩, ⟨.reloadWanted, wanted⟩], _, rfl,
        (unchanged_reloadWanted wanted).cons fun _ h => h, rfl, hdone⟩

/-- A poll that comes to an outcome has done all that belongs to it. -/
theorem wholeCourse_of_converses (h : Converses consumer.poll.run talk (done (.ok outcome))) :
    WholeCourse outcome (Work.exchanges talk) := by
  obtain ⟨wanted, first, afterReload, rfl, hreload, hpoll⟩ := h.ok_bind
  obtain rfl : first = [⟨.reloadWanted, wanted⟩] := WorkM.eq_of_converses_lift_request hreload
  cases wanted with
  | true =>
      obtain ⟨rfl, hdone⟩ := converses_done.1 hpoll
      cases hdone
      exact ⟨_, [], (List.append_nil _).symm, unchanged_reloadWanted true, .reloading _⟩
  | false =>
      obtain ⟨_, looks, afterLooks, rfl, hlooks, hread⟩ := hpoll.ok_bind
      obtain ⟨found, reading, later, rfl, hfound, hlater⟩ := hread.ok_bind
      obtain ⟨answer, cleared, rfl, hcases⟩ := cases_of_readOffer hfound
      -- What is done up to the look at OFFERED, and what that read as.
      let start := Work.exchanges [⟨.reloadWanted, false⟩] ++ (Work.exchanges looks ++
        [⟨look .offered, answer⟩])
      have hstart : Unchanged start :=
        (unchanged_reloadWanted false).append
          ((unchanged_of_observe (WorkM.converses_lift hlooks)).append
            (List.forall_mem_singleton.2 fun _ h => h))
      have hseen : lastSeen (.ok none) start = SignalBoard.reading .offered answer := by
        rw [lastSeen_append, lastSeen_append]
        exact if_pos rfl
      have hsplit : Work.exchanges ([⟨.reloadWanted, false⟩] ++ (looks ++
          (⟨look .offered, answer⟩ :: cleared ++ later))) =
            start ++ (Work.exchanges cleared ++ Work.exchanges later) := by
        simp [Work.exchanges, start]
      rw [hsplit]
      rcases hcases with ⟨hreading, rfl⟩ | ⟨rfl, fault, hreading, hgarbled, hclears⟩
      · rw [hreading] at hseen
        cases found with
        | none =>
            obtain ⟨rfl, hdone⟩ := converses_done.1 hlater
            cases hdone
            refine ⟨start, [], rfl, hstart, ?_⟩
            rw [hseen]
            exact .idling
        | some id =>
            obtain ⟨before, after, hsaid, hbefore, hkept, hdone⟩ := accomplished_of_offer hlater
            refine ⟨start ++ before, after, ?_, hstart.append hbefore, ?_⟩
            · exact (congrArg (start ++ ·) hsaid).trans (List.append_assoc start before after).symm
            · rw [lastSeen_append, hseen, hkept]
              exact hdone
      · obtain ⟨rfl, hdone⟩ := converses_done.1 hlater
        cases hdone
        rw [hreading] at hseen
        refine ⟨start, _, congrArg (start ++ ·) (List.append_nil _), hstart, ?_⟩
        rw [hseen]
        exact .clearing hgarbled hclears

end Consumer

/-- Whatever the store, git, the reload check and the commands answer, and wherever the talk
breaks off: a producer takes signals down in its sweep, raises OFFERED for its unit right after
it has found OFFERED down, and then writes nothing but that it takes FINISHED down, once, when
that has shown its unit and the status could be read.  A poll writes nothing before it has read
OFFERED.  It takes signals down when the offer is garbled; else it writes for the unit that it
has read, in the order of the claim and the delivery or of the excuse, and nothing after the
first of these writes that fails.  When it comes to an outcome none has failed, and it has made all
of them. -/
theorem signals_owned :
    (∀ (producer : Producer) (polls : Nat) (id : WorkUnitId) (talk : Work.Talk)
      (rest : Program Work (Except RoundFault (Option Status))),
      Converses (producer.offerAndWait polls id).run talk rest →
        OfferCourse id (Work.exchanges talk)) ∧
      (∀ (consumer : Consumer) (talk : Work.Talk)
        (rest : Program Work (Except RoundFault PollOutcome)),
        Converses consumer.poll.run talk rest → PollCourse (.ok none) (Work.exchanges talk)) ∧
      ∀ (consumer : Consumer) (talk : Work.Talk) (outcome : PollOutcome),
        Converses consumer.poll.run talk (done (.ok outcome)) →
          WholeCourse outcome (Work.exchanges talk) :=
  ⟨fun _ _ _ _ _ h => Producer.course_of_converses h,
    fun _ _ _ h => Consumer.course_of_converses h,
    fun _ _ _ h => Consumer.wholeCourse_of_converses h⟩

def Work.storeCalls (talk : Work.Talk) : List StoreCall :=
  (Work.exchanges talk).filterMap Exchange.storeCall?

/-- A producer that finds an old offer, and a poll that comes to the report of a command that has
failed. -/
theorem signals_owned_on_failure :
    let order := Interleaving.retries 0
    ∃ offer poll : Work.Talk, ∃ left,
      Converses (order.producer.offerAndWait 2 order.id).run offer left ∧
        .put (BlobKey.signal .offered) order.id.payload ∈ Work.storeCalls offer ∧
        OfferCourse order.id (Work.exchanges offer) ∧
        Converses Interleaving.builder.poll.run poll (done (.ok (.completed order.id .failed))) ∧
        .delete (BlobKey.signal .claimed) ∈ Work.storeCalls poll ∧
        PollCourse (.ok none) (Work.exchanges poll) ∧
        WholeCourse (.completed order.id .failed) (Work.exchanges poll) := by
  intro order
  have hoffer := Program.converses_speak
    (Interleaving.serve MemoryStore.answer (Interleaving.steady some none)) 40
    (order.producer.offerAndWait 2 order.id).run oneOffer
  let served := Interleaving.serve MemoryStore.answer
    (Interleaving.steady some (some Interleaving.brokenBuild))
  have hend : (Interleaving.builder.poll.run.perform served oneOffer).1 =
      .ok (.completed order.id .failed) := by
    rfl
  have hpoll : Converses Interleaving.builder.poll.run
      (Interleaving.builder.poll.run.talk served oneOffer)
      (done (.ok (.completed order.id .failed))) := by
    rw [← hend]
    exact Program.converses_talk _ _
  refine ⟨_, _, _, hoffer, ?_, signals_owned.1 _ _ _ _ _ hoffer, hpoll, ?_,
    signals_owned.2.1 _ _ _ hpoll, signals_owned.2.2 _ _ _ hpoll⟩
  · decide +kernel
  · decide +kernel

end Handoff
