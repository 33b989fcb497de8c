import Handoff.Proofs.Round.Poll
/-!
# What a poll leaves on record

The exchanges of a poll, the latest first, and what its phase says about them: FINISHED
is raised for no unit but after the status of that unit was written, and that status is
the verdict of the commands that the poll ran.
-/

namespace Handoff

open WorkRequest

/-- Nothing is announced on record, and `failed` tells whether a command did not pass. -/
def Calm (record : List Exchange) (failed : Bool) : Prop :=
  (∀ x ∈ record, ∀ id, x.request ≠ raise .finished id) ∧
    record.any Exchange.isFailedRun = failed

/-- Every announcement on record is for a unit whose status, the verdict of the record,
had been written before. -/
def Honest (record : List Exchange) : Prop :=
  ∀ x ∈ record, ∀ id, x.request = raise .finished id →
    [x, ⟨report id (verdict record), .ok ()⟩].Sublist record

theorem Calm.honest {record : List Exchange} {failed : Bool} (h : Calm record failed) :
    Honest record :=
  fun x hx id hraise => absurd hraise (h.1 x hx id)

theorem Calm.verdict_eq {record : List Exchange} {failed : Bool} (h : Calm record failed) :
    verdict record = Status.ofFailed failed :=
  congrArg Status.ofFailed h.2

theorem Calm.nil : Calm [] false :=
  ⟨fun _ hx => absurd hx List.not_mem_nil, rfl⟩

theorem Calm.cons {record : List Exchange} {failed : Bool} {x : Exchange}
    (h : Calm record failed) (hx : ∀ id, x.request ≠ raise .finished id) :
    Calm (x :: record) (failed || x.isFailedRun) := by
  refine ⟨fun y hy id => ?_, ?_⟩
  · rcases List.mem_cons.1 hy with rfl | hy
    · exact hx id
    · exact h.1 y hy id
  · rw [List.any_cons, h.2, Bool.or_comm]

theorem Calm.cons_of_not {record : List Exchange} {failed : Bool} {x : Exchange}
    (h : Calm record failed) (hrun : x.isFailedRun = false)
    (hx : ∀ id, x.request ≠ raise .finished id) : Calm (x :: record) failed := by
  simpa only [hrun, Bool.or_false] using h.cons hx

theorem verdict_cons_of_not {record : List Exchange} {x : Exchange}
    (h : x.isFailedRun = false) : verdict (x :: record) = verdict record := by
  simp [verdict, h]

theorem Honest.cons {record : List Exchange} {x : Exchange} (h : Honest record)
    (hrun : x.isFailedRun = false) (hx : ∀ id, x.request ≠ raise .finished id) :
    Honest (x :: record) := by
  intro y hy id hraise
  rw [verdict_cons_of_not hrun]
  rcases List.mem_cons.1 hy with rfl | hy
  · exact absurd hraise (hx id)
  · exact (h y hy id hraise).cons x

theorem Calm.announce {record : List Exchange} {failed : Bool} {id : WorkUnitId}
    (h : Calm record failed) (hreport : ⟨report id (verdict record), .ok ()⟩ ∈ record)
    (answer : Except StoreFault Unit) :
    Honest (⟨raise .finished id, answer⟩ :: record) := by
  intro x hx other hraise
  rcases List.mem_cons.1 hx with rfl | hx
  · obtain ⟨-, rfl⟩ := raise_injective hraise
    rw [verdict_cons_of_not rfl]
    exact (List.singleton_sublist.2 hreport).cons_cons _
  · exact absurd hraise (h.1 x hx other)

namespace PollPhase

/-- What the phase of a poll says about its record. -/
def Account (record : List Exchange) : PollPhase → Prop
  | unreachable id => Calm record false ∧ ⟨.checkOut id, .ok none⟩ ∈ record
  | running _ failed => Calm record failed
  | judged ran id status =>
      Calm record status.isFailed ∧ ⟨report id status, .ok ()⟩ ∈ record ∧
        (ran = false → ⟨.checkOut id, .ok none⟩ ∈ record)
  | announced ran id status =>
      Honest record ∧ verdict record = status ∧ ⟨raise .finished id, .ok ()⟩ ∈ record ∧
        (ran = false → ⟨.checkOut id, .ok none⟩ ∈ record)
  | ended _ => Honest record
  | _ => Calm record false

theorem ofFailed_isFailed (status : Status) : Status.ofFailed status.isFailed = status := by
  cases status <;> rfl

theorem isFailed_ofFailed (failed : Bool) : (Status.ofFailed failed).isFailed = failed := by
  cases failed <;> rfl

theorem Account.honest {record : List Exchange} {phase : PollPhase}
    (h : phase.Account record) : Honest record := by
  cases phase with
  | unreachable id => exact h.1.honest
  | judged ran id status => exact h.1.honest
  | announced ran id status => exact h.1
  | ended id => exact h
  | _ => exact Calm.honest h

theorem Account.write {record : List Exchange} {phase after : PollPhase} {call : StoreCall}
    {id : WorkUnitId} {result : call.Result} (h : phase.Account record)
    (hwrites : Writes id phase call after) :
    after.Account (⟨.store call, .ok result⟩ :: record) := by
  cases hwrites with
  | excuse =>
      obtain ⟨hcalm, hmissing⟩ := h
      exact ⟨hcalm.cons_of_not rfl fun other => report_ne_raise id other _ _,
        List.mem_cons_self, fun _ => List.mem_cons_of_mem _ hmissing⟩
  | claim =>
      exact Calm.cons_of_not h rfl fun other hraise => nomatch (raise_injective hraise).1
  | take => exact Calm.cons_of_not h rfl nofun
  | judge =>
      refine ⟨?_, List.mem_cons_self, nofun⟩
      rw [isFailed_ofFailed]
      exact Calm.cons_of_not h rfl fun other => report_ne_raise id other _ _
  | @announce ran status =>
      obtain ⟨hcalm, hreport, hmissing⟩ := h
      have hverdict : verdict record = status := hcalm.verdict_eq.trans (ofFailed_isFailed _)
      refine ⟨hcalm.announce (hverdict ▸ hreport) (.ok result), ?_, List.mem_cons_self,
        fun hran => List.mem_cons_of_mem _ (hmissing hran)⟩
      rw [verdict_cons_of_not rfl, hverdict]
  | release => exact Honest.cons h.1 rfl nofun
  | withdraw => exact Honest.cons h.1 rfl nofun

theorem Account.fault {record : List Exchange} {phase after : PollPhase} {call : StoreCall}
    {id : WorkUnitId} {fault : StoreFault} (h : phase.Account record)
    (hwrites : Writes id phase call after) :
    Honest (⟨.store call, .error fault⟩ :: record) := by
  cases hwrites with
  | excuse => exact h.honest.cons rfl fun other => report_ne_raise id other _ _
  | claim => exact h.honest.cons rfl fun other hraise => nomatch (raise_injective hraise).1
  | take => exact h.honest.cons rfl nofun
  | judge => exact h.honest.cons rfl fun other => report_ne_raise id other _ _
  | @announce ran status =>
      obtain ⟨hcalm, hreport, -⟩ := h
      have hverdict : verdict record = status := hcalm.verdict_eq.trans (ofFailed_isFailed _)
      exact hcalm.announce (hverdict ▸ hreport) (.error fault)
  | release => exact h.honest.cons rfl nofun
  | withdraw => exact h.honest.cons rfl nofun

/-- Every move keeps phase and record in step. -/
theorem Account.step {record : List Exchange} {phase after : PollPhase}
    {request : WorkRequest} {answer : request.Answer} (h : phase.Account record)
    (hmove : Moves phase request answer after) :
    after.Account (⟨request, answer⟩ :: record) := by
  cases hmove with
  | reloadCheck wanted => exact Calm.cons_of_not h rfl nofun
  | look answer => exact Calm.cons_of_not h rfl nofun
  | observe answer other => exact Calm.cons_of_not h rfl nofun
  | giveUp answer garbled => exact Calm.cons_of_not h rfl nofun
  | inspect answer => exact Calm.cons_of_not h rfl nofun
  | recover answer => exact Calm.cons_of_not h rfl nofun
  | probe answer => exact Calm.cons_of_not h rfl nofun
  | lower answer => exact Calm.cons_of_not h rfl nofun
  | stuck fault => exact Honest.cons (Calm.honest h) rfl nofun
  | missing => exact ⟨Calm.cons_of_not h rfl nofun, List.mem_cons_self⟩
  | arrive found => exact Calm.cons_of_not h rfl nofun
  | reload => exact Honest.cons (Calm.honest h) rfl nofun
  | astray other => exact Honest.cons (Calm.honest h) rfl nofun
  | agree => exact Calm.cons_of_not h rfl nofun
  | run command answer => exact Calm.cons h nofun
  | cleanUp command limit answer => exact Calm.cons_of_not h rfl nofun
  | archive label field content answer =>
      exact Calm.cons_of_not h rfl fun other hraise =>
        BlobKey.log_ne_signal _ _ _ _ (StoreCall.put.inj (WorkRequest.store.inj hraise)).1
  | write result writes => exact h.write writes
  | fault fault writes => exact h.fault writes

/-- After the announcement a poll only takes a signal down. -/
theorem Account.calm_or_lower {record : List Exchange} {phase after : PollPhase}
    {request : WorkRequest} {answer : request.Answer} (h : phase.Account record)
    (hmove : Moves phase request answer after) :
    (∃ failed, Calm record failed) ∨ ∃ signal, request = lower signal := by
  cases phase with
  | unreachable id => exact .inl ⟨_, h.1⟩
  | judged ran id status => exact .inl ⟨_, h.1⟩
  | announced ran id status =>
      right
      cases hmove with
      | write result writes => cases writes <;> exact ⟨_, rfl⟩
      | fault fault writes => cases writes <;> exact ⟨_, rfl⟩
  | ended id =>
      cases hmove with
      | write result writes => cases writes
      | fault fault writes => cases writes
  | _ => exact .inl ⟨_, h⟩

end PollPhase

/-! ## Units that cannot be checked out -/

def Missed (record : List Exchange) : Prop :=
  ∃ id, ⟨.checkOut id, .ok none⟩ ∈ record

theorem not_missed_nil : ¬Missed [] := by
  rintro ⟨id, hmem⟩
  exact absurd hmem List.not_mem_nil

theorem Missed.of_cons {record : List Exchange} {x : Exchange} (h : Missed (x :: record))
    (hx : ∀ id, x ≠ ⟨.checkOut id, .ok none⟩) : Missed record := by
  obtain ⟨id, hmem⟩ := h
  rcases List.mem_cons.1 hmem with heq | hmem
  · exact absurd heq.symm (hx id)
  · exact ⟨id, hmem⟩

namespace PollPhase

def mayMiss : PollPhase → Bool
  | unreachable _ => true
  | judged ran _ _ => !ran
  | announced ran _ _ => !ran
  | ended _ => true
  | _ => false

/-- A poll that could not check its unit out judges that it passed. -/
def Lenient (record : List Exchange) (phase : PollPhase) : Prop :=
  Missed record → phase.mayMiss = true ∧ verdict record = .passed

theorem Lenient.cons {record : List Exchange} {phase after : PollPhase} {x : Exchange}
    (h : phase.Lenient record) (hx : ∀ id, x ≠ ⟨.checkOut id, .ok none⟩)
    (hrun : x.isFailedRun = false) (hmay : phase.mayMiss = true → after.mayMiss = true) :
    after.Lenient (x :: record) := by
  intro hmissed
  obtain ⟨hphase, hverdict⟩ := h (hmissed.of_cons hx)
  rw [verdict_cons_of_not hrun]
  exact ⟨hmay hphase, hverdict⟩

theorem Lenient.cons_of_not {record : List Exchange} {phase after : PollPhase} {x : Exchange}
    (h : phase.Lenient record) (hx : ∀ id, x ≠ ⟨.checkOut id, .ok none⟩)
    (hphase : phase.mayMiss = false) : after.Lenient (x :: record) := by
  intro hmissed
  rw [(h (hmissed.of_cons hx)).1] at hphase
  cases hphase

theorem Writes.mayMiss {id : WorkUnitId} {phase after : PollPhase} {call : StoreCall}
    (h : Writes id phase call after) (hphase : phase.mayMiss = true) :
    after.mayMiss = true := by
  cases h with
  | excuse => rfl
  | announce => exact hphase
  | withdraw => rfl
  | claim => cases hphase
  | take => cases hphase
  | judge => cases hphase
  | release => cases hphase

theorem Lenient.step {record : List Exchange} {phase after : PollPhase}
    {request : WorkRequest} {answer : request.Answer} (h : phase.Lenient record)
    (haccount : phase.Account record) (hmove : Moves phase request answer after) :
    after.Lenient (⟨request, answer⟩ :: record) := by
  cases hmove with
  | reloadCheck wanted => exact h.cons_of_not nofun rfl
  | look answer => exact h.cons_of_not nofun rfl
  | observe answer other => exact h.cons_of_not nofun rfl
  | giveUp answer garbled => exact h.cons_of_not nofun rfl
  | inspect answer => exact h.cons_of_not nofun rfl
  | recover answer => exact h.cons_of_not nofun rfl
  | probe answer => exact h.cons_of_not nofun rfl
  | lower answer => exact h.cons_of_not nofun rfl
  | stuck fault => exact h.cons_of_not nofun rfl
  | @missing id =>
      have hcalm : Calm (⟨.checkOut id, .ok none⟩ :: record) false :=
        Calm.cons_of_not haccount rfl nofun
      exact fun _ => ⟨rfl, hcalm.verdict_eq⟩
  | arrive found =>
      refine h.cons_of_not (fun other heq => ?_) rfl
      obtain ⟨hrequest, hanswer⟩ := Exchange.mk.inj heq
      cases hrequest
      cases hanswer
  | reload => exact h.cons_of_not nofun rfl
  | astray other => exact h.cons_of_not nofun rfl
  | agree => exact h.cons_of_not nofun rfl
  | run command answer => exact h.cons_of_not nofun rfl
  | cleanUp command limit answer => exact h.cons_of_not nofun rfl
  | archive label field content answer => exact h.cons_of_not nofun rfl
  | write result writes => exact h.cons nofun rfl writes.mayMiss
  | fault fault writes => exact h.cons nofun rfl fun _ => rfl

end PollPhase

end Handoff
