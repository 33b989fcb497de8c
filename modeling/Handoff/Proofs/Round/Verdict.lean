import Handoff.Proofs.Git.Checkout
import Handoff.Proofs.Round.Grounds
/-!
# Verdicts are never invented

A consumer with a git checkout, whatever git and everything else answer.  A unit is
reported as passing only when git could not check it out and nothing else went wrong, or
when git was at that very revision and all commands passed; it is reported as failing only
at that revision and with a command that failed; in every other poll nothing is written.
-/

namespace Handoff

open WorkRequest Program

/-! ## What a stage says about the statuses -/

namespace Tells

variable {commands : List Command} {record : List Exchange} {stage : PollStage}
  {id : WorkUnitId}

theorem checkOuts_cases (h : Tells commands record stage) :
    checkOuts record = [] ∨ ∃ asked, checkOuts record = [asked] := by
  cases stage with
  | looking => exact .inl h.1
  | clearing => exact .inl h.1
  | asked id answer => exact .inr ⟨_, h.1⟩
  | skipping id => exact .inr ⟨_, h.1⟩
  | working id left => exact .inr ⟨_, h.1⟩

/-- A status is written for a unit that cannot be checked out, and passes, or for one that
was checked out and whose commands have all been run, and is their verdict. -/
theorem of_report (h : Tells commands record stage) {x : Exchange} (hx : x ∈ record)
    {status : Status} (hreport : x.request = report id status) :
    unitRead record = some id ∧
      (checkOuts record = [(id, .ok none)] ∧ Unrun record ∧ status = .passed ∨
        checkOuts record = [(id, .ok (some id))] ∧
          (planRuns record).map CommandRun.command = commands ∧ status = verdict record) := by
  cases stage with
  | looking => exact absurd hreport (h.2.2.unreported x hx id status)
  | clearing => exact absurd hreport (h.2.2.1 x hx id status)
  | asked unit answer => exact absurd hreport (h.2.2.1.unreported x hx id status)
  | skipping unit =>
      obtain ⟨rfl, rfl⟩ := h.2.2.1 x hx id status hreport
      exact ⟨h.2.2.2, .inl ⟨h.1, h.2.1, rfl⟩⟩
  | working unit left =>
      obtain ⟨hcheckOuts, hruns, hreported, hread⟩ := h
      rcases hreported with hnone | ⟨rfl, hreports⟩
      · exact absurd hreport (hnone x hx id status)
      · obtain ⟨rfl, rfl⟩ := hreports x hx id status hreport
        rw [List.append_nil] at hruns
        exact ⟨hread, .inr ⟨hcheckOuts, hruns, rfl⟩⟩

/-- A poll that has read an offer, and was neither told that the unit cannot be checked out
nor that it is checked out, writes nothing. -/
theorem unchanged (h : Tells commands record stage) (hread : unitRead record = some id)
    (hmissing : (id, .ok none) ∉ checkOuts record)
    (hfound : (id, .ok (some id)) ∉ checkOuts record) : Unchanged record := by
  cases stage with
  | looking => exact h.2.2
  | clearing =>
      rw [h.2.2.2] at hread
      cases hread
  | asked unit answer => exact h.2.2.1
  | skipping unit =>
      rw [h.2.2.2] at hread
      cases hread
      rw [h.1] at hmissing
      exact absurd List.mem_cons_self hmissing
  | working unit left =>
      rw [h.2.2.2] at hread
      cases hread
      rw [h.1] at hfound
      exact absurd List.mem_cons_self hfound

end Tells

def Work.record (talk : Work.Talk) : List Exchange :=
  (talk.map fun x => ⟨x.1, x.2⟩).reverse

theorem tells_of_trail {commands : List Command} {past after : List Exchange} {talk : Work.Talk}
    (h : Trail (Telling commands) past talk after) (hpast : ∃ stage, Tells commands past stage) :
    after = Work.record talk ++ past ∧ ∃ stage, Tells commands after stage := by
  induction h with
  | rest past => exact ⟨rfl, hpast⟩
  | move first later ih =>
      obtain ⟨rfl, hstage⟩ := first
      obtain ⟨hafter, hend⟩ := ih hstage
      refine ⟨?_, hend⟩
      rw [hafter, Work.record, Work.record, List.map_cons, List.reverse_cons, List.append_assoc]
      rfl

theorem Consumer.tells_of_converses {consumer : Consumer} {talk : Work.Talk}
    {rest : Program Work (Except RoundFault PollOutcome)}
    (h : Converses consumer.poll.run talk rest) :
    ∃ stage, Tells consumer.plan.work (Work.record talk) stage := by
  obtain ⟨after, htrail, -⟩ := consumer.tells_poll.converses h
  obtain ⟨rfl, hstage⟩ := tells_of_trail htrail ⟨_, Tells.start⟩
  simpa using hstage

/-! ## A consumer with a git checkout -/

/-- What a consumer with a git checkout asks of its surroundings: runs of git, and all that
an agent asks but for checkouts. -/
def Station : Interface :=
  Git.sum Work

namespace Station

def gitTalk (talk : Station.Talk) : Git.Talk :=
  talk.filterMap fun
    | ⟨.inl arguments, answer⟩ => some ⟨arguments, answer⟩
    | ⟨.inr _, _⟩ => none

def record (talk : Station.Talk) : List Exchange :=
  (talk.filterMap fun
    | ⟨.inl _, _⟩ => none
    | ⟨.inr request, answer⟩ => some ⟨request, answer⟩).reverse

theorem gitTalk_append (first second : Station.Talk) :
    gitTalk (first ++ second) = gitTalk first ++ gitTalk second :=
  List.filterMap_append

theorem record_append (first second : Station.Talk) :
    record (first ++ second) = record second ++ record first := by
  rw [record, List.filterMap_append, List.reverse_append, record, record]

def ofGit (x : Sigma Git.Answer) : Sigma Station.Answer :=
  ⟨.inl x.1, x.2⟩

theorem gitTalk_map_ofGit (talk : Git.Talk) : gitTalk (talk.map ofGit) = talk := by
  rw [gitTalk, List.filterMap_map]
  exact List.filterMap_some

theorem record_map_ofGit (talk : Git.Talk) : record (talk.map ofGit) = [] := by
  rw [record, List.filterMap_map, List.reverse_eq_nil_iff, List.filterMap_eq_nil_iff]
  intro _ _
  rfl

end Station

namespace GitClient

def ofGit {α : Type} (program : Program Git α) : Program Station α :=
  program.through fun arguments => Program.request (I := Station) (.inl arguments)

/-- A checkout is carried out by git, everything else is asked as it is. -/
def carryOut (client : GitClient) : (request : WorkRequest) → Program Station request.Answer
  | .checkOut id => ofGit (client.syncTo id).run
  | request => Program.request (I := Station) (.inr request)

def atStation {α : Type} (client : GitClient) (program : Program Work α) : Program Station α :=
  program.through (I := Work) client.carryOut

variable {client : GitClient}

theorem carryOut_of_ne {request : WorkRequest} (h : ∀ id, request ≠ .checkOut id) :
    client.carryOut request = Program.request (I := Station) (.inr request) := by
  cases request with
  | checkOut id => exact absurd rfl (h id)
  | _ => rfl

theorem converses_ofGit {α : Type} {program : Program Git α} {talk : Station.Talk}
    {rest : Program Station α} (h : Converses (ofGit program) talk rest) :
    ∃ own : Git.Talk, talk = own.map Station.ofGit ∧
      ∀ value, rest = done value → Converses program own (done value) := by
  obtain ⟨own, here, carried, begun, rfl, hown, hcarries, hbegun⟩ := h.through_cases
  have hcarried : carried = own.map Station.ofGit := by
    clear h hown hbegun
    induction hcarries with
    | nil => rfl
    | cons first later ih =>
        rcases converses_request first with ⟨-, hdone⟩ | ⟨answer, rfl, hdone⟩
        · cases hdone
        · cases hdone
          rw [ih]
          rfl
  refine ⟨own, ?_, ?_⟩
  · rcases hbegun with ⟨rfl, -⟩ | ⟨request, next, other, wait, later, -, hstart, -⟩
    · rw [List.append_nil, hcarried]
    · rcases converses_request hstart with ⟨rfl, -⟩ | ⟨answer, -, hdone⟩
      · rw [List.append_nil, hcarried]
      · cases hdone
  · rintro value rfl
    rcases hbegun with ⟨-, hhere⟩ | ⟨request, next, other, wait, later, -, -, hask⟩
    · cases here with
      | done found =>
          cases hhere
          exact hown
      | ask request next => cases hhere
    · cases hask

theorem converses_carryOut {request : WorkRequest} {answer : request.Answer}
    {part : Station.Talk} (h : Converses (client.carryOut request) part (done answer)) :
    (∀ id, request ≠ .checkOut id) ∧ part = [⟨.inr request, answer⟩] ∨
      ∃ id found own, (⟨request, answer⟩ : Exchange) = ⟨.checkOut id, found⟩ ∧
        part = own.map Station.ofGit ∧ Converses (client.syncTo id).run own (done found) := by
  by_cases hrequest : ∀ id, request ≠ .checkOut id
  · rw [carryOut_of_ne hrequest] at h
    rcases converses_request h with ⟨-, hdone⟩ | ⟨found, rfl, hdone⟩
    · cases hdone
    · cases hdone
      exact .inl ⟨hrequest, rfl⟩
  · simp only [not_forall, not_not] at hrequest
    obtain ⟨id, rfl⟩ := hrequest
    obtain ⟨own, rfl, hdone⟩ := converses_ofGit h
    exact .inr ⟨id, answer, own, rfl, rfl, hdone answer rfl⟩

end GitClient

/-! ### A talk at the station and the talk of the agent -/

def uncheckedOut (record : List Exchange) : List Exchange :=
  record.filter fun x => x.checkOut?.isNone

theorem mem_of_mem_uncheckedOut {record : List Exchange} {x : Exchange}
    (h : x ∈ uncheckedOut record) : x ∈ record :=
  (List.mem_filter.1 h).1

theorem planRuns_uncheckedOut (record : List Exchange) :
    planRuns (uncheckedOut record) = planRuns record := by
  rw [planRuns, uncheckedOut, List.filterMap_filter, planRuns]
  congr 2
  funext x
  obtain ⟨request, answer⟩ := x
  cases request <;> rfl

theorem unitRead_uncheckedOut (record : List Exchange) :
    unitRead (uncheckedOut record) = unitRead record := by
  induction record with
  | nil => rfl
  | cons x past ih =>
      cases hcheckOut : x.checkOut? with
      | some asked =>
          have hlook : x.request ≠ look .offered := by
            rintro heq
            obtain ⟨request, answer⟩ := x
            cases heq
            cases hcheckOut
          rw [uncheckedOut, List.filter_cons_of_neg (by simp [hcheckOut]), ← uncheckedOut, ih,
            unitRead_cons_of_ne_look hlook]
      | none =>
          rw [uncheckedOut, List.filter_cons_of_pos (by simp [hcheckOut]), ← uncheckedOut]
          by_cases hlook : x.request = look .offered
          · obtain ⟨request, answer⟩ := x
            cases hlook
            rw [unitRead_cons_look, unitRead_cons_look]
          · rw [unitRead_cons_of_ne_look hlook, unitRead_cons_of_ne_look hlook, ih]

namespace GitClient

variable {client : GitClient}

theorem record_of_carries {own : Work.Talk} {carried : Station.Talk}
    (h : Carries (I := Work) client.carryOut own carried) :
    Station.record carried = uncheckedOut (Work.record own) := by
  induction h with
  | nil => rfl
  | @cons request answer own part more first later ih =>
      have hcons : Work.record (⟨request, answer⟩ :: own) =
          Work.record own ++ [⟨request, answer⟩] := by
        simp [Work.record]
      rw [Station.record_append, hcons, uncheckedOut, List.filter_append, ← uncheckedOut, ih]
      congr 1
      rcases converses_carryOut first with ⟨hrequest, rfl⟩ | ⟨id, found, talk, heq, rfl, -⟩
      · cases request with
        | checkOut id => exact absurd rfl (hrequest id)
        | _ => rfl
      · rw [Station.record_map_ofGit, heq]
        rfl

/-- The runs of git in a talk of an agent that asks for one checkout are those of this
checkout, and there are none when it asks for none. -/
theorem gitTalk_of_carries {own : Work.Talk} {carried : Station.Talk}
    (h : Carries (I := Work) client.carryOut own carried) :
    (checkOuts (Work.record own) = [] → Station.gitTalk carried = []) ∧
      ∀ id answer, checkOuts (Work.record own) = [(id, answer)] →
        Converses (client.syncTo id).run (Station.gitTalk carried) (done answer) := by
  induction h with
  | nil => exact ⟨fun _ => rfl, nofun⟩
  | @cons request answer own part more first later ih =>
      have hcons : checkOuts (Work.record (⟨request, answer⟩ :: own)) =
          checkOuts (Work.record own) ++ checkOuts [⟨request, answer⟩] := by
        simp [Work.record, checkOuts]
      rw [Station.gitTalk_append, hcons]
      rcases converses_carryOut first with ⟨hrequest, rfl⟩ | ⟨id, found, talk, heq, rfl, hsync⟩
      · have hnone : checkOuts [(⟨request, answer⟩ : Exchange)] = [] := by
          cases request with
          | checkOut id => exact absurd rfl (hrequest id)
          | _ => rfl
        rw [hnone, List.append_nil]
        exact ih
      · have hone : checkOuts [(⟨request, answer⟩ : Exchange)] = [(id, found)] := by
          rw [heq]
          rfl
        rw [hone, Station.gitTalk_map_ofGit]
        refine ⟨fun hempty => absurd hempty (by simp), fun other given hlist => ?_⟩
        obtain ⟨hrest, hhead⟩ := List.append_eq_singleton_iff.1 hlist |>.resolve_right
          (fun h => by cases h.2)
        obtain ⟨rfl, rfl⟩ := Prod.mk.inj (List.head_eq_of_cons_eq hhead)
        rw [ih.1 hrest, List.append_nil]
        exact hsync

/-- A talk of a poll at the station, and the exchanges of the poll behind it. -/
theorem tells_of_station {consumer : Consumer} {talk : Station.Talk}
    {rest : Program Station (Except RoundFault PollOutcome)}
    (h : Converses (client.atStation consumer.poll.run) talk rest) :
    ∃ record stage, Tells consumer.plan.work record stage ∧
      Station.record talk = uncheckedOut record ∧
      ∀ id answer, checkOuts record = [(id, answer)] →
        Converses (client.syncTo id).run (Station.gitTalk talk) (done answer) := by
  obtain ⟨own, here, carried, begun, rfl, hown, hcarries, hbegun⟩ := h.through_cases
  obtain ⟨stage, htells⟩ := Consumer.tells_of_converses hown
  have hwhole (hnil : begun = []) : ∃ record stage, Tells consumer.plan.work record stage ∧
      Station.record (carried ++ begun) = uncheckedOut record ∧
      ∀ id answer, checkOuts record = [(id, answer)] →
        Converses (client.syncTo id).run (Station.gitTalk (carried ++ begun)) (done answer) := by
    rw [hnil, List.append_nil]
    exact ⟨_, stage, htells, record_of_carries hcarries, (gitTalk_of_carries hcarries).2⟩
  rcases hbegun with ⟨hnil, -⟩ | ⟨request, next, other, wait, later, rfl, hstart, -⟩
  · exact hwhole hnil
  by_cases hrequest : ∀ id, request ≠ .checkOut id
  · rw [carryOut_of_ne hrequest] at hstart
    rcases converses_request hstart with ⟨hnil, -⟩ | ⟨answer, -, hdone⟩
    · exact hwhole hnil
    · cases hdone
  -- A checkout that git is still at: the poll has asked for no other one before.
  · simp only [not_forall, not_not] at hrequest
    obtain ⟨id, rfl⟩ := hrequest
    obtain ⟨runs, rfl, -⟩ := converses_ofGit hstart
    obtain ⟨last, hlast⟩ := Consumer.tells_of_converses
      (hown.snoc (.error (.dirty "") : Except VcsFault (Option WorkUnitId)))
    have hnone : checkOuts (Work.record own) = [] := by
      have hcons : checkOuts (Work.record (own ++
          [⟨.checkOut id, (.error (.dirty "") : Except VcsFault (Option WorkUnitId))⟩])) =
          (id, .error (.dirty "")) :: checkOuts (Work.record own) := by
        simp [Work.record, checkOuts, Exchange.checkOut?]
      rcases hlast.checkOuts_cases with hempty | ⟨asked, hone⟩
      · rw [hcons] at hempty
        cases hempty
      · rw [hcons] at hone
        exact (List.cons.inj hone).2
    refine ⟨Work.record own, stage, htells, ?_, fun unit answer hone => ?_⟩
    · rw [Station.record_append, Station.record_map_ofGit, List.nil_append,
        record_of_carries hcarries]
    · rw [hnone] at hone
      cases hone

end GitClient

/-! ## The verdict of a poll -/

/-- The statuses that a poll writes are borne out by the runs of git and of the commands in
its talk. -/
structure Justified (client : GitClient) (plan : Plan) (talk : Station.Talk) : Prop where
  /-- A unit passes when only its own checkout did not succeed, and then nothing was run; or
  when git was at it and every command of the plan was run and none of them failed. -/
  passed : ∀ x ∈ Station.record talk, ∀ id, x.request = report id .passed →
    unitRead (Station.record talk) = some id ∧
      (client.Unreachable id (Station.gitTalk talk) ∧ Unrun (Station.record talk) ∨
        client.Reached id id.text (Station.gitTalk talk) ∧
          (planRuns (Station.record talk)).map CommandRun.command = plan.work ∧
          ∀ run ∈ planRuns (Station.record talk), run.failed = false)
  /-- A unit fails when git was at it, every command of the plan was run and one failed. -/
  failed : ∀ x ∈ Station.record talk, ∀ id, x.request = report id .failed →
    unitRead (Station.record talk) = some id ∧
      client.Reached id id.text (Station.gitTalk talk) ∧
      (planRuns (Station.record talk)).map CommandRun.command = plan.work ∧
      ∃ run ∈ planRuns (Station.record talk), run.failed = true
  /-- Nothing is written for a unit when git went any other way. -/
  silent : ∀ id, unitRead (Station.record talk) = some id →
    ¬client.Unreachable id (Station.gitTalk talk) →
    ¬client.Reached id id.text (Station.gitTalk talk) → Unchanged (Station.record talk)

theorem Consumer.justified_poll {client : GitClient} {consumer : Consumer}
    {talk : Station.Talk} {rest : Program Station (Except RoundFault PollOutcome)}
    (h : Converses (client.atStation consumer.poll.run) talk rest) :
    Justified client consumer.plan talk := by
  obtain ⟨record, stage, htells, hrecord, hsync⟩ := GitClient.tells_of_station h
  have hmissing (id : WorkUnitId) (hone : checkOuts record = [(id, .ok none)]) :
      client.Unreachable id (Station.gitTalk talk) := by
    rcases GitClient.ran_of_syncTo (hsync id _ hone) with ⟨-, hunreachable⟩ | ⟨head, hsome, -⟩
    · exact hunreachable
    · cases hsome
  have hfound (id : WorkUnitId) (hone : checkOuts record = [(id, .ok (some id))]) :
      client.Reached id id.text (Station.gitTalk talk) := by
    rcases GitClient.ran_of_syncTo (hsync id _ hone) with ⟨hnone, -⟩ | ⟨head, hsome, hreached⟩
    · cases hnone
    · cases hsome
      exact hreached
  have hany := any_isFailedRun record
  constructor
  · intro x hx id hreport
    rw [hrecord] at hx ⊢
    obtain ⟨hread, hgrounds⟩ := htells.of_report (mem_of_mem_uncheckedOut hx) hreport
    rw [unitRead_uncheckedOut, planRuns_uncheckedOut]
    refine ⟨hread, ?_⟩
    rcases hgrounds with ⟨hone, hunrun, -⟩ | ⟨hone, hruns, hverdict⟩
    · exact .inl ⟨hmissing id hone, fun y hy => hunrun y (mem_of_mem_uncheckedOut hy)⟩
    · refine .inr ⟨hfound id hone, hruns, ?_⟩
      cases hfailed : record.any Exchange.isFailedRun with
      | true =>
          rw [verdict, hfailed] at hverdict
          cases hverdict
      | false =>
          rw [hany] at hfailed
          simpa using hfailed
  · intro x hx id hreport
    rw [hrecord] at hx ⊢
    obtain ⟨hread, hgrounds⟩ := htells.of_report (mem_of_mem_uncheckedOut hx) hreport
    rw [unitRead_uncheckedOut, planRuns_uncheckedOut]
    rcases hgrounds with ⟨-, -, hpassed⟩ | ⟨hone, hruns, hverdict⟩
    · cases hpassed
    · refine ⟨hread, hfound id hone, hruns, ?_⟩
      cases hfailed : record.any Exchange.isFailedRun with
      | false =>
          rw [verdict, hfailed] at hverdict
          cases hverdict
      | true =>
          rw [hany] at hfailed
          exact List.any_eq_true.1 hfailed
  · intro id hread hunreachable hreached
    rw [hrecord, unitRead_uncheckedOut] at hread
    have hunchanged : Unchanged record := by
      refine htells.unchanged hread (fun hmem => hunreachable ?_) fun hmem => hreached ?_
      · rcases htells.checkOuts_cases with hempty | ⟨asked, hone⟩
        · rw [hempty] at hmem
          exact absurd hmem List.not_mem_nil
        · rw [hone] at hmem
          exact hmissing id (by rw [hone, List.mem_singleton.1 hmem])
      · rcases htells.checkOuts_cases with hempty | ⟨asked, hone⟩
        · rw [hempty] at hmem
          exact absurd hmem List.not_mem_nil
        · rw [hone] at hmem
          exact hfound id (by rw [hone, List.mem_singleton.1 hmem])
    rw [hrecord]
    exact fun x hx => hunchanged x (mem_of_mem_uncheckedOut hx)

/-! ## A whole run of the consumer -/

namespace Station

def ofWork (x : Sigma Work.Answer) : Sigma Station.Answer :=
  ⟨.inr x.1, x.2⟩

end Station

/-- The request looks at a signal, asks whether it is up or takes it down. -/
def WorkRequest.Tidies (request : WorkRequest) : Prop :=
  ∃ signal, request = look signal ∨ request = probe signal ∨ request = lower signal

namespace GitClient

variable {client : GitClient} {talk : Station.Talk}

theorem eq_map_ofWork {α : Type} {program : Program Work α} {rest : Program Station α}
    (hnone : ∀ own here, Converses program own here → ∀ x ∈ own, ∀ id, x.1 ≠ .checkOut id)
    (h : Converses (client.atStation program) talk rest) :
    ∃ own here, Converses program own here ∧ talk = own.map Station.ofWork := by
  obtain ⟨own, here, carried, begun, rfl, hown, hcarries, hbegun⟩ := h.through_cases
  have hcarried : ∀ {own : Work.Talk} {carried : Station.Talk},
      Carries (I := Work) client.carryOut own carried →
        (∀ x ∈ own, ∀ id, x.1 ≠ .checkOut id) → carried = own.map Station.ofWork := by
    intro own carried hcarries
    induction hcarries with
    | nil => exact fun _ => rfl
    | cons first later ih =>
        intro hall
        obtain ⟨hfirst, hrest⟩ := List.forall_mem_cons.1 hall
        rcases converses_carryOut first with ⟨-, rfl⟩ | ⟨id, found, talk, heq, -, -⟩
        · rw [ih hrest]
          rfl
        · exact absurd (congrArg Exchange.request heq) (hfirst id)
  refine ⟨own, here, hown, ?_⟩
  rw [hcarried hcarries (hnone own here hown)]
  rcases hbegun with ⟨rfl, -⟩ | ⟨request, next, other, wait, later, rfl, hstart, -⟩
  · exact List.append_nil _
  have hrequest : ∀ id, request ≠ .checkOut id := by
    rintro id rfl
    exact hnone _ _ (hown.snoc (.error (.dirty "") : Except VcsFault (Option WorkUnitId))) _
      (List.mem_append_right _ List.mem_cons_self) id rfl
  rw [carryOut_of_ne hrequest] at hstart
  rcases converses_request hstart with ⟨rfl, -⟩ | ⟨answer, -, hdone⟩
  · exact List.append_nil _
  · cases hdone

theorem atStation_bind {α β : Type} (program : Program Work α) (next : α → Program Work β) :
    client.atStation (program >>= next) =
      client.atStation program >>= fun value => client.atStation (next value) :=
  Program.run_bind _ program next

theorem bind_cases {α β : Type} {program : WorkM α} {next : α → WorkM β}
    {rest : Program Station (Except RoundFault β)}
    (h : Converses (client.atStation (program >>= next).run) talk rest) :
    (∃ here, Converses (client.atStation program.run) talk here) ∨
      ∃ value first second, talk = first ++ second ∧
        Converses (client.atStation program.run) first (done (.ok value)) ∧
        Converses (client.atStation (next value).run) second rest := by
  rw [ExceptT.run_bind, atStation_bind] at h
  rcases h.bind_cases with
    ⟨request, wait, hfirst, -⟩ | ⟨result, first, second, rfl, hfirst, hsecond⟩
  · exact .inl ⟨_, hfirst⟩
  · cases result with
    | ok value => exact .inr ⟨value, first, second, rfl, hfirst, hsecond⟩
    | error fault =>
        obtain ⟨rfl, -⟩ := converses_done.1 hsecond
        exact .inl ⟨_, by rwa [List.append_nil]⟩

end GitClient

theorem PollPhase.tidies_of_trail {phase after : PollPhase} {talk : Work.Talk}
    (h : Trail Moves phase talk after) (hphase : phase = .surveying ∨ phase = .clearing) :
    ∀ x ∈ talk, WorkRequest.Tidies x.1 := by
  induction h with
  | rest phase => exact fun _ hx => absurd hx List.not_mem_nil
  | @move phase between after request answer talk first later ih =>
      have hfirst : request.Tidies ∧
          (between = .surveying ∨ between = .clearing) := by
        rcases hphase with rfl | rfl
        · cases first with
          | @inspect signal => exact ⟨⟨signal, .inl rfl⟩, .inl rfl⟩
          | @recover signal => exact ⟨⟨signal, .inr (.inl rfl)⟩, .inr rfl⟩
          | write result writes => cases writes
          | fault fault writes => cases writes
        · cases first with
          | @probe signal => exact ⟨⟨signal, .inr (.inl rfl)⟩, .inr rfl⟩
          | @lower signal => exact ⟨⟨signal, .inr (.inr rfl)⟩, .inr rfl⟩
          | write result writes => cases writes
          | fault fault writes => cases writes
      exact List.forall_mem_cons.2 ⟨hfirst.1, ih hfirst.2⟩

structure PollTurn where
  poll : Station.Talk
  pause : Station.Talk

namespace PollTurn

def talk (turn : PollTurn) : Station.Talk :=
  turn.poll ++ turn.pause

/-- The turn is one of the consumer: a talk of its poll, and then it sleeps at most. -/
structure IsOf (client : GitClient) (consumer : Consumer) (turn : PollTurn) : Prop where
  poll : ∃ rest, Converses (client.atStation consumer.poll.run) turn.poll rest
  pause : ∀ x ∈ turn.pause, x.1 = .inr (.sleep consumer.pollInterval)

end PollTurn

/-- The talk is that of some polls of the consumer, one after the other. -/
def InTurns (client : GitClient) (consumer : Consumer) (talk : Station.Talk) : Prop :=
  ∃ turns : List PollTurn, talk = (turns.map PollTurn.talk).flatten ∧
    ∀ turn ∈ turns, turn.IsOf client consumer

namespace InTurns

variable {client : GitClient} {consumer : Consumer} {first pause more : Station.Talk}
  {here : Program Station (Except RoundFault PollOutcome)}

theorem one (hpoll : Converses (client.atStation consumer.poll.run) first here) :
    InTurns client consumer first :=
  ⟨[⟨first, []⟩], by simp [PollTurn.talk], List.forall_mem_singleton.2 ⟨⟨here, hpoll⟩, nofun⟩⟩

theorem cons (hpoll : Converses (client.atStation consumer.poll.run) first here)
    (hpause : ∀ x ∈ pause, x.1 = .inr (.sleep consumer.pollInterval))
    (h : InTurns client consumer more) : InTurns client consumer (first ++ (pause ++ more)) := by
  obtain ⟨turns, rfl, hturns⟩ := h
  exact ⟨⟨first, pause⟩ :: turns, by simp [PollTurn.talk],
    List.forall_mem_cons.2 ⟨⟨⟨here, hpoll⟩, hpause⟩, hturns⟩⟩

end InTurns

namespace Consumer

variable {client : GitClient} {consumer : Consumer} {once : Bool} {talk : Station.Talk}

theorem tidies_of_recover {rest : Program Station (Except RoundFault (List Signal))}
    (h : Converses (client.atStation consumer.recover.run) talk rest) :
    ∀ x ∈ talk, ∃ request : WorkRequest, x.1 = .inr request ∧ request.Tidies := by
  have htidies {own : Work.Talk} {here : Program Work (Except RoundFault (List Signal))}
      (hown : Converses consumer.recover.run own here) :
      ∀ x ∈ own, WorkRequest.Tidies x.1 := by
    obtain ⟨after, htrail, -⟩ := consumer.follows_recover.converses hown
    exact PollPhase.tidies_of_trail htrail (.inl rfl)
  obtain ⟨own, here, hown, rfl⟩ := GitClient.eq_map_ofWork (fun own here hown x hx id heq => by
    obtain ⟨signal, hsignal⟩ := htidies hown x hx
    rw [heq] at hsignal
    rcases hsignal with h | h | h <;> cases h) h
  intro x hx
  obtain ⟨y, hy, rfl⟩ := List.mem_map.1 hx
  exact ⟨y.1, rfl, htidies hown y hy⟩

theorem sleeps_of_pause {span : Duration} {rest : Program Station (Except RoundFault Unit)}
    (h : Converses (client.atStation (ExceptT.lift (Work.sleep span) : WorkM Unit).run) talk rest) :
    ∀ x ∈ talk, x.1 = .inr (.sleep span) := by
  change Converses (.ask (I := Station) (.inr (.sleep span)) fun _ => done (.ok ())) talk rest at h
  cases h with
  | pause => exact nofun
  | ask later =>
      obtain ⟨rfl, -⟩ := converses_done.1 later
      exact List.forall_mem_singleton.2 rfl

/-- The polls of a loop follow each other, with pauses between them. -/
theorem inTurns_of_loop {polls : Nat}
    {rest : Program Station (Except RoundFault (Option ConsumerExit))}
    (h : Converses (client.atStation (consumer.loop once polls).run) talk rest) :
    InTurns client consumer talk := by
  induction polls generalizing talk rest with
  | zero =>
      obtain ⟨rfl, -⟩ := converses_done.1 h
      exact ⟨[], rfl, nofun⟩
  | succ polls ih =>
      rcases GitClient.bind_cases h with
        ⟨here, hpoll⟩ | ⟨outcome, first, second, rfl, hpoll, hrest⟩
      · exact .one hpoll
      have hlast {exit : ConsumerExit}
          (hdone : Converses (client.atStation (pure (some exit) : WorkM _).run) second rest) :
          InTurns client consumer (first ++ second) := by
        obtain ⟨rfl, -⟩ := converses_done.1 hdone
        rw [List.append_nil]
        exact .one hpoll
      have hpaused (hsleep : Converses (client.atStation
          (ExceptT.lift (Work.sleep consumer.pollInterval) >>= fun _ =>
            consumer.loop once polls : WorkM (Option ConsumerExit)).run) second rest) :
          InTurns client consumer (first ++ second) := by
        rcases GitClient.bind_cases hsleep with
          ⟨here, hpause⟩ | ⟨_, pause, more, rfl, hpause, hloop⟩
        · rw [← List.append_nil second]
          exact .cons hpoll (sleeps_of_pause hpause) ⟨[], rfl, nofun⟩
        · exact .cons hpoll (sleeps_of_pause hpause) (ih hloop)
      cases outcome with
      | reload => exact hlast hrest
      | skipped id =>
          cases once with
          | true => exact hlast hrest
          | false =>
              have hnone : ∀ x ∈ ([] : Station.Talk), x.1 = .inr (.sleep consumer.pollInterval) :=
                nofun
              exact .cons hpoll hnone (ih hrest)
      | idle =>
          cases once with
          | true => exact hlast hrest
          | false => exact hpaused hrest
      | completed id status =>
          cases once with
          | true => exact hlast hrest
          | false => exact hpaused hrest

end Consumer

/-- Take a run of a consumer whose checkout is a git one, with any answers from git and from
everything else, up to any of its requests.  It is a recovery, which only looks at signals
and takes them down, and then one poll after the other; and every poll writes a status only
when the runs of git and of the commands in this poll bear it out, and nothing at all for a
unit when git went any other way. -/
theorem verdicts_justified {client : GitClient} {consumer : Consumer} {once : Bool}
    {polls : Nat} {talk : Station.Talk}
    {rest : Program Station (Except RoundFault (Option ConsumerExit))}
    (h : Converses (client.atStation (consumer.run once polls).run) talk rest) :
    ∃ (recovery : Station.Talk) (turns : List PollTurn),
      talk = recovery ++ (turns.map PollTurn.talk).flatten ∧
      (∀ x ∈ recovery, ∃ request : WorkRequest, x.1 = .inr request ∧ request.Tidies) ∧
      ∀ turn ∈ turns, turn.IsOf client consumer ∧
        Justified client consumer.plan turn.poll := by
  have hjustified {turns : List PollTurn} (hturns : ∀ turn ∈ turns, turn.IsOf client consumer) :
      ∀ turn ∈ turns, turn.IsOf client consumer ∧ Justified client consumer.plan turn.poll := by
    intro turn hturn
    obtain ⟨rest, hpoll⟩ := (hturns turn hturn).poll
    exact ⟨hturns turn hturn, consumer.justified_poll hpoll⟩
  rcases GitClient.bind_cases h with
    ⟨here, hrecover⟩ | ⟨_, recovery, polled, rfl, hrecover, hloop⟩
  · exact ⟨talk, [], by simp, Consumer.tidies_of_recover hrecover, nofun⟩
  · obtain ⟨turns, rfl, hturns⟩ := Consumer.inTurns_of_loop hloop
    exact ⟨recovery, turns, rfl, Consumer.tidies_of_recover hrecover, hjustified hturns⟩

/-! ### A run that is played out -/

def Exchange.storeCall? : Exchange → Option StoreCall
  | ⟨.store call, _⟩ => some call
  | _ => none

theorem mem_of_storeCall {record : List Exchange} {call : StoreCall}
    (h : call ∈ record.filterMap Exchange.storeCall?) : ∃ x ∈ record, x.request = .store call := by
  obtain ⟨x, hx, hcall⟩ := List.mem_filterMap.1 h
  refine ⟨x, hx, ?_⟩
  obtain ⟨request, answer⟩ := x
  cases request with
  | store other =>
      cases hcall
      rfl
  | _ => cases hcall

def passedBuild : ExecutionRecord where
  exitCode := 0
  timedOut := false
  stdout := ByteArray.empty
  stderr := ByteArray.empty

namespace Station

/-- What git prints: the offered revision when it is asked where it is, else nothing. -/
def printed (arguments : List String) : ByteArray :=
  if arguments.contains "rev-parse" then "4f2c\n".toUTF8 else ByteArray.empty

def obliging : (request : Station.Request) → MemoryStore → Station.Answer request × MemoryStore
  | .inl arguments, s =>
      (.ok { status := .exited 0, stdout := printed arguments, stderr := ByteArray.empty }, s)
  | .inr request, s =>
      Interleaving.serve MemoryStore.answer (Interleaving.steady some (some passedBuild)) request s

end Station

def sampleClient : GitClient where
  repo := ⟨"repo"⟩
  branch := "main"

def reloadedBuilder : Consumer :=
  { Interleaving.builder with start := .reloaded }

/-- The consumer polls once and finds its unit passing. -/
theorem verdicts_justified_on_pass :
    ∃ (talk : Station.Talk) (rest : Program Station (Except RoundFault (Option ConsumerExit))),
      Converses (sampleClient.atStation (reloadedBuilder.run true 1).run) talk rest ∧
      (∃ x ∈ Station.record talk, x.request = report (Interleaving.retries 0).id .passed) ∧
      ∃ (recovery : Station.Talk) (turns : List PollTurn),
        talk = recovery ++ (turns.map PollTurn.talk).flatten ∧
        (∀ x ∈ recovery, ∃ request : WorkRequest, x.1 = .inr request ∧ request.Tidies) ∧
        ∀ turn ∈ turns, turn.IsOf sampleClient reloadedBuilder ∧
          Justified sampleClient reloadedBuilder.plan turn.poll := by
  have hcall : .put (BlobKey.status (Interleaving.retries 0).id) Status.passed.payload ∈
      (Station.record (Program.speak Station.obliging 40
        (sampleClient.atStation (reloadedBuilder.run true 1).run) oneOffer).1).filterMap
          Exchange.storeCall? := by
    decide +kernel
  have hconverses := Program.converses_speak Station.obliging 40
    (sampleClient.atStation (reloadedBuilder.run true 1).run) oneOffer
  exact ⟨_, _, hconverses, mem_of_storeCall hcall, verdicts_justified hconverses⟩

end Handoff
