import Handoff.Proofs.Blob.Running
import Handoff.Proofs.Blob.UnitKeys
import Handoff.Proofs.Commands
import Handoff.Proofs.Conversation
import Handoff.Proofs.Round.Offer
import Handoff.Proofs.Text.Decoding
/-!
# What passes

A status entry passes when it is text that is a single `0` with nothing but blanks around it; any
other bytes are a failure, whatever decoding and trimming make of them.  A producer that returns a
status has read it just before it took FINISHED down, so an offer, and the bot with it, passes on
such an entry of its own unit and on nothing else.
-/

namespace Handoff

open Program WorkRequest

namespace Status

/-- The bytes are text that is a single `0` with nothing but blanks around it. -/
def IsZero (payload : ByteArray) : Prop :=
  ∃ before after : String, Text.AllBlank before.toList ∧ Text.AllBlank after.toList ∧
    (before ++ "0" ++ after).toUTF8 = payload

theorem ofText_eq_passed_iff {raw : String} : ofText raw = .passed ↔ Text.trim raw = "0" := by
  unfold ofText
  split
  · next h => exact iff_of_true rfl h
  · next h => exact iff_of_false nofun h

/-- U+FFFD is no blank, so none stands around a `0` that was read. -/
theorem replacement_notMem {before after : String} (hbefore : Text.AllBlank before.toList)
    (hafter : Text.AllBlank after.toList) : '\uFFFD' ∉ (before ++ "0" ++ after).toList := by
  have hblank : Text.isBlank '\uFFFD' = false := by decide
  intro hmem
  rw [String.toList_append, String.toList_append] at hmem
  rcases List.mem_append.1 hmem with hmem | hmem
  · rcases List.mem_append.1 hmem with hmem | hmem
    · rw [hbefore _ hmem] at hblank
      cases hblank
    · exact absurd hmem (by decide)
  · rw [hafter _ hmem] at hblank
    cases hblank

/-- Bytes pass when they are a bare `0`, and not when decoding or trimming would have to make one
of them. -/
theorem ofText_decodeLossy_eq_passed_iff {payload : ByteArray} :
    ofText (Text.decodeLossy payload) = .passed ↔ IsZero payload := by
  have hzero : Text.trim "0" = "0" := by decide
  rw [ofText_eq_passed_iff, Text.trim_eq_iff hzero]
  constructor
  · rintro ⟨before, after, hbefore, hafter, htext⟩
    have hclean := replacement_notMem hbefore hafter
    exact ⟨before, after, hbefore, hafter, (Text.decodeLossy_eq_iff hclean).1 htext⟩
  · rintro ⟨before, after, hbefore, hafter, rfl⟩
    exact ⟨before, after, hbefore, hafter, Text.decodeLossy_toUTF8 _⟩

theorem eq_failed_iff {status : Status} : status = .failed ↔ ¬status = .passed := by
  cases status <;> decide

end Status

namespace Archive

theorem run_readStatus_of_get {σ : Type} {model : StoreModel σ} {id : WorkUnitId} {s : σ}
    {payload : ByteArray} (h : (model (.get (BlobKey.status id)) s).1 = .ok (some payload)) :
    (model.run (readStatus id).run s).1 =
      .ok (some (Status.ofText (Text.decodeLossy payload))) := by
  rw [run_readStatus]
  change statusOf <$> (model (.get (BlobKey.status id)) s).1 = _
  rw [h]
  rfl

end Archive

/-- The talk ends with a look at the status entry of the unit, which held `payload`, and with taking
FINISHED down. -/
def EndsReading (id : WorkUnitId) (payload : ByteArray) (talk : Work.Talk) : Prop :=
  ∃ before : Work.Talk, talk = before ++
    [⟨.store (.get (BlobKey.status id)), .ok (some payload)⟩, ⟨lower .finished, .ok ()⟩]

namespace OfferPhase

variable {id : WorkUnitId}

/-- What each phase tells of the talk so far: at the end, where the status comes from. -/
def Tells (id : WorkUnitId) : OfferPhase → Work.Talk → Prop
  | collected (some status), talk => ∃ before payload,
      status = Status.ofText (Text.decodeLossy payload) ∧
        talk = before ++ [⟨.store (.get (BlobKey.status id)), .ok (some payload)⟩]
  | returned (some status), talk => ∃ payload,
      status = Status.ofText (Text.decodeLossy payload) ∧ EndsReading id payload talk
  | _, _ => True

theorem tells_move {phase after : OfferPhase} {request : WorkRequest} {answer : request.Answer}
    {talk : Work.Talk} (h : Tells id phase talk) (hmove : Moves id phase request answer after) :
    Tells id after (talk ++ [⟨request, answer⟩]) := by
  cases hmove with
  | collect entry =>
      cases entry with
      | none => trivial
      | some payload => exact ⟨talk, payload, rfl, rfl⟩
  | @finish status =>
      cases status with
      | none => trivial
      | some status =>
          obtain ⟨before, payload, hstatus, rfl⟩ := h
          exact ⟨payload, hstatus, before, List.append_assoc _ _ _⟩
  | peek answer =>
      unfold peek
      split
      · trivial
      · split <;> trivial
      · trivial
  | _ => trivial

end OfferPhase

namespace Producer

/-- A status that an offer comes to was read at its end. -/
theorem endsReading_of_converses {producer : Producer} {polls : Nat} {id : WorkUnitId}
    {talk : Work.Talk} {status : Status}
    (h : (producer.offerAndWait polls id).run.Converses talk (done (.ok (some status)))) :
    ∃ payload, status = Status.ofText (Text.decodeLossy payload) ∧ EndsReading id payload talk := by
  obtain ⟨after, htrail, hended⟩ := (follows_offerAndWait producer polls id).converses h
  have htells : OfferPhase.Tells id after ([] ++ talk) :=
    htrail.tells OfferPhase.tells_move trivial
  have hafter : after = .returned (some status) := hended
  rw [hafter] at htells
  exact htells

theorem endsReading_of_perform {σ : Type} {answer : Surroundings Work σ} {producer : Producer}
    {polls : Nat} {id : WorkUnitId} {s : σ} {status : Status}
    (h : ((producer.offerAndWait polls id).run.perform answer s).1 = .ok (some status)) :
    ∃ payload, status = Status.ofText (Text.decodeLossy payload) ∧
      EndsReading id payload ((producer.offerAndWait polls id).run.talk answer s) := by
  apply endsReading_of_converses
  rw [← h]
  exact converses_talk _ s

end Producer

namespace Status

/-- Whatever bytes a store holds for the status of a unit, they read as passed when they are text
that is a single `0` with nothing but blanks around it, and as failed when they are not.  Whatever
its surroundings answer, an offer comes to the status that such a look at the entry of its unit
gave it at the end; so it comes to a passing one only when the entry held a bare `0` then.  A bot
on a host, run with any arguments, exits with 0 only when its offer has done so. -/
theorem passes_only_zero :
    (∀ {σ : Type} (model : StoreModel σ) (id : WorkUnitId) (s : σ) (payload : ByteArray),
      (model (.get (BlobKey.status id)) s).1 = .ok (some payload) →
        ((model.run (Archive.readStatus id).run s).1 = .ok (some .passed) ↔ IsZero payload) ∧
        ((model.run (Archive.readStatus id).run s).1 = .ok (some .failed) ↔ ¬IsZero payload)) ∧
    (∀ (producer : Producer) (polls : Nat) (id : WorkUnitId) (talk : Work.Talk) (status : Status),
      (producer.offerAndWait polls id).run.Converses talk (done (.ok (some status))) →
        ∃ payload, EndsReading id payload talk ∧ (status = .passed ↔ IsZero payload)) ∧
    ∀ (arguments : List String) (relaunches : Nat) (terminal : Terminal)
      (options : CommandOptions) (id : Option String),
      CommandLine.read terminal.host.env arguments = some (.command options) →
      options.subcommand = .bot id →
      (Commands.run arguments relaunches terminal).1.exitCode = 0 →
        ∃ setting set plan store unit started payload,
          (Commands.settingOf options).run.run terminal = (.ok setting, set) ∧
            (Commands.ready setting false id).run.run set = (.ok (plan, store, unit), started) ∧
            IsZero payload ∧
            EndsReading unit payload
              (((Commands.producerOf setting plan).offerAndWait Commands.polls unit).run.talk
                Agent.answer (Commands.agentOf setting plan store SourceWatch.empty started)) := by
  refine ⟨?_, ?_, ?_⟩
  · intro σ model id s payload hget
    rw [Archive.run_readStatus_of_get hget, Except.ok.injEq, Option.some.injEq, Except.ok.injEq,
      Option.some.injEq, eq_failed_iff, ofText_decodeLossy_eq_passed_iff]
    exact ⟨Iff.rfl, Iff.rfl⟩
  · intro producer polls id talk status h
    obtain ⟨payload, rfl, hreading⟩ := Producer.endsReading_of_converses h
    exact ⟨payload, hreading, ofText_decodeLossy_eq_passed_iff⟩
  · intro arguments relaunches terminal options id hread hbot hexit
    obtain ⟨setting, set, after, hsetting, hended⟩ :=
      Commands.bot_of_exitCode_eq_zero hread hbot hexit
    obtain ⟨plan, store, unit, started, status, hready, hoffered, hcode⟩ :=
      Commands.exited_of_run_bot hended
    have hpassed : status = .passed :=
      Commands.codeOf_eq_zero_iff.1 (CommandEnd.exited.inj hcode).symm
    obtain ⟨payload, hstatus, hreading⟩ := Producer.endsReading_of_perform hoffered
    have hzero : IsZero payload :=
      ofText_decodeLossy_eq_passed_iff.1 (hstatus.symm.trans hpassed)
    exact ⟨setting, set, plan, store, unit, started, payload, hsetting, hready, hzero, hreading⟩

def reported (payload : ByteArray) : MemoryStore :=
  StringMap.empty.insert (BlobKey.status BlobKey.plainUnit).text payload

/-- The store in memory with a tester beside it, which puts `payload` under the status of a unit
and raises FINISHED for it as soon as the unit is offered. -/
def reporting (payload : ByteArray) : Surroundings Work MemoryStore
  | .store (.put _ value), _ =>
      (.ok (), (reported payload).insert (BlobKey.signal .finished).text value)
  | .store call, blobs => MemoryStore.answer call blobs
  | .checkOut _, blobs => (.ok none, blobs)
  | .reloadWanted, blobs => (false, blobs)
  | .run _ _, blobs => (.ok none, blobs)
  | .print _, blobs => ((), blobs)
  | .now, blobs => ((0 : Nat), blobs)
  | .sleep _, blobs => ((), blobs)

def reportedOffer : WorkM (Option Status) :=
  Producer.offerAndWait ⟨Duration.ofSecs 1, Duration.ofSecs 9⟩ 1 BlobKey.plainUnit

/-- A terminal on a host with a store in a directory, which has a status for the unit `r7` and in
which FINISHED shows what OFFERED does. -/
def mailbox : Terminal where
  host :=
    { kernel :=
        { files :=
            { entries := [([.named "d"], .directory), ([.named "d", .named "magic"], .directory),
                ([.named "d", .named "magic", .named "FINISHED"], .link "OFFERED"),
                ([.named "d", .named "r7"], .directory),
                ([.named "d", .named "r7", .named "status"],
                  .file 0 " 0\n".toUTF8 FileTree.plainMode)]
              nextId := 1 }
          clock := 0, streams := [], pipes := [], nameless := [], tasks := [Task.outer 1000 []]
          nextProcess := 1001, nextStream := 1 }
      cwd := [], process := 1000, serial := 0, tag := "1", env := StringMap.empty }
  git := { installed := false, home := [], replies := [], calls := [] }
  printed := ByteArray.empty

def botArguments : List String := ["bot", "--id", "r7", "--repo", "/", "--store", "dir:/d"]

def botOptions : CommandOptions where
  store := some "dir:/d"
  plan := none
  repo := some ⟨"/"⟩
  branch := "master"
  pollSecs := 30
  commandTimeoutSecs := none
  watch := []
  subcommand := .bot (some "r7")

/-- A `0` among blanks of any script passes, and so does the offer that it is the report of.  A `0`
with a byte behind it that belongs to no text fails.  A bot whose unit has such a status passes, and
has read it. -/
theorem passes_only_zero_on_reports :
    (MemoryStore.answer.run (Archive.readStatus BlobKey.plainUnit).run
        (reported ⟨#[0x30, 0xff]⟩)).1 = .ok (some .failed) ∧
      (∃ talk payload, reportedOffer.run.Converses talk (done (.ok (some .passed))) ∧
        EndsReading BlobKey.plainUnit payload talk ∧ IsZero payload) ∧
      ∃ agent producer unit payload, (Commands.run botArguments 0 mailbox).1.exitCode = 0 ∧
        EndsReading unit payload
          ((Producer.offerAndWait producer Commands.polls unit).run.talk Agent.answer agent) ∧
        IsZero payload := by
  obtain ⟨hreads, hoffers, hbots⟩ := passes_only_zero
  have hheld (payload : ByteArray) : (MemoryStore.answer
      (.get (BlobKey.status BlobKey.plainUnit)) (reported payload)).1 = .ok (some payload) :=
    congrArg Except.ok ((StringMap.get?_insert _ _ _ _).trans (if_pos rfl))
  have hgarbled : ¬IsZero ⟨#[0x30, 0xff]⟩ := by
    rw [← ofText_decodeLossy_eq_passed_iff]
    decide +kernel
  have hpassed : (reportedOffer.run.perform (reporting "\u3000 0\n".toUTF8) StringMap.empty).1 =
      .ok (some .passed) := by
    rfl
  have htalk : reportedOffer.run.Converses
      (reportedOffer.run.talk (reporting "\u3000 0\n".toUTF8) StringMap.empty)
      (done (.ok (some .passed))) := by
    rw [← hpassed]
    exact converses_talk _ _
  obtain ⟨payload, hending, hzero⟩ := hoffers _ _ _ _ _ htalk
  have hread : CommandLine.read mailbox.host.env botArguments = some (.command botOptions) := by
    decide +kernel
  have hexit : (Commands.run botArguments 0 mailbox).1.exitCode = 0 := by decide +kernel
  obtain ⟨setting, set, plan, store, unit, started, status, -, -, hstatus, hlast⟩ :=
    hbots botArguments 0 mailbox botOptions (some "r7") hread rfl hexit
  exact ⟨(hreads _ _ _ _ (hheld _)).2.2 hgarbled, ⟨_, payload, htalk, hending, hzero.1 rfl⟩,
    _, _, unit, status, hexit, hlast, hstatus⟩

end Status

end Handoff
