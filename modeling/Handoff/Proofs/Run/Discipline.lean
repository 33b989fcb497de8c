import Handoff.Proofs.Performance
import Handoff.Proofs.Run.Supervising
/-!
# The discipline of signals

What a supervision sends to the group of its child, and when, told by the talk that it has with
the child and the clock.  The child may answer anything, and the clock may show anything that
does not run backwards.
-/

namespace Handoff

open Program

namespace Supervision

def seen : Sigma Child.Answer := ⟨.tryWait, .ok none⟩

def sent (stop : Stop) : Sigma Child.Answer := ⟨.signalGroup stop, ()⟩

def shown (reading : Nat) : Sigma Child.Answer := ⟨.now, reading⟩

def reading? : Sigma Child.Answer → Option Nat
  | ⟨.now, reading⟩ => some reading
  | _ => none

def isTerminate : Sigma Child.Answer → Bool
  | ⟨.signalGroup .terminate, _⟩ => true
  | _ => false

def Rising (talk : Child.Talk) : Prop :=
  (talk.filterMap reading?).Pairwise (· ≤ ·)

/-- Why the group may be killed, told by what was said just before. -/
inductive KillGrounds (settings : RunnerSettings) : Child.Talk → Prop
  /-- The child was seen to have ended. -/
  | ended (earlier : Child.Talk) (status : ExitStatus) :
      KillGrounds settings (earlier ++ [⟨.tryWait, .ok (some status)⟩])
  /-- The grace period has passed since the group was asked to terminate. -/
  | obstinate {earlier between : Child.Talk} {stopped reading : Nat}
      (late : stopped + settings.killGrace.toNanos ≤ reading) :
      KillGrounds settings
        (earlier ++ [sent .terminate, shown stopped] ++ between ++ [seen, shown reading])
  | failed (earlier : Child.Talk) (fault : OsFault) :
      KillGrounds settings (earlier ++ [⟨.tryWait, .error fault⟩])

/-- What follows a look that has failed: the group is killed, the child is waited for, and the
fault of the look is the outcome. -/
inductive GivesUp (fault : OsFault) : Child.Talk → Program Child (Option Outcome) → Prop
  | killing (next : Unit → Program Child (Option Outcome)) :
      GivesUp fault [] (ask (I := Child) (.signalGroup .kill) next)
  | waiting (next : Except OsFault ExitStatus → Program Child (Option Outcome)) :
      GivesUp fault [sent .kill] (ask (I := Child) .wait next)
  | over (answer : Except OsFault ExitStatus) :
      GivesUp fault [sent .kill, ⟨.wait, answer⟩] (done (some (.failed fault)))

/-- How a supervision keeps to the rules for signals up to some point, where it has `rest` to do. -/
structure Disciplined (settings : RunnerSettings) (talk : Child.Talk)
    (rest : Program Child (Option Outcome)) : Prop where
  terminates_once : talk.countP isTerminate ≤ 1
  /-- The group is asked to terminate when the child was just seen running after its time. -/
  terminates_late : ∀ before after, talk = before ++ sent .terminate :: after →
    ∃ started between reading, before = shown started :: (between ++ [seen, shown reading]) ∧
      started + settings.timeout.toNanos ≤ reading
  kills_on_grounds : ∀ before after, talk = before ++ sent .kill :: after →
    KillGrounds settings before
  /-- The child counts as timed out when the group was asked to terminate. -/
  timed_out_iff : ∀ status timedOut, rest = done (some (.ended status timedOut)) →
    (timedOut = true ↔ sent .terminate ∈ talk)
  /-- Then the group was killed as well, -/
  killed_at_last : ∀ status, rest = done (some (.ended status true)) →
    [sent .terminate, sent .kill].Sublist talk
  /-- and else it was not signalled at all. -/
  untouched : ∀ status, rest = done (some (.ended status false)) → ∀ stop, sent stop ∉ talk
  gives_up : ∀ before fault after, talk = before ++ ⟨.tryWait, .error fault⟩ :: after →
    GivesUp fault after rest

/-! ## What each phase tells of the talk -/

def Quiet (talk : Child.Talk) : Prop :=
  ∀ said ∈ talk, ∀ stop, said.1 ≠ .signalGroup stop

theorem Quiet.not_mem {talk : Child.Talk} (h : Quiet talk) (stop : Stop) : sent stop ∉ talk :=
  fun hmem => h _ hmem stop rfl

theorem Quiet.append {first second : Child.Talk} (hfirst : Quiet first) (hsecond : Quiet second) :
    Quiet (first ++ second) := by
  intro said hsaid
  rcases List.mem_append.1 hsaid with hmem | hmem
  · exact hfirst said hmem
  · exact hsecond said hmem

theorem quiet_singleton (said : Sigma Child.Answer) (h : ∀ stop, said.1 ≠ .signalGroup stop) :
    Quiet [said] := by
  intro other hother
  rw [List.mem_singleton.1 hother]
  exact h

theorem quiet_look (reading : Nat) : Quiet [seen, shown reading] :=
  (quiet_singleton seen nofun).append (quiet_singleton (shown reading) nofun)

/-- What was said before a look at the child. -/
inductive Earlier (settings : RunnerSettings) (started : Nat) : Option Nat → Child.Talk → Prop
  | patient {talk : Child.Talk} (quiet : Quiet talk) :
      Earlier settings started none (shown started :: talk)
  | asked {before after : Child.Talk} {stopped : Nat} (quiet : Quiet before) (calm : Quiet after) :
      Earlier settings started (some stopped)
        (shown started :: before ++ [sent .terminate, shown stopped] ++ after)

theorem Earlier.snoc {settings : RunnerSettings} {started : Nat} {stopped : Option Nat}
    {talk : Child.Talk} (h : Earlier settings started stopped talk) (said : Sigma Child.Answer)
    (hsaid : ∀ stop, said.1 ≠ .signalGroup stop) :
    Earlier settings started stopped (talk ++ [said]) := by
  cases h with
  | patient quiet => exact .patient (quiet.append (quiet_singleton said hsaid))
  | asked quiet calm =>
      rw [List.append_assoc]
      exact .asked quiet (calm.append (quiet_singleton said hsaid))

theorem Earlier.look {settings : RunnerSettings} {started : Nat} {stopped : Option Nat}
    {talk : Child.Talk} (h : Earlier settings started stopped talk) (reading : Nat) :
    Earlier settings started stopped (talk ++ [seen, shown reading]) := by
  have hlooked := (h.snoc seen nofun).snoc (shown reading) nofun
  rwa [List.append_assoc] at hlooked

/-- What has been said before the phases of a supervision. -/
def Tells (settings : RunnerSettings) : Phase → Child.Talk → Prop
  | .opening, talk => talk = []
  | .looking started stopped, talk => Earlier settings started stopped talk
  | .running started stopped, talk =>
      ∃ earlier, Earlier settings started stopped earlier ∧ talk = earlier ++ [seen]
  | .early started stopped, talk => Earlier settings started stopped talk
  | .drowsy started stopped _, talk => Earlier settings started stopped talk
  | .late started, talk =>
      ∃ earlier reading, Earlier settings started none earlier ∧
        settings.timeout.toNanos ≤ reading - started ∧ talk = earlier ++ [seen, shown reading]
  | .asked started, talk =>
      ∃ before, Quiet before ∧ talk = shown started :: before ++ [sent .terminate]
  | .obstinate started stopped, talk =>
      ∃ earlier reading, Earlier settings started (some stopped) earlier ∧
        settings.killGrace.toNanos ≤ reading - stopped ∧ talk = earlier ++ [seen, shown reading]
  | .killed started stopped, talk =>
      ∃ earlier, Earlier settings started (some stopped) earlier ∧ talk = earlier ++ [sent .kill]
  | .gone started stopped status, talk =>
      ∃ earlier, Earlier settings started (some stopped) earlier ∧
        talk = earlier ++ [⟨.tryWait, .ok (some status)⟩]
  | .lost _ _ fault, talk => ∃ earlier, talk = earlier ++ [⟨.tryWait, .error fault⟩]
  | .givenUp _ _ _, _ => True
  | .over (.ended _ false), talk => Quiet talk
  | .over (.ended _ true), talk => [sent .terminate, sent .kill].Sublist talk
  | .over (.failed _), _ => True
  | .over (.panicked _), _ => True

theorem Earlier.quiet {settings : RunnerSettings} {started : Nat} {talk : Child.Talk}
    (h : Earlier settings started none talk) : Quiet talk := by
  cases h with
  | patient quiet => exact (quiet_singleton (shown started) nofun).append quiet

theorem Earlier.asked_kill {settings : RunnerSettings} {started stopped : Nat} {talk : Child.Talk}
    (h : Earlier settings started (some stopped) talk) :
    [sent .terminate, sent .kill].Sublist (talk ++ [sent .kill]) := by
  have hasked : [sent .terminate].Sublist talk := by
    cases h with
    | asked quiet calm => simp
  exact hasked.append (List.Sublist.refl [sent .kill])

theorem tells_move {settings : RunnerSettings} {phase after : Phase} {request : SupervisionRequest}
    {answer : request.Answer} {talk : Child.Talk} (h : Tells settings phase talk)
    (hmove : Moves settings phase request answer after) :
    Tells settings after (talk ++ [⟨request, answer⟩]) := by
  cases hmove with
  | start reading =>
      obtain rfl : talk = [] := h
      exact .patient nofun
  | seen => exact ⟨talk, h, rfl⟩
  | ended status => exact h.quiet.append (quiet_singleton ⟨.tryWait, .ok (some status)⟩ nofun)
  | leave status => exact ⟨talk, h, rfl⟩
  | lose fault => exact ⟨talk, rfl⟩
  | @inTime started stopped reading early fits =>
      obtain ⟨earlier, hearlier, rfl⟩ := h
      show Earlier settings started stopped (earlier ++ [seen] ++ [shown reading])
      rw [List.append_assoc]
      exact hearlier.look reading
  | overflow early past => trivial
  | outOfTime late =>
      obtain ⟨earlier, hearlier, rfl⟩ := h
      exact ⟨earlier, _, hearlier, late, List.append_assoc _ _ _⟩
  | outOfGrace late =>
      obtain ⟨earlier, hearlier, rfl⟩ := h
      exact ⟨earlier, _, hearlier, late, List.append_assoc _ _ _⟩
  | clock reading => exact h.snoc (shown reading) nofun
  | sleep => exact h.snoc ⟨.sleep _, ()⟩ nofun
  | terminate =>
      obtain ⟨earlier, reading, hearlier, -, rfl⟩ := h
      cases hearlier with
      | @patient talk quiet =>
          exact ⟨talk ++ [seen, shown reading], quiet.append (quiet_look reading), rfl⟩
  | @stop started reading =>
      obtain ⟨before, hbefore, rfl⟩ := h
      have hnothing : Quiet [] := nofun
      have hasked : Earlier settings started (some reading) _ := .asked hbefore hnothing
      rw [List.append_nil] at hasked
      show Earlier settings started (some reading)
        (shown started :: before ++ [sent .terminate] ++ [shown reading])
      rw [List.append_assoc]
      exact hasked
  | kill =>
      obtain ⟨earlier, reading, hearlier, -, rfl⟩ := h
      exact ⟨earlier ++ [seen, shown reading], hearlier.look reading, rfl⟩
  | reap answer =>
      obtain ⟨earlier, hearlier, rfl⟩ := h
      cases answer with
      | ok status => exact hearlier.asked_kill.trans (List.sublist_append_left _ _)
      | error fault => trivial
  | sweep =>
      obtain ⟨earlier, hearlier, rfl⟩ := h
      exact (hearlier.snoc ⟨.tryWait, .ok (some _)⟩ nofun).asked_kill
  | giveUp => trivial
  | bury answer => trivial

theorem tells_of_trail {settings : RunnerSettings} {talk : Child.Talk} {phase : Phase}
    (h : Trail (Moves settings) .opening talk phase) : Tells settings phase talk := by
  have hopening : Tells settings .opening [] := rfl
  exact h.tells tells_move hopening

/-! ## Points of the talk -/

section Points

variable {settings : RunnerSettings} {looks : Nat} {talk before after : Child.Talk}
  {rest : Program Child (Option Outcome)}

theorem moves_of_mem {said : Sigma Child.Answer}
    (h : Converses (supervise settings looks) (before ++ said :: after) rest) :
    ∃ phase between last, Tells settings phase before ∧ Moves settings phase said.1 said.2 between ∧
      Trail (Moves settings) between after last ∧ rest.Follows (Moves settings) Ends last := by
  obtain ⟨last, htrail, hrest⟩ := (follows_supervise settings looks).converses h
  obtain ⟨phase, hbefore, hlater⟩ := htrail.split
  cases hlater with
  | move hmove hafter => exact ⟨phase, _, last, tells_of_trail hbefore, hmove, hafter, hrest⟩

theorem Rising.le {first second : Nat} {earlier later : Child.Talk} (h : Rising (earlier ++ later))
    (hfirst : shown first ∈ earlier) (hsecond : shown second ∈ later) : first ≤ second := by
  rw [Rising, List.filterMap_append, List.pairwise_append] at h
  exact h.2.2 first (List.mem_filterMap.2 ⟨_, hfirst, rfl⟩) second
    (List.mem_filterMap.2 ⟨_, hsecond, rfl⟩)

theorem terminates_late (h : Converses (supervise settings looks) talk rest) (hrising : Rising talk)
    (htalk : talk = before ++ sent .terminate :: after) :
    ∃ started between reading, before = shown started :: (between ++ [seen, shown reading]) ∧
      Quiet before ∧ started + settings.timeout.toNanos ≤ reading := by
  subst htalk
  obtain ⟨phase, _, _, htells, hmove, -, -⟩ := moves_of_mem h
  cases hmove with
  | @terminate started =>
      obtain ⟨earlier, reading, hearlier, hlate, rfl⟩ := htells
      have hquiet : Quiet (earlier ++ [seen, shown reading]) :=
        hearlier.quiet.append (quiet_look reading)
      cases hearlier with
      | @patient between quiet =>
          rw [List.append_assoc] at hrising
          have hle : started ≤ reading := hrising.le (by simp) (by simp)
          exact ⟨started, between, reading, rfl, hquiet, by omega⟩

theorem kills_on_grounds (h : Converses (supervise settings looks) talk rest)
    (hrising : Rising talk) (htalk : talk = before ++ sent .kill :: after) :
    KillGrounds settings before := by
  subst htalk
  obtain ⟨phase, _, _, htells, hmove, -, -⟩ := moves_of_mem h
  cases hmove with
  | @kill started stopped =>
      obtain ⟨earlier, reading, hearlier, hlate, rfl⟩ := htells
      cases hearlier with
      | asked quiet calm =>
          rw [List.append_assoc] at hrising
          have hle : stopped ≤ reading := hrising.le (by simp) (by simp)
          exact .obstinate (by omega)
  | @sweep started stopped status =>
      obtain ⟨earlier, -, rfl⟩ := htells
      exact .ended earlier status
  | @giveUp started stopped fault =>
      obtain ⟨earlier, rfl⟩ := htells
      exact .failed earlier fault

theorem tells_of_outcome {outcome : Outcome}
    (h : Converses (supervise settings looks) talk (done (some outcome))) :
    Tells settings (.over outcome) talk := by
  obtain ⟨last, htrail, hrest⟩ := (follows_supervise settings looks).converses h
  obtain rfl : last = .over outcome := hrest
  exact tells_of_trail htrail

theorem ends_or_moves {phase : Phase} (h : rest.Follows (Moves settings) Ends phase) :
    (∃ result, rest = done result ∧ Ends result phase) ∨
      ∃ request next answer after, rest = ask request next ∧
        Moves settings phase request answer after := by
  cases rest with
  | done result => exact .inl ⟨result, rfl, h⟩
  | ask request next =>
      have hanswer : Nonempty (Child.Answer request) := by
        cases request with
        | tryWait => exact ⟨.ok none⟩
        | wait => exact ⟨.ok (.exited 0)⟩
        | signalGroup stop => exact ⟨()⟩
        | now => exact ⟨(0 : Nat)⟩
        | sleep nanos => exact ⟨()⟩
      obtain ⟨answer⟩ := hanswer
      obtain ⟨after, hmove, -⟩ := h answer
      exact .inr ⟨request, next, answer, after, rfl, hmove⟩

/-- Only a look may be left out, and only an outcome is the end. -/
theorem moves_of_pending {phase : Phase} (h : rest.Follows (Moves settings) Ends phase)
    (hlooking : ∀ started stopped, phase ≠ .looking started stopped)
    (hover : ∀ outcome, phase ≠ .over outcome) :
    ∃ request next answer after, rest = ask request next ∧
      Moves settings phase request answer after := by
  rcases ends_or_moves h with ⟨result, -, hend⟩ | hmoves
  · cases result with
    | none =>
        obtain ⟨started, stopped, hphase⟩ := hend
        exact absurd hphase (hlooking started stopped)
    | some outcome => exact absurd hend (hover outcome)
  · exact hmoves

theorem eq_done_of_over {outcome : Outcome}
    (h : rest.Follows (Moves settings) Ends (.over outcome)) : rest = done (some outcome) := by
  rcases ends_or_moves h with ⟨result, rfl, hend⟩ | ⟨_, _, _, _, -, hmove⟩
  · cases result with
    | none => exact nomatch hend
    | some found =>
        obtain rfl : outcome = found := Phase.over.inj hend
        rfl
  · cases hmove

theorem givesUp_of_trail {started : Nat} {stopped : Option Nat} {fault : OsFault} {last : Phase}
    (h : Trail (Moves settings) (.lost started stopped fault) after last)
    (hrest : rest.Follows (Moves settings) Ends last) : GivesUp fault after rest := by
  cases h with
  | rest =>
      obtain ⟨_, next, _, _, rfl, hmove⟩ := moves_of_pending hrest nofun nofun
      cases hmove with
      | giveUp => exact .killing next
  | move hkill hlater =>
      cases hkill with
      | giveUp =>
          cases hlater with
          | rest =>
              obtain ⟨_, next, _, _, rfl, hmove⟩ := moves_of_pending hrest nofun nofun
              cases hmove with
              | bury answer => exact .waiting next
          | move hwait hlast =>
              cases hwait with
              | bury answer =>
                  cases hlast with
                  | rest =>
                      obtain rfl := eq_done_of_over hrest
                      exact .over answer
                  | move hmove hnever => cases hmove

theorem gives_up (h : Converses (supervise settings looks) talk rest) {fault : OsFault}
    (htalk : talk = before ++ ⟨.tryWait, .error fault⟩ :: after) : GivesUp fault after rest := by
  subst htalk
  obtain ⟨phase, _, last, -, hmove, hafter, hrest⟩ := moves_of_mem h
  cases hmove with
  | lose => exact givesUp_of_trail hafter hrest

theorem countP_le_one {α : Type} {p : α → Bool} {items : List α}
    (h : ∀ before x after, items = before ++ x :: after → p x = true →
      ∀ y ∈ before, p y = false) : items.countP p ≤ 1 := by
  induction items with
  | nil => simp
  | cons first items ih =>
      cases hfirst : p first with
      | false =>
          rw [List.countP_cons_of_neg (by simp [hfirst])]
          refine ih fun before x after hitems hx y hy => ?_
          exact h (first :: before) x after (by rw [hitems, List.cons_append]) hx y
            (List.mem_cons_of_mem first hy)
      | true =>
          have hnone : items.countP p = 0 := by
            refine List.countP_eq_zero.2 fun x hx hpx => ?_
            obtain ⟨before, after, rfl⟩ := List.append_of_mem hx
            have hfalse := h (first :: before) x after rfl hpx first List.mem_cons_self
            exact absurd hfirst (by simp [hfalse])
          rw [List.countP_cons_of_pos hfirst]
          omega

theorem eq_sent_of_isTerminate {said : Sigma Child.Answer} (h : isTerminate said = true) :
    said = sent .terminate := by
  unfold isTerminate at h
  split at h
  · rfl
  · cases h

theorem terminates_once (h : Converses (supervise settings looks) talk rest)
    (hrising : Rising talk) : talk.countP isTerminate ≤ 1 := by
  refine countP_le_one fun before said after htalk hsaid other hother => ?_
  rw [eq_sent_of_isTerminate hsaid] at htalk
  obtain ⟨_, _, _, -, hquiet, -⟩ := terminates_late h hrising htalk
  refine Bool.eq_false_iff.2 fun hterminate => ?_
  rw [eq_sent_of_isTerminate hterminate] at hother
  exact hquiet.not_mem .terminate hother

end Points

/-- Whatever a child answers to the looks and to the last wait, and whatever the clock shows as
long as it does not run backwards, a supervision keeps to the rules for signals at every point.
The group is asked to terminate once at most, and when the child was just seen running although
its time had passed.  The child counts as timed out exactly if the group was asked to terminate;
then the group is killed before the outcome, and else it is not signalled.  It is killed when the
child was seen to have ended, when the grace period has passed, or after a look that has failed,
which is followed by the kill, a wait and the fault of that look as the outcome. -/
theorem supervision_disciplined (settings : RunnerSettings) (looks : Nat) (talk : Child.Talk)
    (rest : Program Child (Option Outcome)) (h : Converses (supervise settings looks) talk rest)
    (hrising : Rising talk) : Disciplined settings talk rest where
  terminates_once := terminates_once h hrising
  terminates_late before after htalk := by
    obtain ⟨started, between, reading, hbefore, -, hlate⟩ := terminates_late h hrising htalk
    exact ⟨started, between, reading, hbefore, hlate⟩
  kills_on_grounds before after htalk := kills_on_grounds h hrising htalk
  timed_out_iff status timedOut hrest := by
    subst hrest
    have htells := tells_of_outcome h
    cases timedOut with
    | false =>
        have hquiet : Quiet talk := htells
        exact ⟨nofun, fun hmem => absurd hmem (hquiet.not_mem .terminate)⟩
    | true =>
        have hsent : [sent .terminate, sent .kill].Sublist talk := htells
        exact ⟨fun _ => hsent.subset (by simp), fun _ => rfl⟩
  killed_at_last status hrest := by
    subst hrest
    exact tells_of_outcome h
  untouched status hrest stop := by
    subst hrest
    have hquiet : Quiet talk := tells_of_outcome h
    exact hquiet.not_mem stop
  gives_up before fault after htalk := gives_up h htalk

/-- A child that ends when it is killed and not before.  The state is the time. -/
def stubborn : Surroundings Child Nat
  | .tryWait, clock => (.ok none, clock)
  | .wait, clock => (.ok (.signalled 9), clock)
  | .signalGroup _, clock => ((), clock)
  | .now, clock => (clock, clock)
  | .sleep nanos, clock => ((), clock + nanos)

def hasty : RunnerSettings where
  timeout := ⟨0, 3000000, by decide⟩
  pollInterval := ⟨0, 2000000, by decide⟩
  killGrace := ⟨0, 1000000, by decide⟩
  cwd := none
  scratchRoot := none
  captureLimit := 0

/-- The stubborn child is asked to terminate, and killed when that does not help. -/
theorem supervision_disciplined_on_stubborn :
    Converses (supervise hasty 6) ((supervise hasty 6).talk stubborn 5)
        (done (some (.ended (.signalled 9) true))) ∧
      Rising ((supervise hasty 6).talk stubborn 5) ∧
      Disciplined hasty ((supervise hasty 6).talk stubborn 5)
        (done (some (.ended (.signalled 9) true))) := by
  have hconverses : Converses (supervise hasty 6) ((supervise hasty 6).talk stubborn 5)
      (done (some (.ended (.signalled 9) true))) := converses_talk _ _
  have hrising : Rising ((supervise hasty 6).talk stubborn 5) := by
    unfold Rising
    decide +kernel
  exact ⟨hconverses, hrising, supervision_disciplined hasty 6 _ _ hconverses hrising⟩

end Supervision

end Handoff
