import Handoff.Proofs.Performance
import Handoff.Proofs.Run.Supervising
/-!
# The deadlines of a supervision

A supervision in ideal time, in which a sleep takes what it says and nothing else takes any time
but the wait for a child that was killed.  It comes to an end, and both signals are sent less than
a millisecond after they are due.  When a deadline is past what the clock can show, the signal is
never sent: the supervision panics as soon as it sees the child running.
-/

namespace Handoff

open Program

namespace Supervision

def millisecond : Nat := 1000000

/-- Surroundings in which time passes in sleeps only, until the child is waited for. -/
structure IdealTime {σ : Type} (answer : Surroundings Child σ) (clock : σ → Nat) : Prop where
  now : ∀ s, (answer .now s).1 = clock s
  sleep : ∀ nanos s, clock (answer (.sleep nanos) s).2 = clock s + nanos
  clock_now : ∀ s, clock (answer .now s).2 = clock s
  clock_look : ∀ s, clock (answer .tryWait s).2 = clock s
  clock_signal : ∀ stop s, clock (answer (.signalGroup stop) s).2 = clock s

def enoughLooks (settings : RunnerSettings) : Nat :=
  settings.timeout.toNanos / sleepMin + settings.killGrace.toNanos / sleepMin + 4

/-- A sleep takes a millisecond at least, and ends less than a millisecond after the deadline. -/
theorem nextPoll_bounds {interval deadline clock : Nat} (h : clock < deadline) :
    sleepMin ≤ nextPoll interval deadline clock ∧
      clock + nextPoll interval deadline clock < deadline + sleepMin := by
  unfold nextPoll sleepMin
  omega

/-! ## The end of the loop -/

section Termination

variable {σ : Type} {answer : Surroundings Child σ} {clock : σ → Nat} {settings : RunnerSettings}
  {started looks : Nat} {s : σ}

theorem exists_outcome_of_judge (hideal : IdealTime answer clock) {stopped : Option Nat}
    (h : ∀ t, clock t = clock s →
      ∃ outcome, ((judge settings started looks stopped (clock t)).perform answer t).1 =
        some outcome) :
    ∃ outcome, ((loop settings started (looks + 1) stopped).perform answer s).1 =
      some outcome := by
  have hlook : Child.tryWait.perform answer s = answer .tryWait s := rfl
  rw [loop_succ, perform_bind, hlook]
  rcases (answer .tryWait s).1 with fault | _ | status
  · exact ⟨_, rfl⟩
  · have hnow : Child.now.perform answer (answer .tryWait s).2 =
        answer .now (answer .tryWait s).2 := rfl
    rw [respond, perform_bind, hnow, hideal.now, ← hideal.clock_now]
    exact h _ ((hideal.clock_now _).trans (hideal.clock_look s))
  · cases stopped with
    | none => exact ⟨_, rfl⟩
    | some stopped => exact ⟨_, rfl⟩

/-- A sleep brings what comes next, a millisecond later at least; without a sleep there is a
panic. -/
theorem exists_outcome_of_nap (hideal : IdealTime answer clock) {moment : Nat} {span : Duration}
    {next : Program Child (Option Outcome)}
    (h : ∀ t, clock s + sleepMin ≤ clock t → ∃ outcome, (next.perform answer t).1 = some outcome) :
    ∃ outcome, ((nap settings moment span next).perform answer s).1 = some outcome := by
  by_cases hfits : moment + span.toNanos < clockEnd
  · rw [nap_of_lt hfits]
    refine h (answer (.sleep _) (answer .now s).2).2 ?_
    rw [hideal.sleep, hideal.clock_now]
    exact Nat.add_le_add_left (Nat.le_max_right _ _) _
  · rw [nap_of_le (Nat.not_lt.1 hfits)]
    exact ⟨_, rfl⟩

theorem exists_outcome_of_late {stopped reading : Nat}
    (hlate : settings.killGrace.toNanos ≤ reading - stopped) (t : σ) :
    ∃ outcome, ((judge settings started looks (some stopped) reading).perform answer t).1 =
      some outcome := by
  rw [judge, if_pos hlate]
  exact ⟨_, congrArg Prod.fst (perform_bind killAndWait (fun outcome => done (some outcome)) t)⟩

/-- Once the group was asked to terminate, as many looks are enough as fit into the grace
period, and one more. -/
theorem exists_outcome_of_asked (hideal : IdealTime answer clock) {stopped : Nat} (count : Nat)
    (hcount : stopped + settings.killGrace.toNanos ≤ clock s + count * sleepMin)
    (hlooks : count < looks) :
    ∃ outcome, ((loop settings started looks (some stopped)).perform answer s).1 =
      some outcome := by
  induction looks generalizing s count with
  | zero => omega
  | succ looks ih =>
      refine exists_outcome_of_judge hideal fun t ht => ?_
      by_cases hlate : settings.killGrace.toNanos ≤ clock t - stopped
      · exact exists_outcome_of_late hlate t
      · obtain ⟨count, rfl⟩ : ∃ before, count = before + 1 :=
          Nat.exists_eq_succ_of_ne_zero (by rintro rfl; omega)
        rw [Nat.succ_mul] at hcount
        rw [judge, if_neg hlate]
        exact exists_outcome_of_nap hideal fun later hlater =>
          ih count (by omega) (by omega)

theorem exists_outcome_of_patient (hideal : IdealTime answer clock) (count spare : Nat)
    (hcount : started + settings.timeout.toNanos ≤ clock s + count * sleepMin)
    (hspare : settings.killGrace.toNanos ≤ spare * sleepMin) (hlooks : count + spare + 1 < looks) :
    ∃ outcome, ((loop settings started looks none).perform answer s).1 = some outcome := by
  induction looks generalizing s count with
  | zero => omega
  | succ looks ih =>
      refine exists_outcome_of_judge hideal fun t ht => ?_
      by_cases hlate : settings.timeout.toNanos ≤ clock t - started
      · rw [judge, if_pos hlate]
        let asked := (answer (.signalGroup .terminate) t).2
        have hclock : clock (answer .now asked).2 = (answer .now asked).1 := by
          rw [hideal.now, hideal.clock_now]
        refine exists_outcome_of_asked hideal spare ?_ (by omega) (s := (answer .now asked).2)
        rw [hclock]
        exact Nat.add_le_add_left hspare _
      · obtain ⟨count, rfl⟩ : ∃ before, count = before + 1 :=
          Nat.exists_eq_succ_of_ne_zero (by rintro rfl; omega)
        rw [Nat.succ_mul] at hcount
        rw [judge, if_neg hlate]
        exact exists_outcome_of_nap hideal fun later hlater =>
          ih count (by omega) (by omega)

/-- Enough looks bring an outcome, whatever the looks show. -/
theorem exists_outcome (hideal : IdealTime answer clock) (hlooks : enoughLooks settings ≤ looks)
    (s : σ) : ∃ outcome, ((supervise settings looks).perform answer s).1 = some outcome := by
  have hstart : clock (answer .now s).2 = (answer .now s).1 := by
    rw [hideal.now, hideal.clock_now]
  have hfits (span : Nat) : span ≤ (span / sleepMin + 1) * sleepMin := by
    have hdiv := Nat.div_add_mod span sleepMin
    have hmod : span % sleepMin < sleepMin := Nat.mod_lt _ (by decide)
    rw [Nat.succ_mul, Nat.mul_comm]
    omega
  refine exists_outcome_of_patient hideal (settings.timeout.toNanos / sleepMin + 1)
    (settings.killGrace.toNanos / sleepMin + 1) ?_ (hfits _) ?_ (s := (answer .now s).2)
  · rw [hstart]
    exact Nat.add_le_add_left (hfits _) _
  · unfold enoughLooks at hlooks
    omega

end Termination

/-! ## Children in ideal time -/

structure Vigil where
  clock : Nat
  /-- When the child ends as things stand, and how.  Without a fate it goes on for ever. -/
  fate : Option (Nat × ExitStatus)
  /-- The signals that were sent to its group, and when. -/
  sent : List (Stop × Nat)

namespace Vigil

def ending? (vigil : Vigil) : Option ExitStatus :=
  vigil.fate.bind fun fate => if fate.1 ≤ vigil.clock then some fate.2 else none

def RunsAt (vigil : Vigil) (moment : Nat) : Prop :=
  ∀ last status, vigil.fate = some (last, status) → moment < last

/-- Time passes until the child has ended.  A wait comes after a kill, so the child does end. -/
def finish (vigil : Vigil) : Except OsFault ExitStatus × Vigil :=
  match vigil.fate with
  | some (last, status) => (.ok status, { vigil with clock := max vigil.clock last })
  | none => (.error .noChild, vigil)

theorem finish_sent (vigil : Vigil) : vigil.finish.2.sent = vigil.sent := by
  unfold finish
  cases vigil.fate with
  | none => rfl
  | some fate => rfl

theorem ending?_eq_none {vigil : Vigil} :
    vigil.ending? = none ↔ vigil.RunsAt vigil.clock := by
  unfold ending? RunsAt
  cases vigil.fate with
  | none => simp
  | some fate =>
      obtain ⟨last, status⟩ := fate
      simp

theorem fate_of_ending? {vigil : Vigil} {status : ExitStatus} (h : vigil.ending? = some status) :
    ∃ last, vigil.fate = some (last, status) ∧ last ≤ vigil.clock := by
  unfold ending? at h
  obtain ⟨⟨last, found⟩, hfate, hlast⟩ := Option.bind_eq_some_iff.1 h
  split at hlast
  · next hle =>
    cases hlast
    exact ⟨last, hfate, hle⟩
  · cases hlast

theorem not_runsAt {vigil : Vigil} {status : ExitStatus} {moment : Nat}
    (h : vigil.ending? = some status) (hmoment : vigil.clock ≤ moment) : ¬vigil.RunsAt moment := by
  intro hruns
  obtain ⟨last, hfate, hlast⟩ := fate_of_ending? h
  have hlater := hruns last status hfate
  omega

end Vigil

/-- What becomes of a child: when it ends on its own, and how; how long it goes on when it is asked
to terminate at some time, if it does not go on for ever; and the same when it is killed. -/
structure Life where
  natural : Option (Nat × ExitStatus)
  asked : Nat → Option (Nat × ExitStatus)
  killed : Nat → Nat × ExitStatus

namespace Life

def fate (life : Life) (moment : Nat) : Stop → Option (Nat × ExitStatus)
  | .terminate => (life.asked moment).map fun (span, status) => (moment + span, status)
  | .kill => some (moment + (life.killed moment).1, (life.killed moment).2)

def signal (life : Life) (stop : Stop) (vigil : Vigil) : Vigil :=
  { vigil with
    fate := if vigil.ending?.isSome then vigil.fate else life.fate vigil.clock stop
    sent := vigil.sent ++ [(stop, vigil.clock)] }

def answer (life : Life) : (request : SupervisionRequest) → Vigil → request.Answer × Vigil
  | .tryWait, vigil => (.ok vigil.ending?, vigil)
  | .wait, vigil => vigil.finish
  | .signalGroup stop, vigil => ((), life.signal stop vigil)
  | .now, vigil => (vigil.clock, vigil)
  | .sleep nanos, vigil => ((), { vigil with clock := vigil.clock + nanos })

def surroundings (life : Life) : Surroundings Child Vigil := life.answer

def start (life : Life) (clock : Nat) : Vigil :=
  { clock, fate := life.natural, sent := [] }

theorem signal_ending? (life : Life) (stop : Stop) {vigil : Vigil} {status : ExitStatus}
    (h : vigil.ending? = some status) : (life.signal stop vigil).ending? = some status := by
  have hended : vigil.ending?.isSome = true := by rw [h]; rfl
  show (Option.bind (if vigil.ending?.isSome then _ else _) _) = some status
  rw [if_pos hended]
  exact h

theorem runsAt_start {life : Life} {began moment : Nat} {vigil : Vigil}
    (h : vigil.fate = life.natural) : (life.start began).RunsAt moment ↔ vigil.RunsAt moment := by
  rw [Vigil.RunsAt, Vigil.RunsAt, h]
  rfl

theorem idealTime (life : Life) : IdealTime life.surroundings Vigil.clock where
  now _ := rfl
  sleep _ _ := rfl
  clock_now _ := rfl
  clock_look _ := rfl
  clock_signal _ _ := rfl

end Life

/-- The clock cannot show the end of a span that begins at some moment. -/
def Overflows (moment : Nat) (span : Duration) : Prop :=
  0 < span.toNanos ∧ clockEnd ≤ moment + span.toNanos

/-- How the outcome and the signals that were sent keep to the deadlines. -/
structure Timely (settings : RunnerSettings) (life : Life) (began : Nat) (outcome : Outcome)
    (vigil : Vigil) : Prop where
  /-- A child that ends before its timeout is left alone. -/
  unhurried : ∀ last status, life.natural = some (last, status) →
    last < began + settings.timeout.toNanos →
    (outcome = .ended status false ∨ outcome = .panicked .clockOverflow) ∧ vigil.sent = []
  terminated : ¬Overflows began settings.timeout →
    vigil.RunsAt (began + settings.timeout.toNanos + millisecond) →
    ∃ moment, (.terminate, moment) ∈ vigil.sent ∧ began + settings.timeout.toNanos ≤ moment ∧
      moment < began + settings.timeout.toNanos + millisecond
  killed : ∀ asked, (.terminate, asked) ∈ vigil.sent → ¬Overflows asked settings.killGrace →
    vigil.RunsAt (asked + settings.killGrace.toNanos + millisecond) →
    ∃ moment, (.kill, moment) ∈ vigil.sent ∧ asked + settings.killGrace.toNanos ≤ moment ∧
      moment < asked + settings.killGrace.toNanos + millisecond
  /-- A panic comes with the first sight of a child whose deadline the clock cannot show. -/
  panicked_iff : outcome = .panicked .clockOverflow ↔
    ((life.start began).RunsAt began ∧ Overflows began settings.timeout) ∨
      ∃ asked, (.terminate, asked) ∈ vigil.sent ∧ vigil.RunsAt asked ∧
        Overflows asked settings.killGrace

/-! ## What each phase knows -/

/-- The clock has gone on from `moment` to `clock` in sleeps before the end of a span, which it
therefore can show. -/
structure Paced (moment : Nat) (span : Duration) (clock : Nat) : Prop where
  le : moment ≤ clock
  fits : moment < clock → moment + span.toNanos < clockEnd

namespace Paced

variable {moment clock : Nat} {span : Duration}

theorem start : Paced moment span moment :=
  ⟨Nat.le_refl moment, fun h => absurd h (Nat.lt_irrefl moment)⟩

theorem sleep (h : Paced moment span clock) (hfits : moment + span.toNanos < clockEnd)
    (nanos : Nat) : Paced moment span (clock + nanos) :=
  ⟨Nat.le_add_right_of_le h.le, fun _ => hfits⟩

theorem not_overflows (h : Paced moment span clock) (hdue : moment + span.toNanos ≤ clock) :
    ¬Overflows moment span := by
  rintro ⟨hpos, hpast⟩
  have hfits := h.fits (by omega)
  omega

theorem overflows (h : Paced moment span clock) (hearly : clock < moment + span.toNanos)
    (hpast : clockEnd ≤ moment + span.toNanos) : clock = moment ∧ Overflows moment span := by
  have hle := h.le
  have hfits : ¬moment < clock := fun hlt => Nat.not_lt.2 hpast (h.fits hlt)
  exact ⟨by omega, by omega, hpast⟩

theorem not_overflows_of_ended {vigil : Vigil} {status : ExitStatus}
    (h : Paced moment span vigil.clock) (hended : vigil.ending? = some status) :
    ¬(vigil.RunsAt moment ∧ Overflows moment span) := by
  rintro ⟨hruns, -, hpast⟩
  obtain ⟨last, hfate, hlast⟩ := Vigil.fate_of_ending? hended
  have hlater := hruns last status hfate
  have hfits := h.fits (Nat.lt_of_lt_of_le hlater hlast)
  omega

end Paced

section Phases

variable (settings : RunnerSettings) (life : Life) (began : Nat)

structure TimeToStop (moment : Nat) : Prop where
  fits : ¬Overflows began settings.timeout
  due : began + settings.timeout.toNanos ≤ moment
  soon : moment < began + settings.timeout.toNanos + millisecond
  /-- The child does not end on its own by then. -/
  slow : ∀ last status, life.natural = some (last, status) → moment < last

def Handled : Option Nat → Vigil → Prop
  | none, vigil =>
      vigil.sent = [] ∧ vigil.fate = life.natural ∧ Paced began settings.timeout vigil.clock
  | some stopped, vigil =>
      vigil.sent = [(.terminate, stopped)] ∧ TimeToStop settings life began stopped ∧
        Paced stopped settings.killGrace vigil.clock

/-- What a phase knows of the child and of the time. -/
def Knows : Phase → Vigil → Prop
  | .opening, vigil => vigil = life.start began
  | .looking started stopped, vigil =>
      started = began ∧ Handled settings life began stopped vigil ∧
        vigil.clock < due settings began stopped + millisecond
  | .running started stopped, vigil =>
      started = began ∧ Handled settings life began stopped vigil ∧
        vigil.clock < due settings began stopped + millisecond ∧ vigil.RunsAt vigil.clock
  | .early started stopped, vigil =>
      started = began ∧ Handled settings life began stopped vigil ∧
        vigil.clock < due settings began stopped ∧ due settings began stopped < clockEnd
  | .drowsy started stopped reading, vigil =>
      started = began ∧ Handled settings life began stopped vigil ∧
        vigil.clock < due settings began stopped ∧ due settings began stopped < clockEnd ∧
        reading = vigil.clock
  | .late started, vigil =>
      started = began ∧ Handled settings life began none vigil ∧
        TimeToStop settings life began vigil.clock
  | .asked started, vigil =>
      started = began ∧ Handled settings life began (some vigil.clock) vigil
  | .obstinate _ stopped, vigil =>
      Handled settings life began (some stopped) vigil ∧
        stopped + settings.killGrace.toNanos ≤ vigil.clock ∧
        vigil.clock < stopped + settings.killGrace.toNanos + millisecond
  | .killed _ stopped, vigil =>
      TimeToStop settings life began stopped ∧ ¬Overflows stopped settings.killGrace ∧
        ∃ moment, vigil.sent = [(.terminate, stopped), (.kill, moment)] ∧
          stopped + settings.killGrace.toNanos ≤ moment ∧
          moment < stopped + settings.killGrace.toNanos + millisecond
  | .gone _ stopped status, vigil =>
      Handled settings life began (some stopped) vigil ∧
        vigil.clock < due settings began (some stopped) + millisecond ∧
        vigil.ending? = some status
  | .lost _ _ _, _ => False
  | .givenUp _ _ _, _ => False
  | .over outcome, vigil => Timely settings life began outcome vigil

end Phases

section Course

variable {settings : RunnerSettings} {life : Life} {began : Nat}

theorem TimeToStop.timely {outcome : Outcome} {vigil : Vigil} {stopped : Nat}
    (h : TimeToStop settings life began stopped)
    (hsent : ∃ later, vigil.sent = (.terminate, stopped) :: later ∧
      ∀ asked, (.terminate, asked) ∉ later)
    (hkilled : ¬Overflows stopped settings.killGrace →
      vigil.RunsAt (stopped + settings.killGrace.toNanos + millisecond) →
      ∃ moment, (.kill, moment) ∈ vigil.sent ∧ stopped + settings.killGrace.toNanos ≤ moment ∧
        moment < stopped + settings.killGrace.toNanos + millisecond)
    (hpanicked : outcome = .panicked .clockOverflow ↔
      vigil.RunsAt stopped ∧ Overflows stopped settings.killGrace) :
    Timely settings life began outcome vigil := by
  obtain ⟨later, hsent, honce⟩ := hsent
  have hasked : (.terminate, stopped) ∈ vigil.sent := by
    rw [hsent]
    exact List.mem_cons_self
  have honly : ∀ asked, (.terminate, asked) ∈ vigil.sent → asked = stopped := by
    intro asked hmem
    rw [hsent] at hmem
    rcases List.mem_cons.1 hmem with heq | hlater
    · exact congrArg Prod.snd heq
    · exact absurd hlater (honce asked)
  refine ⟨fun last status hnatural hlast => ?_, fun _ _ => ?_, fun asked hmem => ?_, ?_⟩
  · have hslow := h.slow last status hnatural
    have hdue := h.due
    omega
  · exact ⟨stopped, hasked, h.due, h.soon⟩
  · obtain rfl := honly asked hmem
    exact hkilled
  · rw [hpanicked]
    constructor
    · exact fun hpanic => .inr ⟨stopped, hasked, hpanic⟩
    · rintro (⟨-, hover⟩ | ⟨asked, hmem, hpanic⟩)
      · exact absurd hover h.fits
      · obtain rfl := honly asked hmem
        exact hpanic

theorem Handled.sleep {stopped : Option Nat} {vigil : Vigil}
    (h : Handled settings life began stopped vigil)
    (hfits : due settings began stopped < clockEnd) (nanos : Nat) :
    Handled settings life began stopped { vigil with clock := vigil.clock + nanos } := by
  cases stopped with
  | none =>
      obtain ⟨hsent, hfate, hpaced⟩ := h
      exact ⟨hsent, hfate, hpaced.sleep hfits nanos⟩
  | some stopped =>
      obtain ⟨hsent, hstop, hpaced⟩ := h
      exact ⟨hsent, hstop, hpaced.sleep hfits nanos⟩

theorem Handled.kill {stopped : Nat} {vigil : Vigil}
    (h : Handled settings life began (some stopped) vigil) :
    (life.signal .kill vigil).sent = [(.terminate, stopped), (.kill, vigil.clock)] := by
  rw [Life.signal, h.1, List.singleton_append]

/-- A child that was left alone has kept its deadlines when it ended before them, and when the
clock cannot show the first of them. -/
theorem timely_of_untouched {outcome : Outcome} {vigil : Vigil} (hsent : vigil.sent = [])
    (houtcome : ∀ last status, life.natural = some (last, status) →
      outcome = .ended status false ∨ outcome = .panicked .clockOverflow)
    (hruns : vigil.RunsAt (began + settings.timeout.toNanos + millisecond) →
      Overflows began settings.timeout)
    (hpanicked : outcome = .panicked .clockOverflow ↔
      (life.start began).RunsAt began ∧ Overflows began settings.timeout) :
    Timely settings life began outcome vigil := by
  have hnone : ∀ said, said ∉ vigil.sent := by simp [hsent]
  refine ⟨fun last status hnatural _ => ⟨houtcome last status hnatural, hsent⟩,
    fun hfits hlong => absurd (hruns hlong) hfits, fun _ hmem => absurd hmem (hnone _), ?_⟩
  rw [hpanicked]
  constructor
  · exact .inl
  · rintro (hpanic | ⟨asked, hmem, -⟩)
    · exact hpanic
    · exact absurd hmem (hnone _)

theorem Handled.timely_of_overflow {stopped : Option Nat} {vigil : Vigil}
    (h : Handled settings life began stopped vigil) (hruns : vigil.RunsAt vigil.clock)
    (hearly : vigil.clock < due settings began stopped)
    (hpast : clockEnd ≤ due settings began stopped) :
    Timely settings life began (.panicked .clockOverflow) vigil := by
  cases stopped with
  | none =>
      obtain ⟨hsent, hfate, hpaced⟩ := h
      obtain ⟨hclock, hover⟩ := hpaced.overflows hearly hpast
      rw [hclock, ← Life.runsAt_start hfate] at hruns
      exact timely_of_untouched hsent (fun _ _ _ => .inr rfl) (fun _ => hover)
        (iff_of_true rfl ⟨hruns, hover⟩)
  | some stopped =>
      obtain ⟨hsent, hstop, hpaced⟩ := h
      obtain ⟨hclock, hover⟩ := hpaced.overflows hearly hpast
      rw [hclock] at hruns
      exact hstop.timely ⟨[], hsent, by simp⟩ (fun hfits => absurd hover hfits)
        (iff_of_true rfl ⟨hruns, hover⟩)

theorem Handled.timely_of_ended {vigil : Vigil} {status : ExitStatus}
    (h : Handled settings life began none vigil)
    (hclock : vigil.clock < began + settings.timeout.toNanos + millisecond)
    (hending : vigil.ending? = some status) :
    Timely settings life began (.ended status false) vigil := by
  obtain ⟨hsent, hfate, hpaced⟩ := h
  refine timely_of_untouched hsent (fun last found hnatural => .inl ?_)
    (fun hruns => absurd hruns (Vigil.not_runsAt hending (Nat.le_of_lt hclock)))
    (iff_of_false nofun fun hpanic => ?_)
  · obtain ⟨moment, hended, -⟩ := Vigil.fate_of_ending? hending
    rw [hfate, hnatural] at hended
    cases hended
    rfl
  · rw [Life.runsAt_start hfate] at hpanic
    exact hpaced.not_overflows_of_ended hending hpanic

/-- A child that ended in its grace period leaves a group that is killed at once. -/
theorem Handled.timely_of_gone {stopped : Nat} {vigil : Vigil} {status : ExitStatus}
    (h : Handled settings life began (some stopped) vigil)
    (hclock : vigil.clock < stopped + settings.killGrace.toNanos + millisecond)
    (hending : vigil.ending? = some status) :
    Timely settings life began (.ended status true) (life.signal .kill vigil) := by
  have hended := life.signal_ending? .kill hending
  have hkilled := h.kill
  obtain ⟨-, hstop, hpaced⟩ := h
  exact hstop.timely ⟨[(.kill, vigil.clock)], hkilled, by simp⟩
    (fun _ hruns => absurd hruns (Vigil.not_runsAt hended (Nat.le_of_lt hclock)))
    (iff_of_false nofun (Paced.not_overflows_of_ended hpaced hended))

theorem knows_move {phase after : Phase} {request : SupervisionRequest} {vigil : Vigil}
    (h : Knows settings life began phase vigil)
    (hmove : Moves settings phase request (life.surroundings request vigil).1 after) :
    Knows settings life began after (life.surroundings request vigil).2 := by
  generalize hanswer : (life.surroundings request vigil).1 = answer at hmove
  cases hmove with
  | start reading =>
      obtain rfl : vigil = life.start began := h
      obtain rfl : began = reading := hanswer
      refine ⟨rfl, ⟨rfl, rfl, .start⟩, ?_⟩
      show began < began + settings.timeout.toNanos + millisecond
      unfold millisecond
      omega
  | seen =>
      obtain ⟨hstarted, hhandled, hclock⟩ := h
      have hending : vigil.ending? = none := Except.ok.inj hanswer
      exact ⟨hstarted, hhandled, hclock, Vigil.ending?_eq_none.1 hending⟩
  | ended status =>
      obtain ⟨rfl, hhandled, hclock⟩ := h
      exact hhandled.timely_of_ended hclock (Except.ok.inj hanswer)
  | leave status =>
      obtain ⟨-, hhandled, hclock⟩ := h
      exact ⟨hhandled, hclock, Except.ok.inj hanswer⟩
  | lose fault => exact nomatch hanswer
  | @inTime started stopped reading early fits =>
      obtain ⟨rfl, hhandled, -, -⟩ := h
      obtain rfl : vigil.clock = reading := hanswer
      exact ⟨rfl, hhandled, early, fits⟩
  | @overflow started stopped reading early past =>
      obtain ⟨rfl, hhandled, -, hruns⟩ := h
      obtain rfl : vigil.clock = reading := hanswer
      exact hhandled.timely_of_overflow hruns early past
  | @outOfTime started reading late =>
      obtain ⟨rfl, ⟨hsent, hfate, hpaced⟩, hclock, hruns⟩ := h
      obtain rfl : vigil.clock = reading := hanswer
      have hle := hpaced.le
      have hdue : started + settings.timeout.toNanos ≤ vigil.clock := by omega
      rw [Vigil.RunsAt, hfate] at hruns
      exact ⟨rfl, ⟨hsent, hfate, hpaced⟩, hpaced.not_overflows hdue, hdue, hclock, hruns⟩
  | @outOfGrace started stopped reading late =>
      obtain ⟨rfl, ⟨hsent, hstop, hpaced⟩, hclock, hruns⟩ := h
      obtain rfl : vigil.clock = reading := hanswer
      have hle := hpaced.le
      have hdue : stopped + settings.killGrace.toNanos ≤ vigil.clock := by omega
      exact ⟨⟨hsent, hstop, hpaced⟩, hdue, hclock⟩
  | clock reading =>
      obtain ⟨hstarted, hhandled, hclock, hfits⟩ := h
      exact ⟨hstarted, hhandled, hclock, hfits, hanswer.symm⟩
  | sleep =>
      obtain ⟨rfl, hhandled, hclock, hfits, rfl⟩ := h
      exact ⟨rfl, hhandled.sleep hfits _, (nextPoll_bounds hclock).2⟩
  | terminate =>
      obtain ⟨rfl, ⟨hsent, hfate, -⟩, hstop⟩ := h
      have hsignalled : (life.signal .terminate vigil).sent = [(.terminate, vigil.clock)] := by
        rw [Life.signal, hsent, List.nil_append]
      exact ⟨rfl, hsignalled, hstop, .start⟩
  | stop reading =>
      obtain ⟨rfl, hsent, hstop, hstopped⟩ := h
      obtain rfl : vigil.clock = reading := hanswer
      refine ⟨rfl, ⟨hsent, hstop, hstopped⟩, ?_⟩
      show vigil.clock < vigil.clock + settings.killGrace.toNanos + millisecond
      unfold millisecond
      omega
  | @kill started stopped =>
      obtain ⟨hhandled, hdue, hsoon⟩ := h
      have hkilled := hhandled.kill
      obtain ⟨-, hstop, hpaced⟩ : Handled settings life began (some stopped) vigil := hhandled
      exact ⟨hstop, hpaced.not_overflows hdue, vigil.clock, hkilled, hdue, hsoon⟩
  | @reap started stopped answer =>
      obtain ⟨hstop, hfits, moment, hsent, hdue, hsoon⟩ := h
      rw [← vigil.finish_sent] at hsent
      have hkilled : (.kill, moment) ∈ vigil.finish.2.sent := by simp [hsent]
      refine hstop.timely ⟨[(.kill, moment)], hsent, by simp⟩
        (fun _ _ => ⟨moment, hkilled, hdue, hsoon⟩) (iff_of_false ?_ fun hpanic => hfits hpanic.2)
      cases answer <;> nofun
  | @sweep started stopped status =>
      obtain ⟨hhandled, hclock, hending⟩ := h
      exact hhandled.timely_of_gone hclock hending
  | giveUp => exact h.elim
  | bury answer => exact h.elim

/-- Enough looks bring an outcome for every child, and both signals are sent on time to a child
whose fate they decide, as long as the clock can show when they are due.  Where it cannot, the
outcome is a panic exactly when the child is seen running at the beginning of that time. -/
theorem deadlines_kept (settings : RunnerSettings) (looks : Nat)
    (hlooks : enoughLooks settings ≤ looks) :
    (∀ {σ : Type} {answer : Surroundings Child σ} {clock : σ → Nat}, IdealTime answer clock →
      ∀ s, ∃ outcome, ((supervise settings looks).perform answer s).1 = some outcome) ∧
    ∀ (life : Life) (began : Nat), ∃ outcome vigil,
      (supervise settings looks).perform life.surroundings (life.start began) =
          (some outcome, vigil) ∧
        Timely settings life began outcome vigil := by
  refine ⟨fun hideal => exists_outcome hideal hlooks, fun life began => ?_⟩
  obtain ⟨outcome, houtcome⟩ := exists_outcome life.idealTime hlooks (life.start began)
  obtain ⟨phase, hends, hknows⟩ := (follows_supervise settings looks).perform
    (show Knows settings life began .opening (life.start began) from rfl) knows_move
  rw [houtcome] at hends
  obtain rfl : phase = .over outcome := hends
  exact ⟨outcome, _, Prod.ext houtcome rfl, hknows⟩

/-- A child that goes on for ever, takes no notice of a request to terminate, and ends two
milliseconds after it was killed. -/
def endless : Life where
  natural := none
  asked _ := none
  killed _ := (2 * millisecond, .signalled 9)

/-- A time limit of one and a half milliseconds, looks without a pause, and no grace period. -/
def impatient : RunnerSettings where
  timeout := ⟨0, 1500000, by decide⟩
  pollInterval := .zero
  killGrace := .zero
  cwd := none
  scratchRoot := none
  captureLimit := 0

/-- The endless child is killed right after it was asked to terminate, and that is on time. -/
theorem deadlines_kept_on_endless :
    enoughLooks impatient ≤ 5 ∧ ∃ outcome vigil,
      (supervise impatient 5).perform endless.surroundings (endless.start 0) =
          (some outcome, vigil) ∧
        Timely impatient endless 0 outcome vigil := by
  have henough : enoughLooks impatient ≤ 5 := by decide
  exact ⟨henough, (deadlines_kept impatient 5 henough).2 endless 0⟩

def boundless : RunnerSettings :=
  { impatient with timeout := .ofSecs 9223372036854775808 }

/-- Under this limit the endless child is never asked to terminate: the first look ends in a
panic. -/
theorem terminate_lost_in_overflow :
    ∃ vigil, (supervise boundless (enoughLooks boundless)).perform endless.surroundings
          (endless.start 0) = (some (.panicked .clockOverflow), vigil) ∧
      vigil.RunsAt (0 + boundless.timeout.toNanos + millisecond) ∧
      ∀ moment, (.terminate, moment) ∉ vigil.sent := by
  have houtcome : ((supervise boundless (enoughLooks boundless)).perform endless.surroundings
      (endless.start 0)).1 = some (.panicked .clockOverflow) := by decide +kernel
  exact ⟨endless.start 0, Prod.ext houtcome rfl, nofun, nofun⟩

end Course

end Supervision

end Handoff
