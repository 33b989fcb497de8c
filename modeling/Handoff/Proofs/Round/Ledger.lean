import Handoff.Proofs.Round.Interleaving
/-!
# The ledger of the rounds

What the history of an orderly run says about the rounds so far: which producers have
made their offers, and which poll answered which producer with what status.
-/

namespace Handoff

namespace Interleaving

open WorkRequest

inductive Progress where
  /-- The producer has not made its offer yet. -/
  | preparing
  | opened
  /-- The poll announced the unit with the status. -/
  | answered (poll : Nat) (status : Status)

def Made (orders : Nat → Order) (history : List Event) (number : Nat) : Prop :=
  ∃ x ∈ recordOf (.producer number) history, x.request = raise .offered (orders number).id

/-- What the history says about the rounds, when the current producer is `turn`, the
current poll is `shift` and the round has come to `progress`. -/
structure Ledger (orders : Nat → Order) (history : List Event) (turn shift : Nat)
    (progress : Progress) : Prop where
  unborn : ∀ poll, shift < poll → recordOf (.poll poll) history = []
  honest : ∀ poll, Honest (recordOf (.poll poll) history)
  lenient : ∀ poll, Missed (recordOf (.poll poll) history) →
    verdict (recordOf (.poll poll) history) = .passed
  made : ∀ number, Made orders history number ↔
    number < turn ∨ (number = turn ∧ progress ≠ .preparing)
  current : ∀ poll, Answers orders history poll turn ↔ ∃ status, progress = .answered poll status
  told : ∀ poll status, progress = .answered poll status →
    verdict (recordOf (.poll poll) history) = status
  unique : ∀ number poll other, Answers orders history poll number →
    Answers orders history other number → other = poll
  started : ∀ poll number, Answers orders history poll number → number ≤ turn

variable {orders : Nat → Order} {history : List Event} {turn shift : Nat} {progress : Progress}

theorem Ledger.nil : Ledger orders [] 0 0 .preparing where
  unborn _ _ := rfl
  honest _ _ hx := absurd hx List.not_mem_nil
  lenient _ hmissed := absurd hmissed not_missed_nil
  made number := by
    constructor
    · rintro ⟨x, hx, -⟩
      exact absurd hx List.not_mem_nil
    · rintro (hlt | ⟨-, hne⟩)
      · omega
      · exact absurd rfl hne
  current poll := by
    constructor
    · rintro ⟨-, x, hx, -⟩
      exact absurd hx List.not_mem_nil
    · rintro ⟨status, hprogress⟩
      cases hprogress
  told _ _ hprogress := nomatch hprogress
  unique := by
    rintro _ _ _ ⟨-, x, hx, -⟩
    exact absurd hx List.not_mem_nil
  started := by
    rintro _ _ ⟨-, x, hx, -⟩
    exact absurd hx List.not_mem_nil

theorem recordOf_poll_producer {number poll : Nat} {x : Exchange} :
    recordOf (.poll poll) (⟨.producer number, x⟩ :: history) = recordOf (.poll poll) history :=
  recordOf_cons_of_ne nofun

theorem answers_producer {number poll other : Nat} {x : Exchange} :
    Answers orders (⟨.producer number, x⟩ :: history) poll other ↔
      Answers orders history poll other :=
  answers_cons_of_ne nofun

theorem made_producer {producer number : Nat} {x : Exchange} :
    Made orders (⟨.producer producer, x⟩ :: history) number ↔
      (number = producer ∧ x.request = raise .offered (orders producer).id) ∨
        Made orders history number := by
  by_cases hnumber : number = producer
  · subst hnumber
    simp only [Made, recordOf_cons_self, List.mem_cons, exists_eq_or_imp, true_and]
  · have hparty : Party.producer producer ≠ .producer number := by
      simpa using Ne.symm hnumber
    simp only [Made, recordOf_cons_of_ne hparty, hnumber, false_and, false_or]

theorem made_poll {poll number : Nat} {x : Exchange} :
    Made orders (⟨.poll poll, x⟩ :: history) number ↔ Made orders history number := by
  simp only [Made, recordOf_cons_of_ne (nofun : Party.poll poll ≠ .producer number)]

theorem Ledger.bot {x : Exchange} (h : Ledger orders history turn shift progress)
    (hx : ∀ id, x.request ≠ raise .offered id) :
    Ledger orders (⟨.producer turn, x⟩ :: history) turn shift progress where
  unborn := by simpa only [recordOf_poll_producer] using h.unborn
  honest := by simpa only [recordOf_poll_producer] using h.honest
  lenient := by simpa only [recordOf_poll_producer] using h.lenient
  made number := by
    rw [made_producer, h.made]
    exact or_iff_right fun hoffer => hx _ hoffer.2
  current poll := answers_producer.trans (h.current poll)
  told := by simpa only [recordOf_poll_producer] using h.told
  unique := by simpa only [answers_producer] using h.unique
  started := by simpa only [answers_producer] using h.started

theorem Ledger.offer {answer : Except StoreFault Unit}
    (h : Ledger orders history turn shift .preparing) :
    Ledger orders
      (⟨.producer turn, ⟨raise .offered (orders turn).id, answer⟩⟩ :: history) turn shift
      .opened where
  unborn := by simpa only [recordOf_poll_producer] using h.unborn
  honest := by simpa only [recordOf_poll_producer] using h.honest
  lenient := by simpa only [recordOf_poll_producer] using h.lenient
  made number := by
    rw [made_producer, h.made]
    simp [or_comm]
  current poll := by
    rw [answers_producer, h.current]
    simp
  told _ _ hprogress := nomatch hprogress
  unique := by simpa only [answers_producer] using h.unique
  started := by simpa only [answers_producer] using h.started

/-- The next producer comes when the one before it has its answer. -/
theorem Ledger.nextOffer {poll : Nat} {status : Status}
    (h : Ledger orders history turn shift (.answered poll status)) :
    Ledger orders history (turn + 1) shift .preparing where
  unborn := h.unborn
  honest := h.honest
  lenient := h.lenient
  made number := by
    rw [h.made]
    simp only [ne_eq, reduceCtorEq, not_false_eq_true, and_true, not_true_eq_false, and_false,
      or_false]
    omega
  current other := by
    constructor
    · intro hanswers
      have := h.started _ _ hanswers
      omega
    · rintro ⟨_, hprogress⟩
      cases hprogress
  told _ _ hprogress := nomatch hprogress
  unique := h.unique
  started poll number hanswers := Nat.le_succ_of_le (h.started poll number hanswers)

theorem Ledger.nextPoll (h : Ledger orders history turn shift progress) :
    Ledger orders history turn (shift + 1) progress :=
  { h with unborn := fun poll hpoll => h.unborn poll (by omega) }

/-! ## Exchanges of the poll -/

section Poll

variable {phase after : PollPhase} {request : WorkRequest} {answer : request.Answer}

theorem answers_poll (haccount : phase.Account (recordOf (.poll shift) history))
    (hmove : PollPhase.Moves phase request answer after)
    (hraise : ∀ id, request ≠ raise .finished id) (poll number : Nat) :
    Answers orders (⟨.poll shift, ⟨request, answer⟩⟩ :: history) poll number ↔
      Answers orders history poll number := by
  by_cases hpoll : poll = shift
  · subst hpoll
    rcases haccount.calm_or_lower hmove with ⟨failed, hcalm⟩ | ⟨signal, rfl⟩
    · have hafter : Calm (recordOf (.poll poll) (⟨.poll poll, ⟨request, answer⟩⟩ :: history))
          (failed || Exchange.isFailedRun ⟨request, answer⟩) := by
        rw [recordOf_cons_self]
        exact hcalm.cons hraise
      exact iff_of_false (not_answers_of_calm hafter) (not_answers_of_calm hcalm)
    · exact answers_cons_of_quiet nofun nofun
  · exact answers_cons_of_ne (by simpa using Ne.symm hpoll)

theorem answers_stays {poll number : Nat}
    (haccount : phase.Account (recordOf (.poll shift) history))
    (hmove : PollPhase.Moves phase request answer after)
    (hanswers : Answers orders history poll number) :
    Answers orders (⟨.poll shift, ⟨request, answer⟩⟩ :: history) poll number := by
  by_cases hpoll : poll = shift
  · subst hpoll
    rcases haccount.calm_or_lower hmove with ⟨failed, hcalm⟩ | ⟨signal, rfl⟩
    · exact absurd hanswers (not_answers_of_calm hcalm)
    · exact (answers_cons_of_quiet (x := ⟨lower signal, answer⟩) nofun nofun).2 hanswers
  · exact (answers_cons_of_ne (by simpa using Ne.symm hpoll)).2 hanswers

theorem verdict_poll {poll number : Nat}
    (haccount : phase.Account (recordOf (.poll shift) history))
    (hmove : PollPhase.Moves phase request answer after)
    (hanswers : Answers orders history poll number) :
    verdict (recordOf (.poll poll) (⟨.poll shift, ⟨request, answer⟩⟩ :: history)) =
      verdict (recordOf (.poll poll) history) := by
  by_cases hpoll : poll = shift
  · subst hpoll
    rw [recordOf_cons_self]
    rcases haccount.calm_or_lower hmove with ⟨failed, hcalm⟩ | ⟨signal, rfl⟩
    · exact absurd hanswers (not_answers_of_calm hcalm)
    · exact verdict_cons_of_not rfl
  · rw [recordOf_cons_of_ne (by simpa using Ne.symm hpoll)]

/-- What holds of the record of every poll still does, when it holds of the record of
the current one. -/
private theorem forall_recordOf_poll {p : List Exchange → Prop} {x : Exchange}
    (h : ∀ poll, p (recordOf (.poll poll) history))
    (hx : p (x :: recordOf (.poll shift) history)) (poll : Nat) :
    p (recordOf (.poll poll) (⟨.poll shift, x⟩ :: history)) := by
  by_cases hpoll : poll = shift
  · subst hpoll
    rwa [recordOf_cons_self]
  · rw [recordOf_cons_of_ne (by simpa using Ne.symm hpoll)]
    exact h poll

private theorem Ledger.records (h : Ledger orders history turn shift progress)
    (haccount : phase.Account (recordOf (.poll shift) history))
    (hlenient : phase.Lenient (recordOf (.poll shift) history))
    (hmove : PollPhase.Moves phase request answer after) (poll : Nat) :
    Honest (recordOf (.poll poll) (⟨.poll shift, ⟨request, answer⟩⟩ :: history)) ∧
      (Missed (recordOf (.poll poll) (⟨.poll shift, ⟨request, answer⟩⟩ :: history)) →
        verdict (recordOf (.poll poll) (⟨.poll shift, ⟨request, answer⟩⟩ :: history)) =
          .passed) := by
  have hall : ∀ poll, Honest (recordOf (.poll poll) history) ∧
      (Missed (recordOf (.poll poll) history) →
        verdict (recordOf (.poll poll) history) = .passed) :=
    fun poll => ⟨h.honest poll, h.lenient poll⟩
  refine forall_recordOf_poll (p := fun record => Honest record ∧
    (Missed record → verdict record = .passed)) hall ?_ poll
  exact ⟨(haccount.step hmove).honest, fun hmissed => (hlenient.step haccount hmove hmissed).2⟩

theorem Ledger.poll (h : Ledger orders history turn shift progress)
    (haccount : phase.Account (recordOf (.poll shift) history))
    (hlenient : phase.Lenient (recordOf (.poll shift) history))
    (hmove : PollPhase.Moves phase request answer after)
    (hraise : ∀ id, request ≠ raise .finished id) :
    Ledger orders (⟨.poll shift, ⟨request, answer⟩⟩ :: history) turn shift progress where
  unborn poll hpoll := by
    rw [recordOf_cons_of_ne (by simpa using Nat.ne_of_lt hpoll)]
    exact h.unborn poll hpoll
  honest poll := (h.records haccount hlenient hmove poll).1
  lenient poll := (h.records haccount hlenient hmove poll).2
  made number := made_poll.trans (h.made number)
  current poll := (answers_poll haccount hmove hraise poll turn).trans (h.current poll)
  told poll status hprogress := by
    rw [verdict_poll haccount hmove ((h.current poll).2 ⟨status, hprogress⟩)]
    exact h.told poll status hprogress
  unique := by simpa only [answers_poll haccount hmove hraise] using h.unique
  started := by simpa only [answers_poll haccount hmove hraise] using h.started

theorem answers_announce {poll number : Nat} {answer : Except StoreFault Unit}
    (hread : offerRead shift history = some turn) :
    Answers orders (⟨.poll shift, ⟨raise .finished (orders turn).id, answer⟩⟩ :: history) poll
        number ↔
      (poll = shift ∧ number = turn) ∨ Answers orders history poll number := by
  by_cases hpoll : poll = shift
  · subst hpoll
    have hcons : offerRead poll
        (⟨.poll poll, ⟨raise .finished (orders turn).id, answer⟩⟩ :: history) = some turn := by
      have hne : raise .finished (orders turn).id ≠ look .offered := nofun
      rw [offerRead_cons_of_ne_look hne, hread]
    simp only [Answers, hcons, hread, recordOf_cons_self, Option.some.injEq]
    constructor
    · rintro ⟨rfl, -⟩
      exact .inl ⟨trivial, rfl⟩
    · rintro (⟨-, rfl⟩ | ⟨rfl, x, hx, hraise⟩)
      · exact ⟨rfl, _, List.mem_cons_self, rfl⟩
      · exact ⟨rfl, x, List.mem_cons_of_mem _ hx, hraise⟩
  · rw [answers_cons_of_ne (by simpa using Ne.symm hpoll)]
    simp [hpoll]

theorem Ledger.announce {ran : Bool} {status : Status}
    (h : Ledger orders history turn shift .opened)
    (haccount : (PollPhase.judged ran (orders turn).id status).Account
      (recordOf (.poll shift) history))
    (hlenient : (PollPhase.judged ran (orders turn).id status).Lenient
      (recordOf (.poll shift) history))
    (hread : offerRead shift history = some turn) :
    Ledger orders (⟨.poll shift, ⟨raise .finished (orders turn).id, .ok ()⟩⟩ :: history) turn
      shift (.answered shift status) where
  unborn poll hpoll := by
    rw [recordOf_cons_of_ne (by simpa using Nat.ne_of_lt hpoll)]
    exact h.unborn poll hpoll
  honest poll := (h.records haccount hlenient (.write () .announce) poll).1
  lenient poll := (h.records haccount hlenient (.write () .announce) poll).2
  made number := by
    rw [made_poll, h.made]
    simp
  current poll := by
    rw [answers_announce hread, h.current]
    simp [eq_comm]
  told poll other hprogress := by
    cases hprogress
    rw [recordOf_cons_self]
    exact (haccount.write .announce).2.1
  unique number poll other hpoll hother := by
    have hnobody : ∀ poll, ¬Answers orders history poll turn := fun poll hanswers => by
      obtain ⟨status, hprogress⟩ := (h.current poll).1 hanswers
      cases hprogress
    rw [answers_announce hread] at hpoll hother
    rcases hpoll with ⟨rfl, rfl⟩ | hpoll
    · rcases hother with ⟨rfl, -⟩ | hother
      · rfl
      · exact absurd hother (hnobody other)
    · rcases hother with ⟨rfl, rfl⟩ | hother
      · exact absurd hpoll (hnobody poll)
      · exact h.unique number poll other hpoll hother
  started poll number hanswers := by
    rcases (answers_announce hread).1 hanswers with ⟨-, rfl⟩ | hanswers
    · exact Nat.le_refl _
    · exact h.started poll number hanswers

end Poll

end Interleaving

end Handoff
