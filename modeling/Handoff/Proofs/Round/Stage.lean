import Handoff.Proofs.Round.Ledger
import Handoff.Proofs.Round.View
/-!
# The stages of a round

What holds of a view while the producer is in one phase and the poll in another.  A
round is prepared, opened by the offer and answered by one poll; the poll that has
answered may still be taking its last signal down when the next round is under way,
even when that is open already.
-/

namespace Handoff

namespace Interleaving

open WorkRequest

namespace View

variable (orders : Nat → Order)

structure Cleared (v : View) (rest : List Signal) : Prop where
  offered : .offered ∉ rest → v.standing = none
  finished : .finished ∉ rest → v.finished = none

def Reported (v : View) : Progress → Prop
  | .answered _ status =>
      v.finished = some (orders v.turn).id.payload ∧
        v.status (orders v.turn).id = some status.payload
  | _ => False

def Collected (entry : Option Status) : Progress → Prop
  | .answered _ status => entry = some status
  | _ => False

/-- What holds where the producer is. -/
def BotAt (v : View) (progress : Progress) : OfferPhase → Prop
  | .sweeping rest => progress = .preparing ∧ v.Cleared rest
  | .removing signal rest => progress = .preparing ∧ v.Cleared (signal :: rest)
  | .clear => progress = .preparing ∧ v.Cleared []
  | .waiting => (progress = .opened ∧ v.finished = none) ∨ v.Reported orders progress
  | .peeking => (progress = .opened ∧ v.finished = none) ∨ v.Reported orders progress
  | .seen => v.Reported orders progress
  | .collected entry => Collected entry progress
  | .returned entry => Collected entry progress
  | .failed _ => False

def Idle (v : View) (progress : Progress) : Prop :=
  ∀ number, v.standing = some number → number = v.turn ∧ progress = .opened

/-- The poll has read the offer of the current round, which nobody has answered. -/
structure Holding (v : View) (progress : Progress) (id : WorkUnitId)
    (standing : Option Nat) : Prop where
  unit : id = (orders v.turn).id
  opened : progress = .opened
  read : v.read = some v.turn
  standing : v.standing = standing

theorem Holding.idle {orders : Nat → Order} {v : View} {progress : Progress} {id : WorkUnitId}
    (h : v.Holding orders progress id (some v.turn)) : v.Idle progress :=
  fun _ hnumber => ⟨Option.some.inj (hnumber.symm.trans h.standing), h.opened⟩

def Left (v : View) (ran : Bool) (number : Nat) : Prop :=
  v.standing = none ∨ (ran = false ∧ v.standing = some number)

/-- Where the rounds stand while the poll that has answered `number` is not over. -/
inductive Trailing (v : View) (ran : Bool) (number : Nat) : Progress → Prop
  | same {status : Status} (current : number = v.turn) (left : v.Left ran number) :
      Trailing v ran number (.answered v.shift status)
  | next (late : number + 1 = v.turn) (left : v.Left ran number) :
      Trailing v ran number .preparing
  /-- The next producer has been faster. -/
  | overtaken (late : number + 1 = v.turn) (standing : v.standing = some v.turn) :
      Trailing v ran number .opened

theorem Trailing.idle {v : View} {number : Nat} {progress : Progress}
    (h : v.Trailing true number progress) : v.Idle progress := by
  intro other hother
  cases h with
  | same current left =>
      rcases left with hnone | ⟨hran, -⟩
      · rw [hnone] at hother
        cases hother
      · cases hran
  | next late left =>
      rcases left with hnone | ⟨hran, -⟩
      · rw [hnone] at hother
        cases hother
      · cases hran
  | overtaken late standing => exact ⟨Option.some.inj (hother.symm.trans standing), rfl⟩

/-- What holds where the tester is. -/
def TesterAt (v : View) (progress : Progress) : PollPhase → Prop
  | .looking (.ok none) => v.Idle progress
  | .looking (.ok (some id)) => v.Holding orders progress id (some v.turn)
  | .looking (.error _) => False
  | .surveying => False
  | .clearing => False
  | .unreachable id => v.Holding orders progress id (some v.turn)
  | .arrived id _ => v.Holding orders progress id (some v.turn)
  | .ready id => v.Holding orders progress id (some v.turn)
  | .claimed id => v.Holding orders progress id (some v.turn)
  | .running id _ => v.Holding orders progress id none
  | .judged ran id status =>
      v.Holding orders progress id (if ran then none else some v.turn) ∧
        v.status id = some status.payload
  | .announced ran id _ =>
      ∃ number, v.read = some number ∧ id = (orders number).id ∧ v.Trailing ran number progress
  | .ended _ => v.Idle progress

variable {orders} {v w : View} {progress : Progress} {bot : OfferPhase} {tester : PollPhase}

/-! ### What the two sides depend on -/

theorem BotAt.congr (h : v.BotAt orders progress bot) (hturn : w.turn = v.turn)
    (hstanding : w.standing = v.standing) (hfinished : w.finished = v.finished)
    (hstatus : w.status = v.status) : w.BotAt orders progress bot := by
  obtain ⟨turn, shift, standing, read, finished, status⟩ := v
  obtain ⟨turn', shift', standing', read', finished', status'⟩ := w
  dsimp only at hturn hstanding hfinished hstatus
  subst hturn hstanding hfinished hstatus
  cases bot with
  | sweeping rest => exact ⟨h.1, h.2.offered, h.2.finished⟩
  | removing signal rest => exact ⟨h.1, h.2.offered, h.2.finished⟩
  | clear => exact ⟨h.1, h.2.offered, h.2.finished⟩
  | waiting => cases progress <;> exact h
  | peeking => cases progress <;> exact h
  | seen => cases progress <;> exact h
  | collected entry => exact h
  | returned entry => exact h
  | failed fault => exact h

theorem Trailing.congr {ran : Bool} {number : Nat} (h : v.Trailing ran number progress)
    (hturn : w.turn = v.turn) (hshift : w.shift = v.shift)
    (hstanding : w.standing = v.standing) : w.Trailing ran number progress := by
  cases h with
  | same current left =>
      rw [← hshift]
      exact .same (current.trans hturn.symm) (by rwa [Left, hstanding])
  | next late left => exact .next (late.trans hturn.symm) (by rwa [Left, hstanding])
  | overtaken late standing =>
      exact .overtaken (late.trans hturn.symm) (by rw [hstanding, hturn, standing])

theorem Holding.congr {id : WorkUnitId} {standing : Option Nat}
    (h : v.Holding orders progress id standing) (hturn : w.turn = v.turn)
    (hstanding : w.standing = v.standing) (hread : w.read = v.read) :
    w.Holding orders progress id standing where
  unit := by rw [hturn, h.unit]
  opened := h.opened
  read := by rw [hread, hturn, h.read]
  standing := by rw [hstanding, h.standing]

theorem TesterAt.of_finished {finished : Option ByteArray}
    (h : v.TesterAt orders progress tester) :
    ({ v with finished } : View).TesterAt orders progress tester := by
  cases tester with
  | looking seen =>
      rcases seen with fault | _ | id
      · exact h
      · exact h
      · exact Holding.congr h rfl rfl rfl
  | surveying => exact h
  | clearing => exact h
  | unreachable id => exact Holding.congr h rfl rfl rfl
  | arrived id found => exact Holding.congr h rfl rfl rfl
  | ready id => exact Holding.congr h rfl rfl rfl
  | claimed id => exact Holding.congr h rfl rfl rfl
  | running id failed => exact Holding.congr h rfl rfl rfl
  | judged ran id status => exact ⟨h.1.congr rfl rfl rfl, h.2⟩
  | announced ran id status =>
      obtain ⟨number, hread, hid, htrailing⟩ := h
      exact ⟨number, hread, hid, htrailing.congr rfl rfl rfl⟩
  | ended id => exact h

theorem botAt_opened :
    v.BotAt orders .opened bot ↔ (bot = .waiting ∨ bot = .peeking) ∧ v.finished = none := by
  cases bot <;> simp [BotAt, Reported, Collected]

theorem BotAt.of_standing_none (h : v.BotAt orders progress bot) :
    ({ v with standing := none } : View).BotAt orders progress bot := by
  cases bot with
  | sweeping rest => exact ⟨h.1, fun _ => rfl, h.2.finished⟩
  | removing signal rest => exact ⟨h.1, fun _ => rfl, h.2.finished⟩
  | clear => exact ⟨h.1, fun _ => rfl, h.2.finished⟩
  | waiting => cases progress <;> exact h
  | peeking => cases progress <;> exact h
  | seen => cases progress <;> exact h
  | collected entry => exact h
  | returned entry => exact h
  | failed fault => exact h

theorem cleared_all : v.Cleared Signal.all where
  offered hnot := absurd (Signal.mem_all _) hnot
  finished hnot := absurd (Signal.mem_all _) hnot

theorem Cleared.tail {signal : Signal} {rest : List Signal} (h : v.Cleared (signal :: rest))
    (hoffered : signal = .offered → v.standing = none)
    (hfinished : signal = .finished → v.finished = none) : v.Cleared rest where
  offered hrest := by
    by_cases hsignal : signal = .offered
    · exact hoffered hsignal
    · exact h.offered (by simp [hrest, Ne.symm hsignal])
  finished hrest := by
    by_cases hsignal : signal = .finished
    · exact hfinished hsignal
    · exact h.finished (by simp [hrest, Ne.symm hsignal])

/-- Unless the round is open the tester holds no unit that is not answered. -/
theorem TesterAt.of_ne_opened (h : v.TesterAt orders progress tester)
    (hprogress : progress ≠ .opened) :
    (v.standing = none ∧ (tester = .looking (.ok none) ∨ ∃ id, tester = .ended id)) ∨
      ∃ ran id status, tester = .announced ran id status := by
  have hidle : v.Idle progress → v.standing = none := fun hidle => by
    cases hstanding : v.standing with
    | none => rfl
    | some number => exact absurd (hidle number hstanding).2 hprogress
  cases tester with
  | looking seen =>
      rcases seen with fault | _ | id
      · exact h.elim
      · exact .inl ⟨hidle h, .inl rfl⟩
      · exact absurd h.opened hprogress
  | surveying => exact h.elim
  | clearing => exact h.elim
  | unreachable id => exact absurd h.opened hprogress
  | arrived id found => exact absurd h.opened hprogress
  | ready id => exact absurd h.opened hprogress
  | claimed id => exact absurd h.opened hprogress
  | running id failed => exact absurd h.opened hprogress
  | judged ran id status => exact absurd h.1.opened hprogress
  | announced ran id status => exact .inr ⟨ran, id, status, rfl⟩
  | ended id => exact .inl ⟨hidle h, .inr ⟨id, rfl⟩⟩

theorem TesterAt.swept (h : v.TesterAt orders .preparing tester) :
    ({ v with standing := none } : View).TesterAt orders .preparing tester := by
  rcases h.of_ne_opened nofun with ⟨-, rfl | ⟨id, rfl⟩⟩ | ⟨ran, id, status, rfl⟩
  · exact nofun
  · exact nofun
  · obtain ⟨number, hread, hid, htrailing⟩ := h
    cases htrailing with
    | next late left => exact ⟨number, hread, hid, .next late (.inl rfl)⟩

theorem TesterAt.offer (h : v.TesterAt orders .preparing tester) :
    ({ v with standing := some v.turn } : View).TesterAt orders .opened tester := by
  rcases h.of_ne_opened nofun with ⟨-, rfl | ⟨id, rfl⟩⟩ | ⟨ran, id, status, rfl⟩
  · exact fun number hnumber => ⟨(Option.some.inj hnumber).symm, rfl⟩
  · exact fun number hnumber => ⟨(Option.some.inj hnumber).symm, rfl⟩
  · obtain ⟨number, hread, hid, htrailing⟩ := h
    cases htrailing with
    | next late left => exact ⟨number, hread, hid, .overtaken late rfl⟩

theorem TesterAt.nextOffer {poll : Nat} {status : Status}
    (h : v.TesterAt orders (.answered poll status) tester) :
    ({ v with turn := v.turn + 1 } : View).TesterAt orders .preparing tester := by
  rcases h.of_ne_opened nofun with ⟨hstanding, rfl | ⟨id, rfl⟩⟩ | ⟨ran, id, status, rfl⟩
  · exact fun number hnumber => nomatch hstanding.symm.trans hnumber
  · exact fun number hnumber => nomatch hstanding.symm.trans hnumber
  · obtain ⟨number, hread, hid, htrailing⟩ := h
    cases htrailing with
    | same current left => exact ⟨number, hread, hid, .next (congrArg Nat.succ current) left⟩

theorem TesterAt.idle (h : v.TesterAt orders progress tester) (hrests : tester.Rests) :
    v.Idle progress := by
  cases tester with
  | looking seen =>
      rcases seen with fault | _ | id
      · exact h.elim
      · exact h
      · exact h.idle
  | ended id => exact h
  | surveying => exact h.elim
  | clearing => exact h.elim
  | _ => exact hrests.elim

end View

end Interleaving

end Handoff
