import Handoff.Proofs.Conduct
/-!
# Conversations

A conversation is the list of requests that a program has made so far, each with the
answer that it was given.  Conversations of a program that goes on with another, or that
is carried out over a second interface, fall apart into those of its parts.
-/

namespace Handoff

namespace Interface

def sum (I J : Interface) : Interface where
  Request := I.Request ⊕ J.Request
  Answer
    | .inl request => I.Answer request
    | .inr request => J.Answer request

/-- Requests with their answers, the first request first. -/
abbrev Talk (I : Interface) : Type :=
  List (Sigma I.Answer)

end Interface

namespace Program

variable {I J : Interface} {α β ρ : Type}

/-- The program makes the requests of the talk, is given the answers there, and then has
`rest` to do. -/
inductive Converses : Program I α → I.Talk → Program I α → Prop
  | pause (program : Program I α) : Converses program [] program
  | ask {request : I.Request} {next : I.Answer request → Program I α}
      {answer : I.Answer request} {talk : I.Talk} {rest : Program I α}
      (later : Converses (next answer) talk rest) :
      Converses (.ask request next) (⟨request, answer⟩ :: talk) rest

theorem converses_nil {program rest : Program I α} : Converses program [] rest ↔ rest = program := by
  constructor
  · intro h
    generalize hnil : ([] : I.Talk) = talk at h
    cases h with
    | pause => rfl
    | ask later => cases hnil
  · rintro rfl
    exact .pause _

theorem converses_done {value : α} {talk : I.Talk} {rest : Program I α} :
    Converses (done value) talk rest ↔ talk = [] ∧ rest = done value := by
  constructor
  · intro h
    cases h
    exact ⟨rfl, rfl⟩
  · rintro ⟨rfl, rfl⟩
    exact .pause _

theorem converses_request {request : I.Request} {talk : I.Talk}
    {rest : Program I (I.Answer request)} (h : Converses (Program.request request) talk rest) :
    talk = [] ∧ rest = Program.request request ∨
      ∃ answer, talk = [⟨request, answer⟩] ∧ rest = done answer := by
  cases h with
  | pause => exact .inl ⟨rfl, rfl⟩
  | @ask _ _ answer _ _ later =>
      obtain ⟨rfl, rfl⟩ := converses_done.1 later
      exact .inr ⟨answer, rfl, rfl⟩

theorem Converses.snoc {program : Program I α} {talk : I.Talk} {request : I.Request}
    {next : I.Answer request → Program I α} (h : Converses program talk (.ask request next))
    (answer : I.Answer request) :
    Converses program (talk ++ [⟨request, answer⟩]) (next answer) := by
  generalize hrest : Program.ask request next = rest at h
  induction h with
  | pause program =>
      subst hrest
      exact .ask (.pause _)
  | ask later ih => exact .ask (ih hrest)

/-- A talk of two programs, one after the other, breaks off in the first of them or goes
on with the second. -/
theorem Converses.bind_cases {program : Program I α} {next : α → Program I β} {talk : I.Talk}
    {rest : Program I β} (h : Converses (program >>= next) talk rest) :
    (∃ request wait, Converses program talk (.ask request wait) ∧
        rest = .ask request wait >>= next) ∨
      ∃ value first second, talk = first ++ second ∧ Converses program first (done value) ∧
        Converses (next value) second rest := by
  induction program generalizing talk with
  | done value => exact .inr ⟨value, [], talk, rfl, .pause _, h⟩
  | ask request wait ih =>
      rw [ask_bind] at h
      cases h with
      | pause => exact .inl ⟨request, wait, .pause _, rfl⟩
      | @ask _ _ answer talk _ later =>
          rcases ih answer later with
            ⟨other, more, hfirst, hrest⟩ | ⟨value, first, second, rfl, hfirst, hsecond⟩
          · exact .inl ⟨other, more, .ask hfirst, hrest⟩
          · exact .inr ⟨value, _, second, rfl, .ask hfirst, hsecond⟩

theorem Converses.split {program rest : Program I α} {first second : I.Talk}
    (h : Converses program (first ++ second) rest) :
    ∃ here, Converses program first here ∧ Converses here second rest := by
  induction first generalizing program with
  | nil => exact ⟨program, .pause program, h⟩
  | cons x first ih =>
      cases h with
      | ask later =>
          obtain ⟨here, hfirst, hsecond⟩ := ih later
          exact ⟨here, .ask hfirst, hsecond⟩

/-- A talk of two programs that begins with a whole talk of the first goes on with the second. -/
theorem Converses.of_bind {program : Program I α} {next : α → Program I β} {value : α}
    {first second : I.Talk} {rest : Program I β} (hfirst : Converses program first (done value))
    (h : Converses (program >>= next) (first ++ second) rest) :
    Converses (next value) second rest := by
  generalize hdone : done value = last at hfirst
  induction hfirst with
  | pause program =>
      subst hdone
      exact h
  | ask later ih =>
      cases h with
      | ask hlater => exact ih hlater hdone

theorem Converses.ok_bind {ε : Type} {program : ExceptT ε (Program I) α}
    {next : α → ExceptT ε (Program I) β} {talk : I.Talk} {value : β}
    (h : Converses (program >>= next).run talk (done (.ok value))) :
    ∃ found first second, talk = first ++ second ∧
      Converses program.run first (done (.ok found)) ∧
      Converses (next found).run second (done (.ok value)) := by
  rw [ExceptT.run_bind] at h
  rcases h.bind_cases with ⟨_, _, -, hrest⟩ | ⟨result, first, second, rfl, hfirst, hsecond⟩
  · cases hrest
  · cases result with
    | ok found => exact ⟨found, first, second, rfl, hfirst, hsecond⟩
    | error fault =>
        obtain ⟨-, hrest⟩ := converses_done.1 hsecond
        cases hrest

/-- A talk that keeps to the rules of conduct goes from phase to phase. -/
inductive Trail (moves : Conduct I ρ) : ρ → I.Talk → ρ → Prop
  | rest (phase : ρ) : Trail moves phase [] phase
  | move {phase between after : ρ} {request : I.Request} {answer : I.Answer request}
      {talk : I.Talk} (first : moves phase request answer between)
      (later : Trail moves between talk after) :
      Trail moves phase (⟨request, answer⟩ :: talk) after

theorem Trail.split {moves : Conduct I ρ} {phase after : ρ} {first second : I.Talk}
    (h : Trail moves phase (first ++ second) after) :
    ∃ between, Trail moves phase first between ∧ Trail moves between second after := by
  induction first generalizing phase with
  | nil => exact ⟨phase, .rest phase, h⟩
  | cons x first ih =>
      cases h with
      | move hmove later =>
          obtain ⟨between, hfirst, hsecond⟩ := ih later
          exact ⟨between, .move hmove hfirst, hsecond⟩

theorem Trail.tells {moves : Conduct I ρ} {tells : ρ → I.Talk → Prop}
    (hmoves : ∀ {phase request answer after talk}, tells phase talk →
      moves phase request answer after → tells after (talk ++ [⟨request, answer⟩]))
    {phase after : ρ} {earlier talk : I.Talk} (h : Trail moves phase talk after)
    (hphase : tells phase earlier) : tells after (earlier ++ talk) := by
  induction h generalizing earlier with
  | rest phase => rwa [List.append_nil]
  | move first later ih =>
      have hlater := ih (hmoves hphase first)
      rwa [List.append_assoc] at hlater

/-- A program that keeps to the rules does so in every talk. -/
theorem Follows.converses {moves : Conduct I ρ} {ends : α → ρ → Prop} {program rest : Program I α}
    {phase : ρ} {talk : I.Talk} (h : program.Follows moves ends phase)
    (hconverses : Converses program talk rest) :
    ∃ after, Trail moves phase talk after ∧ rest.Follows moves ends after := by
  induction hconverses generalizing phase with
  | pause program => exact ⟨phase, .rest phase, h⟩
  | ask later ih =>
      obtain ⟨between, hmove, hnext⟩ := h.step _
      obtain ⟨after, htrail, hrest⟩ := ih hnext
      exact ⟨after, .move hmove htrail, hrest⟩

/-- The talk of a program with surroundings that answer by their state, for as many requests
as are given at most, and what is left to do then. -/
def speak {σ : Type} (answer : (r : I.Request) → σ → I.Answer r × σ) :
    Nat → Program I α → σ → I.Talk × Program I α
  | count + 1, .ask request next, s =>
      let spoken := speak answer count (next (answer request s).1) (answer request s).2
      (⟨request, (answer request s).1⟩ :: spoken.1, spoken.2)
  | _, program, _ => ([], program)

theorem converses_speak {σ : Type} (answer : (r : I.Request) → σ → I.Answer r × σ)
    (count : Nat) (program : Program I α) (s : σ) :
    Converses program (speak answer count program s).1 (speak answer count program s).2 := by
  induction count generalizing program s with
  | zero => exact .pause _
  | succ count ih =>
      cases program with
      | done value => exact .pause _
      | ask request next => exact .ask (ih _ _)

/-! ## Programs carried out over another interface -/

/-- Every request of the first talk is carried out in the second, one after the other. -/
inductive Carries (translate : (r : I.Request) → Program J (I.Answer r)) :
    I.Talk → J.Talk → Prop
  | nil : Carries translate [] []
  | cons {request : I.Request} {answer : I.Answer request} {own : I.Talk} {part more : J.Talk}
      (first : Converses (translate request) part (done answer))
      (later : Carries translate own more) :
      Carries translate (⟨request, answer⟩ :: own) (part ++ more)

/-- A talk of a program that is carried out over another interface carries out a talk of the
program, but for a last request that it may have begun. -/
theorem Converses.through_cases {translate : (r : I.Request) → Program J (I.Answer r)}
    {program : Program I α} {talk : J.Talk} {rest : Program J α}
    (h : Converses (program.through translate) talk rest) :
    ∃ own here carried begun, talk = carried ++ begun ∧ Converses program own here ∧
      Carries translate own carried ∧
      (begun = [] ∧ rest = here.through translate ∨
        ∃ request next other wait later, here = .ask request next ∧
          Converses (translate request) begun (.ask other wait) ∧ rest = .ask other later) := by
  induction program generalizing talk with
  | done value =>
      obtain ⟨rfl, hrest⟩ := converses_done.1 h
      exact ⟨[], .done value, [], [], rfl, .pause _, .nil, .inl ⟨rfl, hrest⟩⟩
  | ask request next ih =>
      have hbind : Converses (translate request >>= fun answer => (next answer).through translate)
          talk rest := h
      rcases hbind.bind_cases with
        ⟨other, wait, hbegun, hrest⟩ | ⟨answer, first, second, rfl, hfirst, hsecond⟩
      · exact ⟨[], .ask request next, [], talk, rfl, .pause _, .nil,
          .inr ⟨request, next, other, wait, _, rfl, hbegun, hrest⟩⟩
      · obtain ⟨own, here, carried, begun, rfl, hown, hcarries, hbegun⟩ := ih answer hsecond
        exact ⟨_, here, _, begun, (List.append_assoc _ _ _).symm, .ask hown,
          .cons hfirst hcarries, hbegun⟩

end Program

end Handoff
