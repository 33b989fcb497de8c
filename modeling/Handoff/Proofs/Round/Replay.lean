import Handoff.Blob.Memory
import Handoff.Proofs.Round.Interleaving
/-!
# Runs that are played out

A run is determined by who takes which turn, once the answers of the surroundings are
fixed.  Played out on a store, a list of turns gives a state that the run reaches.
-/

namespace Handoff

namespace Interleaving

variable {σ : Type}

inductive Turn where
  | bot
  | tester
  | offer
  | poll (consumer : Consumer)
  | restart (consumer : Consumer)

def Turn.isOrderly : Turn → Bool
  | restart _ => false
  | _ => true

def Turn.isUnruly : Turn → Bool
  | offer => false
  | _ => true

/-- The answer to a request and the store after it, with fixed answers of all but the
store. -/
def serve (model : StoreModel σ) (surroundings : (request : WorkRequest) → request.Answer) :
    (request : WorkRequest) → σ → request.Answer × σ
  | .store call, store => model call store
  | request, store => (surroundings request, store)

theorem served_serve (model : StoreModel σ)
    (surroundings : (request : WorkRequest) → request.Answer) (request : WorkRequest)
    (store : σ) :
    Served model request store (serve model surroundings request store).1
      (serve model surroundings request store).2 := by
  cases request with
  | store call => rfl
  | _ => rfl

namespace State

variable (model : StoreModel σ) (surroundings : (request : WorkRequest) → request.Answer)
  (orders : Nat → Order)

def play (s : State σ) : Turn → Option (State σ)
  | .bot =>
      match s.bot with
      | .done _ => none
      | .ask request next =>
          let served := serve model surroundings request s.store
          some (s.botDid ⟨request, served.1⟩ served.2 (next served.1))
  | .tester =>
      match s.tester with
      | .done _ => none
      | .ask request next =>
          let served := serve model surroundings request s.store
          some (s.testerDid ⟨request, served.1⟩ served.2 (next served.1))
  | .offer =>
      match s.bot with
      | .done (.ok (some _)) => some (s.nextOffer orders)
      | _ => none
  | .poll consumer =>
      match s.tester with
      | .done () => some (s.nextPoll consumer)
      | _ => none
  | .restart consumer => some (s.restart consumer)

def playAll (s : State σ) : List Turn → Option (State σ)
  | [] => some s
  | turn :: rest => do (← s.play model surroundings orders turn).playAll rest

variable {model surroundings orders}

theorem acts_of_play_bot {s t : State σ}
    (h : s.play model surroundings orders .bot = some t) : Acts model s t := by
  simp only [play] at h
  split at h
  · cases h
  · next request next hbot =>
    cases h
    exact .bot hbot (served_serve model surroundings request s.store)

theorem acts_of_play_tester {s t : State σ}
    (h : s.play model surroundings orders .tester = some t) : Acts model s t := by
  simp only [play] at h
  split at h
  · cases h
  · next request next htester =>
    cases h
    exact .tester htester (served_serve model surroundings request s.store)

theorem orderly_of_play {s t : State σ} {turn : Turn} (hturn : turn.isOrderly = true)
    (h : s.play model surroundings orders turn = some t) : Orderly model orders s t := by
  cases turn with
  | bot => exact .act (acts_of_play_bot h)
  | tester => exact .act (acts_of_play_tester h)
  | offer =>
      simp only [play] at h
      split at h
      · next status hbot =>
        cases h
        exact .offer hbot
      · cases h
  | poll consumer =>
      simp only [play] at h
      split at h
      · next htester =>
        cases h
        exact .poll consumer htester
      · cases h
  | restart consumer => cases hturn

theorem unruly_of_play {s t : State σ} {turn : Turn} (hturn : turn.isUnruly = true)
    (h : s.play model surroundings orders turn = some t) : Unruly model s t := by
  cases turn with
  | bot => exact .act (acts_of_play_bot h)
  | tester => exact .act (acts_of_play_tester h)
  | offer => cases hturn
  | poll consumer =>
      simp only [play] at h
      split at h
      · next htester =>
        cases h
        exact .poll consumer htester
      · cases h
  | restart consumer =>
      cases h
      exact .restart consumer

/-- Turns that lead from a state to another make a run of steps. -/
theorem reaches_of_playAll {step : State σ → State σ → Prop} {allowed : Turn → Bool}
    {s t : State σ} {turns : List Turn}
    (hplay : ∀ {s t turn}, allowed turn = true →
      s.play model surroundings orders turn = some t → step s t)
    (hturns : turns.all allowed = true)
    (h : s.playAll model surroundings orders turns = some t) :
    Relation.ReflTransGen step s t := by
  induction turns generalizing s with
  | nil =>
      cases h
      exact .refl
  | cons turn rest ih =>
      obtain ⟨hturn, hrest⟩ := Bool.and_eq_true_iff.1 hturns
      obtain ⟨middle, hmiddle, hrun⟩ := Option.bind_eq_some_iff.1 h
      exact .head (hplay hturn hmiddle) (ih hrest hrun)

def returned? (s : State σ) : Option Status :=
  match s.bot with
  | .done (.ok status) => status
  | _ => none

theorem bot_of_returned? {s : State σ} {status : Status} (h : s.returned? = some status) :
    s.bot = .done (.ok (some status)) := by
  unfold returned? at h
  split at h
  · next found hbot => rw [hbot, h]
  · cases h

def testerCall? (s : State σ) : Option StoreCall :=
  match s.tester with
  | .ask (.store call) _ => some call
  | _ => none

theorem asks_of_testerCall? {s : State σ} {call : StoreCall} (h : s.testerCall? = some call) :
    ∃ next, s.tester = .ask (I := Work) (.store call) next := by
  unfold testerCall? at h
  split at h
  · next found next htester =>
    cases h
    exact ⟨next, htester⟩
  · cases h

def botCall? (s : State σ) : Option StoreCall :=
  match s.bot with
  | .ask (.store call) _ => some call
  | _ => none

theorem asks_of_botCall? {s : State σ} {call : StoreCall} (h : s.botCall? = some call) :
    ∃ next, s.bot = .ask (I := Work) (.store call) next := by
  unfold botCall? at h
  split at h
  · next found next hbot =>
    cases h
    exact ⟨next, hbot⟩
  · cases h

end State

/-! ## Surroundings that answer the same every time -/

/-- Every checkout comes to `checkout`, every command to `outcome`, no reload is wanted
and the clock stands still. -/
def steady (checkout : WorkUnitId → Option WorkUnitId) (outcome : Option ExecutionRecord) :
    (request : WorkRequest) → request.Answer
  | .store _ => .error .poisoned
  | .checkOut id => .ok (checkout id)
  | .reloadWanted => false
  | .run _ _ => .ok outcome
  | .print _ => ()
  | .now => (0 : Nat)
  | .sleep _ => ()

/-! ## Agents to play with -/

def retries (_ : Nat) : Order where
  producer := { pollInterval := Duration.ofSecs 1, timeout := Duration.ofSecs 60 }
  polls := 2
  id := ⟨"4f2c", by decide⟩

def twoUnits (number : Nat) : Order where
  producer := { pollInterval := Duration.ofSecs 1, timeout := Duration.ofSecs 60 }
  polls := 2
  id := if number = 0 then ⟨"A", by decide⟩ else ⟨"B", by decide⟩

def builder : Consumer where
  plan := { Plan.empty with commands := [{ argv := ["make"], env := StringMap.empty }] }
  start := .fresh
  pollInterval := Duration.ofSecs 1

def brokenBuild : ExecutionRecord where
  exitCode := 2
  timedOut := false
  stdout := ByteArray.empty
  stderr := ByteArray.empty

def idler : Consumer where
  plan := Plan.empty
  start := .reloaded
  pollInterval := Duration.ofSecs 1

end Interleaving

end Handoff
