/-!
# Programs over an interface

A program is the tree of requests it makes and of what it does on every answer.  It
can be run against any surroundings, cut off between two requests, or interleaved
with another program, because its requests are data.
-/

namespace Handoff

structure Interface where
  Request : Type
  Answer : Request → Type

/-- A program that makes requests of `I` and ends with a value. -/
inductive Program (I : Interface) (α : Type) : Type where
  | done (value : α)
  | ask (request : I.Request) (next : I.Answer request → Program I α)

namespace Program

variable {I J : Interface} {α β γ : Type}

def bind : Program I α → (α → Program I β) → Program I β
  | done value, next => next value
  | ask request rest, next => ask request fun answer => (rest answer).bind next

instance : Monad (Program I) where
  pure := done
  bind := bind

@[simp] theorem pure_eq (value : α) : (pure value : Program I α) = done value := rfl

@[simp] theorem done_bind (value : α) (next : α → Program I β) :
    (done value >>= next) = next value := rfl

@[simp] theorem ask_bind (request : I.Request) (rest : I.Answer request → Program I α)
    (next : α → Program I β) :
    (ask request rest >>= next) = ask request fun answer => rest answer >>= next := rfl

theorem map_id (program : Program I α) : id <$> program = program := by
  induction program with
  | done _ => rfl
  | ask request rest ih => exact congrArg (ask request) (funext ih)

theorem bind_assoc (program : Program I α) (f : α → Program I β) (g : β → Program I γ) :
    (program >>= f) >>= g = program >>= fun a => f a >>= g := by
  induction program with
  | done _ => rfl
  | ask request rest ih => exact congrArg (ask request) (funext ih)

instance : LawfulMonad (Program I) :=
  LawfulMonad.mk' (Program I) map_id (fun _ _ => rfl) bind_assoc

def request (r : I.Request) : Program I (I.Answer r) :=
  ask r done

def run {m : Type → Type v} [Monad m] (answer : (r : I.Request) → m (I.Answer r)) :
    Program I α → m α
  | done value => pure value
  | ask r next => do
      let a ← answer r
      (next a).run answer

/-- The program with every request of `I` carried out by a program over `J`. -/
def through (translate : (r : I.Request) → Program J (I.Answer r)) :
    Program I α → Program J α :=
  run translate

theorem run_bind {m : Type → Type v} [Monad m] [LawfulMonad m]
    (answer : (r : I.Request) → m (I.Answer r)) (program : Program I α)
    (next : α → Program I β) :
    (program >>= next).run answer = program.run answer >>= fun a => (next a).run answer := by
  induction program with
  | done value => simp [run]
  | ask r rest ih => simp [run, ih]

end Program

end Handoff
