/-!
# Programs that ask

A program over an interface either has its result or asks one question and goes on with the answer.
The interface says which questions there are and what type of answer each has; what an answer is,
and what else happens while a question is open, is left to whoever runs the program. So one program
can be run against a recording engine, against a scripted library, or against any answers at all.
-/
namespace ConfinedDb

/-- A program that asks questions from `Q`, answered as `A` says, and ends with an `α`. -/
inductive Program (Q : Type) (A : Q → Type) (α : Type) : Type where
  | done (result : α)
  | ask (question : Q) (next : A question → Program Q A α)

namespace Program

variable {Q : Type} {A : Q → Type} {α β γ : Type}

/-- Goes on with another program once the result is there. -/
def andThen : Program Q A α → (α → Program Q A β) → Program Q A β
  | done a, f => f a
  | ask q next, f => ask q fun answer => (next answer).andThen f

instance : Monad (Program Q A) where
  pure := done
  bind := andThen

@[simp] theorem pure_eq (a : α) : (pure a : Program Q A α) = done a := rfl

@[simp] theorem done_bind (a : α) (f : α → Program Q A β) : done a >>= f = f a := rfl

@[simp] theorem ask_bind (q : Q) (next : A q → Program Q A α) (f : α → Program Q A β) :
    ask q next >>= f = ask q fun answer => next answer >>= f := rfl

theorem andThen_done (p : Program Q A α) : p.andThen done = p := by
  induction p with
  | done => rfl
  | ask q next ih => simp only [andThen, ih]

theorem andThen_assoc (p : Program Q A α) (f : α → Program Q A β) (g : β → Program Q A γ) :
    (p.andThen f).andThen g = p.andThen fun a => (f a).andThen g := by
  induction p with
  | done => rfl
  | ask q next ih => simp only [andThen, ih]

instance : LawfulMonad (Program Q A) :=
  LawfulMonad.mk' _ andThen_done (fun _ _ => rfl) andThen_assoc

def query (q : Q) : Program Q A (A q) := ask q done

/-- Runs a program by a handler that answers its questions. -/
def run {m : Type → Type} [Monad m] (answer : (q : Q) → m (A q)) : Program Q A α → m α
  | done a => pure a
  | ask q next => do (next (← answer q)).run answer

end Program

end ConfinedDb
