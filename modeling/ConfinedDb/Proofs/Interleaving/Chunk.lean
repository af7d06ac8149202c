import ConfinedDb.Connection.Operation
/-!
# What an operation does between two native calls

The lock of a connection is never held over a native call, and everything an operation does between
two calls is steps under the lock and notices. `advance` carries out such a stretch: from a state it
goes to the next call of the engine, where the operation pauses, or to the end. Other operations can
only come in where an operation is paused.
-/
namespace ConfinedDb.Interleaving

/-- A stretch of an operation: what it reported, the state it left, and where it came to. -/
structure Chunk (π ω : Type) where
  notices : List Notice
  state : State
  next : π ⊕ ω

/-- An operation that waits for a call of the engine to return. -/
structure Paused (ω : Type) where
  call : EngineCall
  rest : call.Answer → Operation ω

namespace Chunk

variable {π ρ ω : Type}

def after (chunk : Chunk π ω) (notices : List Notice) : Chunk π ω :=
  { chunk with notices := notices ++ chunk.notices }

def map (f : π → ρ) (chunk : Chunk π ω) : Chunk ρ ω :=
  ⟨chunk.notices, chunk.state, chunk.next.map f id⟩

@[simp] theorem after_nil (chunk : Chunk π ω) : chunk.after [] = chunk := rfl

@[simp] theorem after_after (chunk : Chunk π ω) (xs ys : List Notice) :
    (chunk.after ys).after xs = chunk.after (xs ++ ys) := by
  simp [after]

@[simp] theorem map_after (f : π → ρ) (chunk : Chunk π ω) (xs : List Notice) :
    (chunk.after xs).map f = (chunk.map f).after xs := rfl

@[simp] theorem after_state (chunk : Chunk π ω) (xs : List Notice) :
    (chunk.after xs).state = chunk.state := rfl

@[simp] theorem after_next (chunk : Chunk π ω) (xs : List Notice) :
    (chunk.after xs).next = chunk.next := rfl

end Chunk

/-- Carries an operation on to its next call or to its end. -/
def advance {ω : Type} : Operation ω → State → Chunk (Paused ω) ω
  | .done result, s => ⟨[], s, .inr result⟩
  | .ask (.engine call) rest, s => ⟨[], s, .inl ⟨call, rest⟩⟩
  | .ask (.locked update) rest, s => advance (rest s) (update s)
  | .ask (.report notice) rest, s => (advance (rest ()) s).after [notice]

end ConfinedDb.Interleaving
