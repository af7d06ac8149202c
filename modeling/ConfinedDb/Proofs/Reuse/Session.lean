import ConfinedDb.Proofs.Reuse.Alone
/-!
# Sessions

A connection over the recording engine whose user does one thing at a time, on one thread
(`Session`). What he does next is a `Command`; it does not say whether a statement that is prepared
may go to the cache, which is for a policy to say. What he gets to see is the `trace`: the result of
every command, and the flags of his statements after it.

A session is a run in which no two actions overlap (**`carry_leads`**).
-/
namespace ConfinedDb.Interleaving

/-- A connection and its user, who has nothing under way. -/
structure Session where
  engine : RecordingEngine
  state : State
  /-- The statements in the hands of the user. -/
  statements : Table Nat Statement
  /-- How many statements have been lent. -/
  lent : Nat

/-- What a user does. A statement goes by the number under which it was lent. -/
inductive Command where
  | prepare (sql : String)
  | exec (sql : String)
  | use (n : Nat) (u : Use)
deriving DecidableEq, Repr

/-- What a user can tell of a statement without the engine. -/
structure Flags where
  sql : String
  hasBindings : Bool
  hasStepped : Bool
  hasRow : Bool
deriving DecidableEq, Repr

def flagsOf (st : Statement) : Flags := ⟨st.sql, st.hasBindings, st.hasStepped, st.hasRow⟩

namespace Session

def initial (e : RecordingEngine) : Session := ⟨e, .initial, ∅, 0⟩

def carry (c : Connection) (t : ThreadId) (σ : Session) (task : Task) : Outcome × Session :=
  let (o, e, s) := carryOut recording (task.operation c t) σ.engine σ.state
  (o, ⟨e, s, task.handBack σ.lent o (task.takeOver σ.statements), σ.lent + task.lends o⟩)

/-- The task of a command; the policy says how each statement is lent. -/
def task? (lending : Nat → Lending) (σ : Session) : Command → Option Task
  | .prepare sql => some (.prepare sql (lending σ.lent))
  | .exec sql => some (.exec sql)
  | .use n u => (σ.statements.get? n).map fun st => .use n st u

/-- Does what a command says, with its result; nothing if the user has no such statement. -/
def perform (c : Connection) (t : ThreadId) (lending : Nat → Lending) (σ : Session) (cmd : Command) :
    Option (Except Error Reply) × Session :=
  match σ.task? lending cmd with
  | some task =>
    let (o, σ') := σ.carry c t task
    (some o.result, σ')
  | none => (none, σ)

def flags (σ : Session) (n : Nat) : Option Flags := (σ.statements.get? n).map flagsOf

/-- What the user sees of a list of commands: after each one its result and the flags. -/
def trace (c : Connection) (t : ThreadId) (lending : Nat → Lending) :
    Session → List Command → List (Option (Except Error Reply) × (Nat → Option Flags))
  | _, [] => []
  | σ, cmd :: rest =>
    let (result, σ') := σ.perform c t lending cmd
    (result, σ'.flags) :: σ'.trace c t lending rest

/-- The session of a connection that has nothing under way. -/
def ofWorld {M : Machine} (w : World M recording) : Session :=
  ⟨w.engine, w.state, w.statements, w.lent⟩

variable {c : Connection} {t : ThreadId}

/-- **What a session does is one of the ways in which the connection can run.** -/
theorem carry_leads {w : World (programs c) recording} (hw : w.frames = []) {a : Action}
    {task : Task} (ht : w.task? a = some task) :
    ∃ w', w.Leads w' ∧ ofWorld w' = ((ofWorld w).carry c t task).2 ∧ w'.frames = [] := by
  obtain ⟨w', hlater, hend⟩ := carryOut_later (task.operation c t) (w.entered t task) hw t task
    (!w.state.disposed) w.state
  have hstart : w.step (.start t a) = some (w.start t task) := by simp [World.step, ht]
  refine ⟨w', .cons hstart hlater.leads, ?_, hend.frames⟩
  simp only [ofWorld, hend.engine, hend.state, hend.statements, hend.lent]
  rfl

theorem carry_of_alone {σ : Session} {task : Task} {o : Outcome} {e' : RecordingEngine}
    {s' : State} (h : Alone c t recording σ.engine (phaseStart c t σ.state task) o e' s') :
    σ.carry c t task
      = (o, ⟨e', s', task.handBack σ.lent o (task.takeOver σ.statements),
          σ.lent + task.lends o⟩) := by
  simp only [carry, carryOut_of_alone h]

end Session

end ConfinedDb.Interleaving
