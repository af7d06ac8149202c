import ConfinedDb.Connection.Notice
import ConfinedDb.Program
/-!
# Operations of a connection

An operation of a connection is a program over three questions: a call of an engine primitive, a
step under the connection's lock, and a notice. The lock is never held over a call, so other
operations, on this thread or on others, may run while a call is in progress and find the state as
the steps so far have left it.
-/
namespace ConfinedDb

/-- What an operation asks for. -/
inductive Request where
  | engine (call : EngineCall)
  /-- Replaces the state by its update. -/
  | locked (update : State → State)
  | report (notice : Notice)

/-- What it is answered: a step under the lock is answered by the state before it. -/
abbrev Request.Answer : Request → Type
  | .engine call => call.Answer
  | .locked _ => State
  | .report _ => Unit

/-- An operation that ends with an `α`. -/
abbrev Operation := Program Request Request.Answer

/-- An operation that ends with an `α` or fails. -/
abbrev Attempt := ExceptT Error Operation

/-- The operation that asks nothing and has this result. -/
def Attempt.ofExcept {α : Type} (result : Except Error α) : Attempt α := ExceptT.mk (pure result)

namespace Operation

def engine (call : EngineCall) : Operation call.Answer := .query (Request.engine call)

/-- Updates the state and gives the one before. -/
def locked (update : State → State) : Operation State := .query (Request.locked update)

def peek : Operation State := locked id

def report (notice : Notice) : Operation Unit := .query (Request.report notice)

/-- The open database, or the reason why there is none. -/
def openHandle : Attempt DbHandle := do
  .ofExcept (← peek).openHandle

/-- Asks the engine for a message that is only reported; without one there is a notice. -/
def inquire (inquiry : Inquiry) (db : Option DbHandle) : Operation (Option String) := do
  match ← engine (.errorMessage db) with
  | .ok message => return some message
  | .error e =>
    report (.noMessage inquiry e)
    return none

end Operation

namespace Connection

open Operation

/-- Confinement: the thread that uses the connection must be its owner. -/
def checkOwner (c : Connection) (t owner : ThreadId) : Except Error Unit :=
  if t = owner then .ok ()
  else .error (Fault.confinementViolated
    s!"{c.label} confined({owner.display}) used({t.display})")

/-- Refuses a thread that is not the owner; without an owner every thread may go on. -/
def checkThread (c : Connection) (t : ThreadId) : Attempt Unit := do
  match (← peek).owner with
  | some owner => .ofExcept (c.checkOwner t owner)
  | none => return ()

/-- Turns a code that is no success into an error: it names the operation and what it was about, and
adds the engine's message unless that only repeats the latter. -/
def checkCode (c : Connection) (rc : ResultCode) (operation : String) (about : Option String) :
    Attempt Unit := do
  if rc.isOk then return ()
  else
    let subject := s!"{c.label} {operation}" ++ (about.map (" " ++ ·)).getD ""
    let message ← match (← peek).handle with
      | some h => inquire .failing (some h)
      | none => pure none
    let detail := match message with
      | some m => if about = some m then "" else s!" [{m}]"
      | none => ""
    let fault := Fault.engine rc (subject ++ detail)
    report (.failed fault)
    throw (Error.ofFault fault)

end Connection

end ConfinedDb
