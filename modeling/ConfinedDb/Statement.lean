import ConfinedDb.Connection.Release
/-!
# Statements

A prepared statement lent by a connection. All its operations belong on the thread that owns the
connection. Three flags say what a release has to undo: whether parameters may be bound, whether the
statement may be under way, and whether its last step has brought a row.
-/
namespace ConfinedDb

/-- A statement in the hands of its user. -/
structure Statement where
  connection : Connection
  lending : Lending
  handle : StmtHandle
  sql : String
  hasBindings : Bool
  hasStepped : Bool
  hasRow : Bool
deriving DecidableEq, Repr

/-- An operation that changes a statement and ends with an `α` or fails; the statement keeps its
changes when it fails. -/
abbrev OnStatement := ExceptT Error (StateT Statement Operation)

namespace OnStatement

def ofAttempt {α : Type} (attempt : Attempt α) : OnStatement α :=
  ExceptT.mk (StateT.lift attempt.run)

def engine (call : EngineCall) : OnStatement call.Answer := ofAttempt (Operation.engine call)

end OnStatement

namespace Statement

open OnStatement

def fresh (connection : Connection) (lending : Lending) (handle : StmtHandle) (sql : String) :
    Statement :=
  ⟨connection, lending, handle, sql, false, false, false⟩

def display (s : Statement) : String := s!"[{s.sql}]{s.lending.label s.connection}"

/-- What must hold before any call on behalf of a statement. -/
def validate (t : ThreadId) : OnStatement Unit := do
  let s ← get
  ofAttempt (s.connection.checkThread t)
  ofAttempt (discard Operation.openHandle)

/-- Turns a code that is no success into an error of the statement's connection. -/
def checkCode (rc : ResultCode) (operation about : String) : OnStatement Unit := do
  let s ← get
  ofAttempt (s.connection.checkCode rc operation (some about))

def bind (t : ThreadId) (index : Nat) (value : Value) : OnStatement Unit := do
  validate t
  let s ← get
  let rc ← engine (.bind s.handle index value)
  set { s with hasBindings := true }
  checkCode rc "bind()" s!"parameter {index} of [{s.sql}]"

/-- Advances the statement and tells whether there is a row. -/
def step (t : ThreadId) : OnStatement Bool := do
  validate t
  let s ← get
  let rc ← engine (.step s.handle)
  set { s with hasStepped := true, hasRow := rc == ResultCode.row }
  if rc == ResultCode.row then return true
  else if rc == ResultCode.done then return false
  else
    checkCode rc "step()" s.sql
    return false

def columnCount (t : ThreadId) : OnStatement Nat := do
  validate t
  engine (.columnCount (← get).handle)

/-- Reads a column of the current row. -/
def column (t : ThreadId) (index : Nat) : OnStatement Value := do
  validate t
  let s ← get
  if s.hasRow then
    ofAttempt (ExceptT.mk (Operation.engine (.columnValue s.handle index)))
  else
    throw (Error.ofText s!"No row available to read column {index} from [{s.sql}]")

/-- Rewinds the statement so that it can run again, and drops its parameters if asked to. -/
def reset (t : ThreadId) (clearBindings : Bool) : OnStatement Unit := do
  validate t
  if (← get).hasStepped then
    let s ← get
    checkCode (← engine (.reset s.handle)) "reset()" s.sql
    set { s with hasStepped := false, hasRow := false }
  let s ← get
  if clearBindings && s.hasBindings then
    checkCode (← engine (.clearBindings s.handle)) "clearBindings()" s.sql
    set { s with hasBindings := false }

/-- Releases the statement on thread `t`. From a thread that is not the owner nothing is touched and
the handle stays registered; a handle that is not registered was finalized by a disposal. -/
def release (s : Statement) (t : ThreadId) : Operation Unit := do
  match ← (s.connection.checkThread t).run with
  | .error _ => Operation.report (.releasedByAlien s.lending s.sql)
  | .ok () =>
    if (← Operation.peek).statements.contains s.handle then
      match s.lending with
      | .cached => s.connection.putBack s.handle s.sql s.hasBindings s.hasStepped
      | .uncached => Connection.finalize s.handle s.sql
    else Operation.report (.alreadyFinalized s.lending s.sql)

end Statement

end ConfinedDb
