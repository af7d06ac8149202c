import ConfinedDb.Engine
import ConfinedDb.Table
/-!
# The recording engine

An engine without a database behind it. It records every call, keeps account of what is open and
what is bound, and can be told to fail. Each statement yields one row and is then done until it is
reset; the first column of the row is the parameter with number one, or the number of steps without
one.
-/
namespace ConfinedDb

/-- What an engine can be told to fail at. -/
inductive Primitive where
  | open
  | close
  | prepare
  | finalize
  | reset
  | clearBindings
  | exec
  | step
  | bind
  | errorMessage
deriving DecidableEq, Repr

/-- The primitive of a call; reading columns cannot be told to fail. -/
def EngineCall.primitive? : EngineCall → Option Primitive
  | .open .. => some .open
  | .close .. => some .close
  | .prepare .. => some .prepare
  | .finalize .. => some .finalize
  | .reset .. => some .reset
  | .clearBindings .. => some .clearBindings
  | .exec .. => some .exec
  | .errorMessage .. => some .errorMessage
  | .step .. => some .step
  | .bind .. => some .bind
  | .columnCount .. => none
  | .columnValue .. => none

structure LiveStatement where
  db : DbHandle
  steps : Nat
  bindings : Table Nat Value
deriving DecidableEq, Repr

/-- The state of the engine. -/
structure RecordingEngine where
  /-- The calls so far, oldest first. -/
  calls : List EngineCall
  /-- How many handles have been minted. -/
  minted : Nat
  databases : List DbHandle
  statements : Table StmtHandle LiveStatement
  /-- The codes that primitives have been told to return. -/
  failures : Table Primitive ResultCode
  /-- The primitives that have been told to return no handle. -/
  withheld : List Primitive
deriving DecidableEq, Repr

namespace RecordingEngine

def initial : RecordingEngine := ⟨[], 0, [], ∅, ∅, []⟩

instance : Inhabited RecordingEngine := ⟨initial⟩

/-- Makes every following call of a primitive return `rc`. -/
def fail (e : RecordingEngine) (p : Primitive) (rc : ResultCode) : RecordingEngine :=
  { e with failures := e.failures.insert p rc }

/-- Makes a primitive report success without a handle. -/
def withhold (e : RecordingEngine) (p : Primitive) : RecordingEngine :=
  { e with withheld := p :: e.withheld }

/-- Ends all failures. -/
def heal (e : RecordingEngine) : RecordingEngine := { e with failures := ∅, withheld := [] }

def clearCalls (e : RecordingEngine) : RecordingEngine := { e with calls := [] }

/-- How many recorded calls were calls of a primitive. -/
def callCount (e : RecordingEngine) (p : Primitive) : Nat :=
  e.calls.countP fun call => call.primitive? = some p

/-- How often the finalization of a statement was recorded. -/
def finalizeCount (e : RecordingEngine) (h : StmtHandle) : Nat :=
  e.calls.countP (· = .finalize h)

def isLive (e : RecordingEngine) (h : StmtHandle) : Bool := e.statements.contains h

/-- The code a primitive has been told to return. -/
def codeOf (e : RecordingEngine) (p : Primitive) : ResultCode := (e.failures.get? p).getD .ok

def record (e : RecordingEngine) (call : EngineCall) : RecordingEngine :=
  { e with calls := e.calls ++ [call] }

def nextHandle {r : Resource} (e : RecordingEngine) : Handle r := ⟨(e.minted + 1) * 8, by omega⟩

def hasStatements (e : RecordingEngine) (db : DbHandle) : Bool :=
  e.statements.entries.any (·.2.db = db)

/-- Answers the opening of a database. It mints a handle also when told to fail. -/
def answerOpen (e : RecordingEngine) : (Option DbHandle × ResultCode) × RecordingEngine :=
  if .open ∈ e.withheld then ((none, e.codeOf .open), e)
  else
    ((some e.nextHandle, e.codeOf .open),
      { e with minted := e.minted + 1, databases := e.nextHandle :: e.databases })

/-- Answers the closing of a database, which stays open while a statement of it is live. -/
def answerClose (e : RecordingEngine) (db : DbHandle) : ResultCode × RecordingEngine :=
  if !(e.codeOf .close).isOk then (e.codeOf .close, e)
  else if e.hasStatements db then (.busy, e)
  else (e.codeOf .close, { e with databases := e.databases.filter (· ≠ db) })

/-- Answers the preparation of a statement, which needs an open database. -/
def answerPrepare (e : RecordingEngine) (db : DbHandle) :
    (Option StmtHandle × ResultCode) × RecordingEngine :=
  if !(e.codeOf .prepare).isOk ∨ .prepare ∈ e.withheld then ((none, e.codeOf .prepare), e)
  else if db ∉ e.databases then ((none, .misuse), e)
  else
    ((some e.nextHandle, e.codeOf .prepare),
      { e with
        minted := e.minted + 1
        statements := e.statements.insert e.nextHandle ⟨db, 0, ∅⟩ })

/-- Answers the finalization of a statement, which is released also when told to fail. -/
def answerFinalize (e : RecordingEngine) (h : StmtHandle) : ResultCode × RecordingEngine :=
  if e.isLive h then (e.codeOf .finalize, { e with statements := e.statements.erase h })
  else (.misuse, e)

/-- Answers a primitive that changes a live statement, unless told to fail. -/
def answerChange (e : RecordingEngine) (p : Primitive) (h : StmtHandle)
    (change : LiveStatement → LiveStatement) : ResultCode × RecordingEngine :=
  if e.isLive h then
    if (e.codeOf p).isOk then
      (e.codeOf p, { e with statements := e.statements.modify h change })
    else (e.codeOf p, e)
  else (.misuse, e)

/-- Answers a step. A failure that was asked for comes first, also for a statement that is not
live. -/
def answerStep (e : RecordingEngine) (h : StmtHandle) : ResultCode × RecordingEngine :=
  if !(e.codeOf .step).isOk then (e.codeOf .step, e)
  else match e.statements.get? h with
    | some s =>
      (if s.steps = 0 then .row else .done,
        { e with statements := e.statements.insert h { s with steps := s.steps + 1 } })
    | none => (.misuse, e)

/-- Answers a binding, with failures first as for a step. -/
def answerBind (e : RecordingEngine) (h : StmtHandle) (index : Nat) (value : Value) :
    ResultCode × RecordingEngine :=
  if !(e.codeOf .bind).isOk then (e.codeOf .bind, e)
  else match e.statements.get? h with
    | some s =>
      (.ok, { e with
        statements := e.statements.insert h { s with bindings := s.bindings.insert index value } })
    | none => (.misuse, e)

def columnValue (e : RecordingEngine) (h : StmtHandle) (index : Nat) : Except Error Value :=
  match e.statements.get? h with
  | none => .error (.ofText s!"Unknown statement {h.display}")
  | some s =>
    if index ≠ 0 then .error (.ofText s!"Column {index} out of range")
    else .ok ((s.bindings.get? 1).getD (.integer (Int64.ofNat s.steps)))

def answer (e : RecordingEngine) : (call : EngineCall) → call.Answer × RecordingEngine
  | .open location flags => (e.record (.open location flags)).answerOpen
  | .close db => (e.record (.close db)).answerClose db
  | .prepare db sql => (e.record (.prepare db sql)).answerPrepare db
  | .finalize h => (e.record (.finalize h)).answerFinalize h
  | .reset h => (e.record (.reset h)).answerChange .reset h fun s => { s with steps := 0 }
  | .clearBindings h =>
    (e.record (.clearBindings h)).answerChange .clearBindings h fun s => { s with bindings := ∅ }
  | .exec db sql =>
    let rc := e.codeOf .exec
    ((rc, if rc.isOk then none else some s!"cannot execute `{sql}`"), e.record (.exec db sql))
  | .errorMessage _ =>
    (if e.failures.contains .errorMessage then .error (.ofText "error message unavailable")
      else .ok "mock engine error", e)
  | .step h => (e.record (.step h)).answerStep h
  | .bind h index value => (e.record (.bind h index value)).answerBind h index value
  | .columnCount h => (if e.isLive h then 1 else 0, e)
  | .columnValue h index => (e.columnValue h index, e)

end RecordingEngine

end ConfinedDb
