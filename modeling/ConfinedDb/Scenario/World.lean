import ConfinedDb.Native.Engine
import ConfinedDb.Scenario.Step
/-!
# The world of a scenario

The connections and statements in their slots, the engine that they share, and what has been
reported since the current top-level step began.
-/
namespace ConfinedDb.Scenario

/-- Steps that run inside the calls of a primitive. -/
structure Hook where
  /-- How many more calls they run in. -/
  remaining : Nat
  steps : List Step

/-- The recording engine with what intervenes in its answers. -/
structure Rig where
  engine : RecordingEngine
  overrides : Table Primitive (List Override)
  hooks : Table Primitive Hook

inductive Backend where
  | recording (rig : Rig)
  | native (library : Native.ScriptedLibrary)

def Backend.initialRecording : Backend := .recording ⟨.initial, ∅, ∅⟩
def Backend.initialNative : Backend := .native .initial

/-- A statement slot. It stays taken while an operation on the statement is in progress. -/
structure StatementSlot where
  /-- The connection the statement belongs to. -/
  connection : Nat
  /-- The statement, none while it is in use. -/
  statement : Option Statement

/-- Everything that steps change. -/
structure World where
  /-- The working directory of the connections that are built. -/
  directory : Path
  backend : Backend
  /-- How many connections have been built. -/
  built : Nat
  /-- The states of the connections, by number. -/
  states : Table Nat State
  /-- The connections, by slot. -/
  connections : Table Nat Connection
  /-- The statements, by slot. -/
  statements : Table Nat StatementSlot
  /-- How many of the recorded calls are older than the current top-level step. -/
  older : Nat
  log : List Record
  hookReplies : List (Primitive × Reply)

def World.initial (directory : Path) (backend : Backend) : World :=
  ⟨directory, backend, 0, ∅, ∅, ∅, 0, [], []⟩

def World.callCount (w : World) : Nat :=
  match w.backend with
  | .recording rig => rig.engine.calls.length
  | .native library => library.calls.length

/-- Steps change the world. -/
abbrev Run := StateM World

/-- Where a step runs. -/
structure Place where
  thread : ThreadId
  /-- The threads that wait for it. -/
  waiting : List ThreadId
  /-- Whether log records are dropped. -/
  muted : Bool
  /-- Whether it runs inside a call. -/
  hooked : Bool

def Place.main : Place := ⟨⟨0⟩, [], false, false⟩

namespace Place

def log (place : Place) (r : Record) : Run Unit :=
  if place.muted then pure () else modify fun w => { w with log := w.log ++ [r] }

end Place

/-! ## The recording engine -/

def Override.apply (o : Override) : (call : EngineCall) → call.Answer → call.Answer
  | .open .., (handle, rc) => (o.handle.elim handle Handle.ofRaw?, o.code.getD rc)
  | .prepare .., (handle, rc) => (o.handle.elim handle Handle.ofRaw?, o.code.getD rc)
  | .exec .., (rc, message) => (o.code.getD rc, o.text.getD message)
  | .errorMessage .., message =>
    match o.error, o.text with
    | some e, _ => .error (.ofText e)
    | none, some (some text) => .ok text
    | none, _ => message
  | .close .., rc | .finalize .., rc | .reset .., rc | .clearBindings .., rc | .step .., rc
  | .bind .., rc => o.code.getD rc
  | .columnCount .., n => n
  | .columnValue .., v => v

/-- Applies an optional override. -/
def overridden (o : Option Override) (call : EngineCall) (answer : call.Answer) : call.Answer :=
  match o with
  | some o => o.apply call answer
  | none => answer

/-- Takes the next override of a primitive. -/
def Rig.nextOverride (rig : Rig) (p : Primitive) : Option Override × Rig :=
  match rig.overrides.get? p with
  | some (o :: rest) => (some o, { rig with overrides := rig.overrides.insert p rest })
  | _ => (none, rig)

/-- Takes one run of the hook of a primitive. -/
def Rig.nextHook (rig : Rig) (p : Primitive) : List Step × Rig :=
  match rig.hooks.get? p with
  | some ⟨remaining + 1, steps⟩ =>
    (steps, { rig with hooks := rig.hooks.insert p ⟨remaining, steps⟩ })
  | _ => ([], rig)

/-- Whether the override of a primitive is only taken after its hook has run. -/
def takenLate : Primitive → Bool
  | .reset | .clearBindings => true
  | _ => false

/-- Has the recording engine answer a call of a primitive: the answer, the override that is taken
already, the steps of the hook, and the rig after it. -/
def Rig.answer (rig : Rig) (p : Primitive) (call : EngineCall) :
    (call.Answer × Option Override × List Step) × Rig :=
  let (o, rig) := if takenLate p then (none, rig) else rig.nextOverride p
  let (answer, engine) := rig.engine.answer call
  let (steps, rig) := { rig with engine }.nextHook p
  ((answer, o, steps), rig)

/-- Takes the next override of a primitive, where there is a recording engine. -/
def takeOverride (p : Primitive) : Run (Option Override) := do
  let w ← get
  match w.backend with
  | .recording rig =>
    let (o, rig) := rig.nextOverride p
    set { w with backend := .recording rig }
    return o
  | .native _ => return none

/-- Changes the recording engine and what intervenes in it; refused where there is none. -/
def onRig (f : Rig → Rig) : Run Reply := do
  let w ← get
  match w.backend with
  | .recording rig =>
    set { w with backend := .recording (f rig) }
    return .done
  | .native _ => return .refused .malformed

/-! ## The native engine -/

/-- Changes the scripted library; refused where there is none. -/
def onLibrary (f : Native.ScriptedLibrary → Native.ScriptedLibrary) : Run Reply := do
  let w ← get
  match w.backend with
  | .native library =>
    set { w with backend := .native (f library) }
    return .done
  | .recording _ => return .refused .malformed

/-- Runs a routine of the native engine on the scripted library. -/
def runRoutine {α : Type} (place : Place) (library : Native.ScriptedLibrary)
    (routine : Native.Routine α) : Run α := do
  let handler : (q : Native.Request) → StateT Native.ScriptedLibrary Run q.Answer
    | .library call => modifyGet fun l => l.answer call
    | .report r => place.log r
  let (a, library) ← (routine.run handler).run library
  modify fun w => { w with backend := .native library }
  return a

/-! ## Connections -/

def World.stateOf (w : World) (c : Connection) : State := (w.states.get? c.number).getD .initial

/-- Updates the state of a connection and gives the one before. -/
def updateState (c : Connection) (update : State → State) : Run State :=
  modifyGet fun w =>
    (w.stateOf c, { w with states := w.states.insert c.number (update (w.stateOf c)) })

/-- Builds a connection with the next number. -/
def build (file : Option Path) : Run Connection :=
  modifyGet fun w =>
    (⟨w.built + 1, file, w.directory⟩, { w with built := w.built + 1 })

end ConfinedDb.Scenario
