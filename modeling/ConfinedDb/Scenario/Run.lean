import ConfinedDb.Connection.Connecting
import ConfinedDb.Connection.Describe
import ConfinedDb.Scenario.World
/-!
# Running a scenario

Carries out steps. An operation of a connection is run as the program it is: its calls go to the
engine of the scenario, and the steps of a hook are carried out while such a call is in progress, on
the calling thread unless they name another.
-/
namespace ConfinedDb.Scenario

/-- How the steps of a hook are carried out: the place of the call, the primitive, the steps. -/
abbrev HookRunner := Place → Primitive → List Step → Run Unit

/-- Has the engine answer a call. -/
def answer (hooks : HookRunner) (place : Place) (call : EngineCall) : Run call.Answer := do
  let w ← get
  match w.backend with
  | .native library => runRoutine place library (Native.routine call)
  | .recording rig =>
    match call.primitive? with
    | none => return (rig.engine.answer call).1
    | some p =>
      let ((answer, early, steps), rig) := rig.answer p call
      set { w with backend := .recording rig }
      hooks place p steps
      let late ← if takenLate p then takeOverride p else pure none
      return overridden (early <|> late) call answer

/-- Carries out an operation of a connection. -/
def act {α : Type} (hooks : HookRunner) (place : Place) (c : Connection) (operation : Operation α) :
    Run α :=
  operation.run fun
    | .engine call => answer hooks place call
    | .locked update => updateState c update
    | .report notice => place.log (notice.record c)

def onConnection (c : Nat) (f : Connection → Run Reply) : Run Reply := do
  match (← get).connections.get? c with
  | some connection => f connection
  | none => return .refused .malformed

def onStatement (s : Nat) (f : Statement → Run Reply) : Run Reply := do
  match (← get).statements.get? s with
  | some ⟨_, some statement⟩ => f statement
  | _ => return .refused .noStatement

/-- Fills a statement slot; an empty one stays taken. -/
def setStatement (s : Nat) (connection : Connection) (statement : Option Statement) : Run Unit :=
  modify fun w => { w with statements := w.statements.insert s ⟨connection.number, statement⟩ }

/-- Carries out an operation on the statement of a slot, which is in use meanwhile. -/
def operate {α : Type} (hooks : HookRunner) (place : Place) (s : Nat) (op : OnStatement α)
    (reply : α → Reply) : Run Reply :=
  onStatement s fun statement => do
    setStatement s statement.connection none
    let (result, statement) ← act hooks place statement.connection (op.run.run statement)
    setStatement s statement.connection (some statement)
    return .ofResult reply result

/-- Puts a prepared statement into a slot. One that a hook has put there meanwhile is released. -/
def lodge (hooks : HookRunner) (place : Place) (s : Nat) (statement : Statement) : Run Unit := do
  let displaced := (← get).statements.get? s
  setStatement s statement.connection (some statement)
  match displaced with
  | some ⟨_, some old⟩ => act hooks place old.connection (old.release place.thread)
  | _ => pure ()

/-- Puts a connection into a slot. One that a hook has put there meanwhile goes out of use. -/
def settle (hooks : HookRunner) (place : Place) (c : Nat) (connection : Connection) : Run Unit := do
  let displaced := (← get).connections.get? c
  modify fun w => { w with connections := w.connections.insert c connection }
  match displaced with
  | some old => act hooks place old (Connection.drop place.thread)
  | none => pure ()

/-- Calls made through the recording engine. -/
def Rig.counts (rig : Rig) (h : StmtHandle) : Counts :=
  ⟨rig.engine.callCount .prepare, rig.engine.callCount .close, rig.engine.finalizeCount h,
    rig.engine.isLive h, rig.engine.calls.length⟩

/-- Why an unclear step is not carried out. The slot that it is about comes before the rest of it: a
taken one is not filled, and an empty one has no statement. -/
def refuseUnclear : Subject → Run Reply
  | .newConnection c => do
    if (← get).connections.contains c then return .refused .slotInUse
    else return .refused .malformed
  | .newStatement c s => onConnection c fun _ => do
    if (← get).statements.contains s then return .refused .slotInUse
    else return .refused .malformed
  | .statement s => onStatement s fun _ => return .refused .malformed

/-- Carries out a step that holds no other steps. -/
def carryOut (hooks : HookRunner) (place : Place) : Step → Run Reply
  | .construct c file => do
    if (← get).connections.contains c then return .refused .slotInUse
    else
      let connection ← build file
      act hooks place connection Connection.announce
      settle hooks place c connection
      return .done
  | .connect c url => do
    if (← get).connections.contains c then return .refused .slotInUse
    else match Options.parse url with
      | .error e => return .failed e
      | .ok options =>
        let connection ← build options.file
        match ← act hooks place connection (connection.connect place.thread options.mode).run with
        | .error e => return .failed e
        | .ok () =>
          settle hooks place c connection
          return .done
  | .openWriting c create => onConnection c fun connection =>
    .ofResult (fun _ => .flag true) <$>
      act hooks place connection (connection.openWriting place.thread create).run
  | .openDefault c => onConnection c fun connection =>
    .ofResult (fun _ => .done) <$>
      act hooks place connection (connection.openWriting place.thread true).run
  | .openReadOnly c => onConnection c fun connection =>
    .ofResult (fun _ => .done) <$>
      act hooks place connection (connection.openReadOnly place.thread).run
  | .exec c sql => onConnection c fun connection =>
    .ofResult (fun _ => .done) <$>
      act hooks place connection (connection.exec place.thread sql).run
  | .dispose c => onConnection c fun connection => do
    act hooks place connection (Connection.dispose place.thread)
    return .done
  | .dropConnection c => do
    if place.hooked then return .refused .connectionInUse
    else onConnection c fun connection => do
      if (← get).statements.values.any (·.connection = connection.number) then
        return .refused .connectionInUse
      else
        modify fun w => { w with connections := w.connections.erase c }
        act hooks place connection (Connection.drop place.thread)
        return .done
  | .connectionInfo c => onConnection c fun connection => return .connection connection
  | .describeConnection c => onConnection c fun connection => do
    let state := (← get).stateOf connection
    if state.cache.size ≤ 1 then return .text (connection.describe state)
    else return .refused .cacheOrder
  | .prepare c s sql lending => onConnection c fun connection => do
    if (← get).statements.contains s then return .refused .slotInUse
    else match ← act hooks place connection (connection.prepare place.thread sql lending).run with
      | .error e => return .failed e
      | .ok statement =>
        lodge hooks place s statement
        return .handle statement.handle
  | .bind s index value =>
    operate hooks place s (Statement.bind place.thread index value) fun _ => .done
  | .step s => operate hooks place s (Statement.step place.thread) .flag
  | .columnCount s => operate hooks place s (Statement.columnCount place.thread) .count
  | .column s index => operate hooks place s (Statement.column place.thread index) .value
  | .reset s clearBindings =>
    operate hooks place s (Statement.reset place.thread clearBindings) fun _ => .done
  | .release s => onStatement s fun statement => do
    setStatement s statement.connection none
    act hooks place statement.connection (statement.release place.thread)
    modify fun w => { w with statements := w.statements.erase s }
    return .done
  | .statementInfo s => onStatement s fun statement => return .statement statement
  | .describeStatement s => onStatement s fun statement => return .text statement.describe
  | .call call => .answered call <$> answer hooks place call
  | .fail p code => onRig fun rig => { rig with engine := rig.engine.fail p code }
  | .withhold p => onRig fun rig => { rig with engine := rig.engine.withhold p }
  | .heal => onRig fun rig => { rig with engine := rig.engine.heal }
  | .clearCalls => do
    let reply ← onRig fun rig => { rig with engine := rig.engine.clearCalls }
    modify fun w => { w with older := min w.older w.callCount }
    return reply
  | .counts h => do
    match (← get).backend with
    | .recording rig => return .counts (rig.counts h)
    | .native _ => return .refused .malformed
  | .override p o => onRig fun rig =>
    { rig with overrides := rig.overrides.insert p ((rig.overrides.get? p).getD [] ++ [o]) }
  | .hook p times steps => onRig fun rig =>
    { rig with hooks := rig.hooks.insert p ⟨times, steps⟩ }
  | .expect f reply => onLibrary (·.expect f reply)
  | .row columns => onLibrary fun library => { library with row := columns }
  | .version => do
    match (← get).backend with
    | .native library => .text <$> runRoutine place library Native.version
    | .recording _ => return .refused .malformed
  | .unclear subject => refuseUnclear subject
  | .onThread .. | .malformed | .silent .. => return .refused .malformed

/-- Carries out a step, with at most `depth` steps inside each other. -/
def perform : (depth : Nat) → Place → Step → Run Reply
  | 0, _, _ => return .refused .malformed
  | depth + 1, place, step =>
    match step with
    | .onThread t step =>
      if t = place.thread then perform depth place step
      else if t ∈ place.waiting then return .refused .threadBusy
      else perform depth { place with thread := t, waiting := place.thread :: place.waiting } step
    | .silent steps => do
      .all <$> steps.mapM fun step => perform depth { place with muted := true } step
    | step =>
      let hooks : HookRunner := fun place p steps =>
        steps.forM fun step => do
          let reply ← perform depth { place with hooked := true } step
          modify fun w => { w with hookReplies := w.hookReplies ++ [(p, reply)] }
      carryOut hooks place step

/-- The calls that reached the engine or the native library. -/
inductive Calls where
  | engine (calls : List EngineCall)
  | library (calls : List Native.LibraryCall)

/-- What can be seen of a connection from outside. -/
structure Sight where
  slot : Nat
  isOpen : Bool
  isDisposed : Bool
  statements : Nat
  cached : Nat
deriving DecidableEq, Repr

/-- What a top-level step shows: its reply, and what happened during it. -/
structure Observation where
  reply : Reply
  log : List Record
  calls : Calls
  hooks : List (Primitive × Reply)
  sights : List Sight
  /-- The live databases and statements, where they are counted. -/
  live : Option (Nat × Nat)

def World.newCalls (w : World) : Calls :=
  match w.backend with
  | .recording rig => .engine (rig.engine.calls.drop w.older)
  | .native library => .library (library.calls.drop w.older)

/-- The connections as seen from outside, by ascending slot. -/
def World.sights (w : World) : List Sight :=
  let seen := w.connections.entries.map fun (slot, c) =>
    let s := w.stateOf c
    Sight.mk slot s.isOpen s.disposed s.statements.size s.cache.size
  seen.mergeSort fun a b => a.slot ≤ b.slot

def World.live (w : World) : Option (Nat × Nat) :=
  match w.backend with
  | .recording rig => some (rig.engine.databases.length, rig.engine.statements.size)
  | .native _ => none

/-- Carries out a top-level step on the main thread. -/
def observe (depth : Nat) (step : Step) : Run Observation := do
  modify fun w => { w with older := w.callCount, log := [], hookReplies := [] }
  let reply ← perform depth .main step
  let w ← get
  return ⟨reply, w.log, w.newCalls, w.hookReplies, w.sights, w.live⟩

/-- Carries out the steps of a scenario. They can never lead deeper than their depth taken together:
every level is either a step inside a step or one run of a hook, and each run of a hook is counted
where the hook is installed. -/
def run (directory : Path) (backend : Backend) (steps : List Step) : List Observation :=
  ((steps.mapM (observe (depths steps + 1))).run (.initial directory backend)).1

end ConfinedDb.Scenario
