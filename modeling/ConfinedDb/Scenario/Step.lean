import ConfinedDb.Connection.Preparing
import ConfinedDb.Native.ScriptedLibrary
import ConfinedDb.RecordingEngine
/-!
# Steps of a scenario

A scenario drives connections, statements and their engine step by step. Connections and statements
are kept in numbered slots. A step may name the thread that it runs on, and steps may be installed
as a hook: they then run inside the calls of a primitive, when the engine is done with it and before
the caller has the answer. Each step has a reply.
-/
namespace ConfinedDb.Scenario

/-- What replaces parts of an engine's answer. -/
structure Override where
  code : Option ResultCode
  /-- The raw handle, zero for none. -/
  handle : Option Nat
  /-- The message, or that there is none. -/
  text : Option (Option String)
  /-- The text of the error that replaces a message. -/
  error : Option String
deriving DecidableEq, Repr

/-- The slot that a step is about. -/
inductive Subject where
  /-- A connection slot to fill. -/
  | newConnection (c : Nat)
  /-- A statement slot to fill with what connection `c` prepares. -/
  | newStatement (c s : Nat)
  /-- The slot of a statement to operate on. -/
  | statement (s : Nat)
deriving DecidableEq, Repr

inductive Step where
  /-- Runs a step on a thread while the current one waits. -/
  | onThread (t : ThreadId) (step : Step)
  /-- A step that cannot be understood. -/
  | malformed
  /-- A step of which no more can be understood than what it is about. -/
  | unclear (subject : Subject)
  | construct (c : Nat) (file : Option Path)
  | connect (c : Nat) (url : String)
  | openWriting (c : Nat) (create : Bool)
  | openDefault (c : Nat)
  | openReadOnly (c : Nat)
  | exec (c : Nat) (sql : String)
  | dispose (c : Nat)
  | dropConnection (c : Nat)
  | connectionInfo (c : Nat)
  | describeConnection (c : Nat)
  | prepare (c s : Nat) (sql : String) (lending : Lending)
  | bind (s index : Nat) (value : Value)
  | step (s : Nat)
  | columnCount (s : Nat)
  | column (s index : Nat)
  | reset (s : Nat) (clearBindings : Bool)
  | release (s : Nat)
  | statementInfo (s : Nat)
  | describeStatement (s : Nat)
  /-- Calls the engine directly. -/
  | call (call : EngineCall)
  /-- Runs steps without log records. -/
  | silent (steps : List Step)
  | fail (p : Primitive) (code : ResultCode)
  | withhold (p : Primitive)
  | heal
  | clearCalls
  | counts (h : StmtHandle)
  /-- Queues an override for a primitive. -/
  | override (p : Primitive) (o : Override)
  /-- Installs a hook for the next `times` calls of a primitive. -/
  | hook (p : Primitive) (times : Nat) (steps : List Step)
  /-- Queues a reply of the native library. -/
  | expect (f : Native.LibraryFunction) (reply : Native.Reply)
  | row (columns : List Native.Column)
  | version

instance : Inhabited Step := ⟨.malformed⟩

mutual

/-- How deep a step can lead at most: itself, the steps in it, and all runs of the hooks in it. -/
def Step.depth : Step → Nat
  | .onThread _ step => step.depth + 1
  | .silent steps => depths steps + 1
  | .hook _ times steps => times * (depths steps + 1) + 1
  | _ => 1

/-- How deep steps can lead together. -/
def depths : List Step → Nat
  | [] => 0
  | step :: steps => step.depth + depths steps

end

inductive Refusal where
  | malformed
  | slotInUse
  | noStatement
  | connectionInUse
  | threadBusy
  /-- The cache holds several statements, and their order means nothing. -/
  | cacheOrder
deriving DecidableEq, Repr

def Refusal.message : Refusal → String
  | malformed => "bad step"
  | slotInUse => "slot in use"
  | noStatement => "no such statement"
  | connectionInUse => "connection in use"
  | threadBusy => "thread busy"
  | cacheOrder => "cache order is unspecified"

/-- How often primitives were called. -/
structure Counts where
  prepared : Nat
  closed : Nat
  finalized : Nat
  live : Bool
  all : Nat
deriving DecidableEq, Repr

inductive Reply where
  | done
  | flag (b : Bool)
  | count (n : Nat)
  | handle (h : StmtHandle)
  | value (v : Value)
  | failed (e : Error)
  | refused (r : Refusal)
  | text (s : String)
  | connection (c : Connection)
  | statement (s : Statement)
  | answered (call : EngineCall) (answer : call.Answer)
  | counts (c : Counts)
  | all (replies : List Reply)

def Reply.ofResult {α : Type} (reply : α → Reply) : Except Error α → Reply
  | .ok a => reply a
  | .error e => .failed e

end ConfinedDb.Scenario
