import ConfinedDb.Cache
import ConfinedDb.Error
import ConfinedDb.Registry
/-!
# The state of a connection

Everything about a connection that changes. Each update below is one step under the connection's
lock, and each is total: where its condition does not hold it leaves the state as it is, and the
caller tells from the state before the step what happened.
-/
namespace ConfinedDb

/-- The changing part of a connection. -/
structure State where
  /-- The open database. -/
  handle : Option DbHandle
  disposed : Bool
  /-- The thread that the connection is confined to. -/
  owner : Option ThreadId
  statements : Registry
  cache : Cache
deriving DecidableEq, Repr

namespace State

def initial : State := ⟨none, false, none, .empty, .empty⟩

instance : Inhabited State := ⟨initial⟩

def isOpen (s : State) : Bool := s.handle.isSome && !s.disposed

/-- Whether a disposal has dropped the bookkeeping of a statement. -/
def abandoned (s : State) (h : StmtHandle) : Bool := s.disposed && !s.statements.contains h

/-- The open database, or the reason why there is none. -/
def openHandle (s : State) : Except Error DbHandle :=
  if s.disposed then .error (Fault.misuse "connection is disposed")
  else match s.handle with
    | some h => .ok h
    | none => .error (Fault.notOpened "connection is not opened")

/-- Confines the connection to the thread that is about to open it. -/
def claim (t : ThreadId) (s : State) : State :=
  if s.disposed ∨ s.owner.isSome then s else { s with owner := some t }

/-- Gives up the claim of a thread whose open has failed. -/
def unclaim (t : ThreadId) (s : State) : State :=
  if s.owner = some t then { s with owner := none } else s

def install (h : DbHandle) (s : State) : State :=
  if s.disposed then s else { s with handle := some h }

/-- Marks the connection as disposed and takes the database and the owner out. -/
def retire (s : State) : State :=
  if s.disposed then s else { s with disposed := true, handle := none, owner := none }

/-- Takes the idle statement of a text out of the cache. -/
def lend (sql : String) (s : State) : State :=
  if s.isOpen then { s with cache := s.cache.take sql } else s

def register (h : StmtHandle) (sql : String) (s : State) : State :=
  if s.handle.isSome then { s with statements := s.statements.insert h sql } else s

/-- Offers a released statement to the cache. -/
def shelve (h : StmtHandle) (sql : String) (s : State) : State :=
  if s.isOpen then { s with cache := s.cache.offer sql h } else s

/-- Drops the bookkeeping of a statement that was finalized. -/
def forget (h : StmtHandle) (sql : String) (s : State) : State :=
  if s.abandoned h then s
  else { s with statements := s.statements.remove h, cache := s.cache.removeIf sql h }

def forgetAll (s : State) : State := { s with statements := .empty, cache := .empty }

end State

end ConfinedDb
