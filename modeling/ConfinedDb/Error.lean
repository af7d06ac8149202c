import ConfinedDb.ResultCode
/-!
# Errors

A fault is a failure that can be attributed: the engine refused, or a rule of the connection was
broken. An error carries a fault or a plain text as its cause, under the contexts that were put
around it on the way out.
-/
namespace ConfinedDb

/-- An attributable failure. -/
inductive Fault where
  /-- The engine returned a code that is no success. -/
  | engine (code : ResultCode) (message : String)
  /-- An operation on a disposed connection, a second open, or an open mode that does not apply. -/
  | misuse (message : String)
  /-- The connection was never opened, or was closed while an operation was in progress. -/
  | notOpened (message : String)
  /-- A confined operation was called from a thread that does not own the connection. -/
  | confinementViolated (message : String)
  /-- The engine broke its contract. -/
  | inconsistent (message : String)
deriving DecidableEq, Repr

namespace Fault

/-- The code of a fault: the engine's own, or the one that stands for the broken rule. -/
def code : Fault → ResultCode
  | engine code _ => code
  | misuse _ => .wrapperMisuse
  | notOpened _ => .notOpened
  | confinementViolated _ => .confinementViolated
  | inconsistent _ => .inconsistent

def display : Fault → String
  | engine code message => s!"{message} (code {code.display})"
  | misuse message => s!"misuse: {message}"
  | notOpened message => s!"not opened: {message}"
  | confinementViolated message => s!"confinement violated: {message}"
  | inconsistent message => s!"internal inconsistency: {message}"

end Fault

/-- What lies at the bottom of an error. -/
inductive Cause where
  | fault (f : Fault)
  | other (text : String)
deriving DecidableEq, Repr

def Cause.display : Cause → String
  | fault f => f.display
  | other text => text

/-- A cause and the contexts around it, outermost first. -/
structure Error where
  contexts : List String
  cause : Cause
deriving DecidableEq, Repr

namespace Error

def ofText (text : String) : Error := ⟨[], .other text⟩

def ofFault (f : Fault) : Error := ⟨[], .fault f⟩

instance : Coe Fault Error := ⟨ofFault⟩

def within (e : Error) (context : String) : Error := { e with contexts := context :: e.contexts }

/-- The fault at the bottom, if there is one. -/
def fault? (e : Error) : Option Fault :=
  match e.cause with
  | .fault f => some f
  | .other _ => none

/-- The outermost text alone. -/
def top (e : Error) : String :=
  match e.contexts with
  | context :: _ => context
  | [] => e.cause.display

/-- All texts, outermost first. -/
def chain (e : Error) : String := ": ".intercalate (e.contexts ++ [e.cause.display])

end Error

end ConfinedDb
