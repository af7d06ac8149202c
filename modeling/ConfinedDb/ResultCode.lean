/-!
# Result codes

The number with which every engine primitive reports its outcome. Codes from zero on are the
engine's own; the negative ones are given only by the layer above it.
-/
namespace ConfinedDb

/-- The outcome of a primitive. -/
structure ResultCode where
  val : Int32
deriving DecidableEq, Repr

namespace ResultCode

def ok : ResultCode := ⟨0⟩
def error : ResultCode := ⟨1⟩
/-- Resources are still attached, as statements left over when a database is closed. -/
def busy : ResultCode := ⟨5⟩
def misuse : ResultCode := ⟨21⟩
/-- A step has produced a row. -/
def row : ResultCode := ⟨100⟩
/-- A step has run to completion. -/
def done : ResultCode := ⟨101⟩

def inconsistent : ResultCode := ⟨-99⟩
def notOpened : ResultCode := ⟨-97⟩
def confinementViolated : ResultCode := ⟨-95⟩
def wrapperMisuse : ResultCode := ⟨-94⟩

def isOk (c : ResultCode) : Bool := c == ok

def display (c : ResultCode) : String := toString c.val.toInt

/-- The codes that have a name. -/
def named : List (ResultCode × String) :=
  [(ok, "OK"), (error, "ERROR"), (busy, "BUSY"), (misuse, "MISUSE"), (row, "ROW"), (done, "DONE"),
   (inconsistent, "WRAPPER_WEIRD"), (notOpened, "WRAPPER_NOT_OPENED"),
   (confinementViolated, "WRAPPER_CONFINEMENT_VIOLATED"), (wrapperMisuse, "WRAPPER_MISUSE")]

def name? (c : ResultCode) : Option String := named.lookup c

end ResultCode

end ConfinedDb
