import ConfinedDb.Value.Binary64
import ConfinedDb.Text.Utf8
/-!
# Values

What is bound to a parameter and read from a column.
-/
namespace ConfinedDb

inductive Value where
  | null
  | integer (v : Int64)
  | real (v : Binary64)
  | text (v : String)
  | blob (v : Bytes)
deriving DecidableEq, Repr

namespace Value

instance : Inhabited Value := ⟨null⟩

/-- A truth value is stored as one or zero. -/
def ofBool (b : Bool) : Value := integer (if b then 1 else 0)

/-- A single precision number is stored in double precision. -/
def ofBinary32 (x : Binary32) : Value := real (.ofBinary32 x)

/-- An absent value is stored as null. -/
def ofOption : Option Value → Value
  | some v => v
  | none => null

def isNull : Value → Bool
  | null => true
  | _ => false

def integer? : Value → Option Int64
  | integer v => some v
  | _ => none

/-- The number as a double; an integer is rounded to the nearest one. -/
def real? : Value → Option Binary64
  | real v => some v
  | integer v => some (.ofInt v.toInt)
  | _ => none

def text? : Value → Option String
  | text v => some v
  | _ => none

def blob? : Value → Option Bytes
  | blob v => some v
  | _ => none

/-- Whether two values are of one kind and equal; reals are compared as numbers. -/
def agrees : Value → Value → Bool
  | real x, real y => x.sameNumber y
  | v, w => v = w

end Value

end ConfinedDb
