/-!
# Open flags

What a database is opened for: a set of three intents, with the bits by which engines know them.
-/
namespace ConfinedDb

/-- A set of intents. -/
structure OpenFlags where
  readOnly : Bool
  readWrite : Bool
  create : Bool
deriving DecidableEq, Repr

namespace OpenFlags

def none : OpenFlags := ⟨false, false, false⟩
def onlyReading : OpenFlags := ⟨true, false, false⟩
def writing : OpenFlags := ⟨false, true, false⟩
def creating : OpenFlags := ⟨false, false, true⟩

def union (a b : OpenFlags) : OpenFlags :=
  ⟨a.readOnly || b.readOnly, a.readWrite || b.readWrite, a.create || b.create⟩

def contains (a b : OpenFlags) : Bool := a.union b = a

def bits (f : OpenFlags) : UInt32 :=
  (if f.readOnly then 1 else 0) ||| (if f.readWrite then 2 else 0) ||| (if f.create then 4 else 0)

def display (f : OpenFlags) : String :=
  "|".intercalate <|
    (if f.readOnly then ["READONLY"] else []) ++ (if f.readWrite then ["READWRITE"] else []) ++
      (if f.create then ["CREATE"] else [])

end OpenFlags

end ConfinedDb
