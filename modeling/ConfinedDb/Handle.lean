import ConfinedDb.Text.Quoted
/-!
# Handles

Tokens by which a database engine names what it has given out. They are stored and compared, never
looked into; the number zero stands for "none" and is no handle.
-/
namespace ConfinedDb

/-- What a handle can name: an open database, a compiled statement, or a message text that has to be
given back. -/
inductive Resource where
  | database
  | statement
  | message
deriving DecidableEq, Repr

/-- The token of a resource. -/
structure Handle (r : Resource) where
  raw : Nat
  raw_ne_zero : raw ≠ 0
deriving DecidableEq, Repr

abbrev DbHandle := Handle .database
abbrev StmtHandle := Handle .statement

namespace Handle

variable {r : Resource}

/-- The handle of a raw number, none for zero. -/
def ofRaw? (raw : Nat) : Option (Handle r) :=
  if h : raw = 0 then none else some ⟨raw, h⟩

def rawOf : Option (Handle r) → Nat
  | some h => h.raw
  | none => 0

/-- The handle as messages show it. -/
def display (h : Handle r) : String := "0x" ++ Text.hex h.raw

end Handle

structure ThreadId where
  number : Nat
deriving DecidableEq, Repr

def ThreadId.display (t : ThreadId) : String := s!"ThreadId({t.number})"

end ConfinedDb
