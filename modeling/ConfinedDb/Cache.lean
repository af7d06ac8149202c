import ConfinedDb.Handle
import ConfinedDb.Table
/-!
# Statement cache

Idle statements that can be lent again, at most one for each text. A statement in use is never here:
it is taken out when lent and offered back when released.
-/
namespace ConfinedDb

/-- Idle statements by their text. -/
structure Cache where
  table : Table String StmtHandle
deriving DecidableEq, Repr

/-- What becomes of a statement that is offered. -/
inductive Offer where
  /-- It is now the idle statement of its text. -/
  | cached
  /-- Another one, `holder`, already serves the text and stays. -/
  | occupied (holder : StmtHandle)
  /-- It was there already. -/
  | duplicate
deriving DecidableEq, Repr

namespace Cache

def empty : Cache := ⟨∅⟩

instance : Inhabited Cache := ⟨empty⟩

def toList (c : Cache) : List (String × StmtHandle) := c.table.entries

def get? (c : Cache) (sql : String) : Option StmtHandle := c.table.get? sql

def size (c : Cache) : Nat := c.table.size

def isEmpty (c : Cache) : Bool := c.table.isEmpty

def take (c : Cache) (sql : String) : Cache := ⟨c.table.erase sql⟩

/-- What would become of a statement that is offered now. -/
def verdict (c : Cache) (sql : String) (h : StmtHandle) : Offer :=
  match c.get? sql with
  | none => .cached
  | some holder => if holder = h then .duplicate else .occupied holder

/-- Takes a statement in, unless its text is served. -/
def offer (c : Cache) (sql : String) (h : StmtHandle) : Cache :=
  match c.get? sql with
  | none => ⟨c.table.insert sql h⟩
  | some _ => c

/-- Forgets a statement if it is the idle one of the text. -/
def removeIf (c : Cache) (sql : String) (h : StmtHandle) : Cache :=
  if c.get? sql = some h then c.take sql else c

theorem get?_take (c : Cache) (sql text : String) :
    (c.take sql).get? text = if text = sql then none else c.get? text :=
  c.table.get?_erase sql text

theorem get?_removeIf (c : Cache) (sql text : String) (h : StmtHandle) :
    (c.removeIf sql h).get? text
      = if text = sql ∧ c.get? sql = some h then none else c.get? text := by
  unfold removeIf
  by_cases hc : c.get? sql = some h
  · simp [hc, get?_take]
  · simp [hc]

/-- An offer never displaces the idle statement of a text. -/
theorem get?_offer (c : Cache) (sql text : String) (h : StmtHandle) :
    (c.offer sql h).get? text = if text = sql then (c.get? sql).or (some h) else c.get? text := by
  unfold offer
  cases hc : c.get? sql with
  | none => exact c.table.get?_insert sql text h
  | some holder =>
    by_cases ht : text = sql
    · simp [ht, hc]
    · simp [ht]

end Cache

end ConfinedDb
