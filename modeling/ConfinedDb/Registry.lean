import ConfinedDb.Handle
import ConfinedDb.Table
/-!
# Statement registry

Every live statement of a connection, lent or idle, with the text that it was prepared from. It is
drained from the front, so that the oldest statements go first.
-/
namespace ConfinedDb

/-- Statement handles with their texts, oldest first. -/
structure Registry where
  table : Table StmtHandle String
deriving DecidableEq, Repr

namespace Registry

def empty : Registry := ⟨∅⟩

instance : Inhabited Registry := ⟨empty⟩

def toList (r : Registry) : List (StmtHandle × String) := r.table.entries

def get? (r : Registry) (h : StmtHandle) : Option String := r.table.get? h

def contains (r : Registry) (h : StmtHandle) : Bool := r.table.contains h

def size (r : Registry) : Nat := r.table.size

def isEmpty (r : Registry) : Bool := r.table.isEmpty

def first? (r : Registry) : Option (StmtHandle × String) := r.table.first?

/-- Registers a statement; one that is registered already keeps its place. -/
def insert (r : Registry) (h : StmtHandle) (sql : String) : Registry := ⟨r.table.insert h sql⟩

def remove (r : Registry) (h : StmtHandle) : Registry := ⟨r.table.erase h⟩

/-- What can be done to a registry. -/
inductive Change where
  | insert (h : StmtHandle) (sql : String)
  | remove (h : StmtHandle)
  | clear
deriving DecidableEq, Repr

/-- Makes a change and tells the text that its handle had before. -/
def change (r : Registry) : Change → Option String × Registry
  | .insert h sql => (r.get? h, r.insert h sql)
  | .remove h => (r.get? h, r.remove h)
  | .clear => (none, .empty)

/-- Takes the oldest statement and removes it, `rounds` times at most. -/
def drain : (rounds : Nat) → Registry → List (StmtHandle × String) × Registry
  | 0, r => ([], r)
  | n + 1, r =>
    match r.first? with
    | none => ([], r)
    | some (h, sql) =>
      let (rest, left) := drain n (r.remove h)
      ((h, sql) :: rest, left)

theorem get?_insert (r : Registry) (h k : StmtHandle) (sql : String) :
    (r.insert h sql).get? k = if k = h then some sql else r.get? k :=
  r.table.get?_insert h k sql

theorem get?_remove (r : Registry) (h k : StmtHandle) :
    (r.remove h).get? k = if k = h then none else r.get? k :=
  r.table.get?_erase h k

theorem contains_eq (r : Registry) (h : StmtHandle) : r.contains h = (r.get? h).isSome :=
  r.table.contains_eq h

theorem contains_first {r : Registry} {h : StmtHandle} {sql : String}
    (hf : r.first? = some (h, sql)) : r.contains h = true := by
  obtain ⟨rest, hr⟩ : ∃ rest, r.table.entries = (h, sql) :: rest := List.head?_eq_some_iff.1 hf
  simp [contains, Table.contains, hr]

/-- Removing the oldest statement leaves the rest in order. -/
theorem toList_remove_first {r : Registry} {h : StmtHandle} {sql : String}
    {rest : List (StmtHandle × String)} (hr : r.toList = (h, sql) :: rest) :
    (r.remove h).toList = rest := by
  have hd := r.table.distinct
  simp only [toList] at hr
  rw [hr, List.map_cons, List.nodup_cons] at hd
  show r.table.entries.filter _ = rest
  rw [hr]
  simp only [ne_eq, List.filter_cons, decide_not, decide_true, Bool.not_true, Bool.false_eq_true,
    if_false, List.filter_eq_self, Bool.not_eq_true', decide_eq_false_iff_not]
  rintro e he rfl
  have hm : e.1 ∈ rest.map Prod.fst := List.mem_map_of_mem he
  exact hd.1 hm

/-- Every round of a drain takes the oldest statement. -/
theorem drain_take (rounds : Nat) (r : Registry) :
    (r.drain rounds).1 = r.toList.take rounds ∧
      (r.drain rounds).2.toList = r.toList.drop rounds := by
  induction rounds generalizing r with
  | zero => exact ⟨rfl, rfl⟩
  | succ rounds ih =>
    cases hr : r.toList with
    | nil =>
      have hfirst : r.first? = none := by
        simp [first?, Table.first?, show r.table.entries = [] from hr]
      simp [drain, hfirst, hr]
    | cons e rest =>
      obtain ⟨h, sql⟩ := e
      have hfirst : r.first? = some (h, sql) := by
        simp [first?, Table.first?, show r.table.entries = _ from hr]
      obtain ⟨htaken, hleft⟩ := ih (r.remove h)
      rw [toList_remove_first hr] at htaken hleft
      simp only [drain, hfirst, htaken, hleft]
      exact ⟨rfl, rfl⟩

/-- Enough rounds take all statements, in order. -/
theorem drain_eq (n : Nat) (r : Registry) (hn : r.size ≤ n) : (r.drain n).1 = r.toList :=
  (drain_take n r).1.trans (List.take_of_length_le hn)

end Registry

end ConfinedDb
