import ConfinedDb.Error
/-!
# Log records

What is reported beside the results: a level and a text. Two reports have a form of their own: the
one on a broken invariant, and the one on a diagnostic call whose failure is only noted.
-/
namespace ConfinedDb

/-- How much a record matters. -/
inductive Level where
  | error
  | warn
  | info
  | debug
deriving DecidableEq, Repr

structure Record where
  level : Level
  text : String
deriving DecidableEq, Repr

/-- The report that `source` broke an invariant. It is an error when the bookkeeping must be wrong,
and a warning when misuse can explain it. -/
def Record.recoverable (source message : String) (fatal : Bool) : Record :=
  ⟨if fatal then .error else .warn, s!"{source} {message}"⟩

/-- The report that a diagnostic call has failed. -/
def Record.forgone (what : String) (e : Error) : Record := ⟨.warn, s!"{what}: {e.chain}"⟩

/-- The result of a diagnostic call whose failure must not escape: the failure becomes a report. -/
def bestEffort {α : Type} (what : String) : Except Error α → Option α × List Record
  | .ok a => (some a, [])
  | .error e => (none, [.forgone what e])

end ConfinedDb
