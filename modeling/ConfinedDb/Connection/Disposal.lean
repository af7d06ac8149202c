import ConfinedDb.Connection.Release
/-!
# Disposing a connection

Disposal takes the database and the owner out of the state first, so that nothing can start on the
connection any more; then it finalizes the statements, oldest first, and closes the database.
Statements can only be finalized by the owner: from any other thread they are abandoned.
-/
namespace ConfinedDb.Connection

open Operation

/-- Finalizes the oldest statement until none is left, `rounds` times at most. -/
def drain : (rounds : Nat) → Operation Unit
  | 0 => return ()
  | rounds + 1 => do
    match (← peek).statements.first? with
    | none => return ()
    | some (h, sql) =>
      finalize h sql
      drain rounds

/-- Finalizes all statements if `t` was the owner, and drops the bookkeeping of those left. Every
round of the drain leaves one statement fewer and none comes in after the connection is disposed, so
as many rounds as there were statements are enough. -/
def finalizeAll (t : ThreadId) (owner : Option ThreadId) (rounds : Nat) : Operation Unit := do
  if owner = some t then drain rounds
  let count := (← locked .forgetAll).statements.size
  if count = 0 then return ()
  else if owner = some t then report (.notFinalized count)
  else report (.alienDisposal count)

/-- Disposes a connection on thread `t`. It never fails, and a second time it does nothing. -/
def dispose (t : ThreadId) : Operation Unit := do
  let before ← locked .retire
  if before.disposed then return ()
  else
    match before.handle with
    | none => report .disposedUnopened
    | some h =>
      finalizeAll t before.owner before.statements.size
      let rc ← engine (.close h)
      if rc.isOk then pure ()
      else report (.closeFailed rc (← inquire .closing (some h)))
      report .closed

/-- What happens when a connection goes out of use on thread `t`. -/
def drop (t : ThreadId) : Operation Unit := do
  if (← peek).isOpen then report .droppedWhileOpen
  dispose t

end ConfinedDb.Connection
