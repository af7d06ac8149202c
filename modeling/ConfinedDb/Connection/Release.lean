import ConfinedDb.Connection.Operation
/-!
# Releasing statements

A released statement is either finalized or made ready for the next use and put into the cache. Both
take several calls with the lock open between them, so each looks again, under the lock, whether a
disposal has dropped the statement meanwhile.
-/
namespace ConfinedDb.Connection

open Operation

/-- Finalizes a statement and forgets it. It never fails: the bookkeeping is updated also when the
engine reports an error. -/
def finalize (h : StmtHandle) (sql : String) : Operation Unit := do
  if (← peek).abandoned h then report (.disposedElsewhere sql)
  else
    let rc ← engine (.finalize h)
    if rc.isOk then pure () else report (.finalizeFailed rc sql)
    let before ← locked (.forget h sql)
    if before.abandoned h then report (.forgottenWhileFinalizing sql)
    else
      match before.statements.get? h with
      | none => report (.alienStatement h sql)
      | some registered =>
        if registered = sql then pure () else report (.differentText h sql registered)

/-- Rewinds a statement if it was stepped and drops its parameters if it has any. -/
def clear (c : Connection) (h : StmtHandle) (hasBindings hasStepped : Bool) : Attempt Unit := do
  if hasStepped then c.checkCode (← engine (.reset h)) "reset()" none
  if hasBindings then c.checkCode (← engine (.clearBindings h)) "clearBindings()" none

/-- Makes a released statement available again, or finalizes it when it cannot be cleared or its
text is served already. -/
def putBack (c : Connection) (h : StmtHandle) (sql : String) (hasBindings hasStepped : Bool) :
    Operation Unit := do
  match ← (c.clear h hasBindings hasStepped).run with
  | .error e =>
    report (.clearFailed e)
    finalize h sql
  | .ok () =>
    let before ← locked (.shelve h sql)
    if before.isOpen then
      match before.cache.verdict sql h with
      | .cached => pure ()
      | .duplicate => report (.cachedTwice h)
      | .occupied holder =>
        report (.cacheOccupied sql holder h)
        finalize h sql
    else report (.disposedElsewhere sql)

end ConfinedDb.Connection
