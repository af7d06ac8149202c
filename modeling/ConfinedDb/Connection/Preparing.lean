import ConfinedDb.Statement
/-!
# Running and preparing on a connection

A statement is prepared by the engine or taken from the cache, and registered before it is handed
out. While it is in use it stays out of the cache. If the connection was disposed while the engine
was at work, the new statement is finalized at once.
-/
namespace ConfinedDb.Connection

open Operation

/-- Runs statements whose results do not matter. -/
def exec (c : Connection) (t : ThreadId) (sql : String) : Attempt Unit := do
  c.checkThread t
  let db ← openHandle
  let (rc, message) ← engine (.exec db sql)
  c.checkCode rc "exec()" message

def prepareEngine (c : Connection) (db : DbHandle) (sql : String) : Attempt StmtHandle := do
  let (handle?, rc) ← engine (.prepare db sql)
  c.checkCode rc "prepare()" (some sql)
  match handle? with
  | some h => return h
  | none =>
    let fault := Fault.inconsistent "engine did not return stmt"
    report (.noStatement fault)
    throw (Error.ofFault fault)

/-- Prepares a statement on thread `t`, or reuses the idle one of its text if it may be cached. -/
def prepare (c : Connection) (t : ThreadId) (sql : String) (lending : Lending) :
    Attempt Statement := do
  c.checkThread t
  let before ← locked (if lending = .cached then .lend sql else id)
  let db ← .ofExcept before.openHandle
  let reused := if lending = .cached then before.cache.get? sql else none
  let h ← match reused with
    | some h => do
      report (.reusing sql)
      pure h
    | none => c.prepareEngine db sql
  let before ← locked (.register h sql)
  if before.handle.isSome then
    if reused.isNone && before.statements.contains h then report (.preparedTwice h)
    return .fresh c lending h sql
  else
    let rc ← engine (.finalize h)
    if rc.isOk then pure () else report (.latePrepareNotFinalized rc sql)
    throw (Error.ofFault (.notOpened "connection closed while prepare() was in progress"))

end ConfinedDb.Connection
