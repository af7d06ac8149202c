import ConfinedDb.Connection.Operation
import ConfinedDb.Options
/-!
# Opening a connection

The thread that opens a connection claims it first, so that no other thread gets in while the engine
is at work, and gives the claim up when the open fails. A database that arrives after the connection
was disposed is closed again.
-/
namespace ConfinedDb.Connection

open Operation

def isMemory (c : Connection) : Bool := c.file.isNone

/-- Where the engine is told to open the database. -/
def location (c : Connection) : String :=
  match c.file with
  | some file => ((file.absolute? c.directory).getD file).toText
  | none => memoryLocation

/-- Opens the database. After a code that is no success the message is asked for and the handle that
came with the code is closed; the error carries the code of the open, never that of the close. -/
def openEngine (c : Connection) (flags : OpenFlags) : Attempt DbHandle := do
  let (handle?, rc) ← engine (.open c.location flags)
  if rc.isOk then
    match handle? with
    | some h => return h
    | none => throw (Error.ofFault (.inconsistent "engine didn't return db handle"))
  else
    let message ← inquire .opening handle?
    match handle? with
    | some h =>
      let closed ← engine (.close h)
      if closed.isOk then pure () else report (.failedOpenNotClosed closed)
    | none => pure ()
    let detail := message.getD ""
    let fault := Fault.engine rc s!"{c.label} open({c.location}) {detail}"
    report (.failed fault)
    throw (Error.ofFault fault)

/-- Opens the connection with the given intents on thread `t`. -/
def openWith (c : Connection) (t : ThreadId) (flags : OpenFlags) : Attempt Unit := do
  let before ← locked (.claim t)
  if before.disposed then throw (Error.ofFault (.misuse "cannot reopen closed connection"))
  match before.owner with
  | some owner => .ofExcept (c.checkOwner t owner)
  | none => report (.confined t)
  if before.handle.isSome then
    report .alreadyOpened
    throw (Error.ofFault (.misuse s!"{c.label} already opened"))
  let h ← tryCatch (c.openEngine flags) fun e => do
    if before.owner.isNone then discard (locked (.unclaim t))
    throw e
  if (← locked (.install h)).disposed then
    let rc ← engine (.close h)
    report (.disposedWhileOpening rc)
    throw (Error.ofFault (.notOpened "connection disposed while open() was in progress"))
  else report (.opened flags)

/-- Opens the database for writing. One in memory can only be opened if it may be created. -/
def openWriting (c : Connection) (t : ThreadId) (allowCreate : Bool) : Attempt Unit := do
  if allowCreate then c.openWith t OpenMode.readWriteCreate.flags
  else if c.isMemory then
    throw (Error.ofFault (.misuse "cannot open memory database without creation"))
  else c.openWith t OpenMode.readWrite.flags

/-- Opens the database for reading only, which one in memory cannot be. -/
def openReadOnly (c : Connection) (t : ThreadId) : Attempt Unit := do
  if c.isMemory then
    throw (Error.ofFault (.misuse "cannot open memory database in read-only mode"))
  else c.openWith t OpenMode.readOnly.flags

def openAs (c : Connection) (t : ThreadId) : OpenMode → Attempt Unit
  | .readOnly => c.openReadOnly t
  | .readWrite => c.openWriting t false
  | .readWriteCreate => c.openWriting t true

end ConfinedDb.Connection
