import ConfinedDb.Connection.State
import ConfinedDb.Engine
import ConfinedDb.Log
import ConfinedDb.Path
/-!
# Notices

What a connection reports while it works, as events and not as texts: the wording and the level of
each are given once, by `Notice.record`. Events are told apart by their constructor, whatever the
statement texts in them say.
-/
namespace ConfinedDb

/-- The fixed part of a connection. -/
structure Connection where
  number : Nat
  /-- The database file, none for a database in memory. -/
  file : Option Path
  /-- The working directory against which a relative file is resolved. -/
  directory : Path
deriving DecidableEq, Repr

/-- The connection as messages show it. -/
def Connection.label (c : Connection) : String := s!"sqlite[{c.number}]"

/-- What becomes of a statement when its user releases it. -/
inductive Lending where
  /-- It goes back to the statement cache. -/
  | cached
  /-- It is finalized right away. -/
  | uncached
deriving DecidableEq, Repr

/-- The connection as messages on behalf of a statement show it. -/
def Lending.label (l : Lending) (c : Connection) : String :=
  c.label ++ match l with
    | cached => "[C]"
    | uncached => "[U]"

/-- Which message was asked for only to be reported. -/
inductive Inquiry where
  | opening
  | closing
  | failing
deriving DecidableEq, Repr

/-- What is reported when the message is not to be had. -/
def Inquiry.what : Inquiry → String
  | opening => "cannot get the open error message"
  | closing => "cannot get the close error message"
  | failing => "cannot get the error message"

/-- An event in the life of a connection. -/
inductive Notice where
  | created
  | confined (t : ThreadId)
  | alreadyOpened
  | disposedWhileOpening (rc : ResultCode)
  | opened (flags : OpenFlags)
  /-- A message could not be had from the engine. -/
  | noMessage (inquiry : Inquiry) (e : Error)
  | failedOpenNotClosed (rc : ResultCode)
  /-- A fault of the engine is about to be returned. -/
  | failed (f : Fault)
  | disposedUnopened
  | closeFailed (rc : ResultCode) (message : Option String)
  | closed
  | reusing (sql : String)
  | noStatement (f : Fault)
  /-- A statement that was just prepared is registered already. -/
  | preparedTwice (h : StmtHandle)
  | latePrepareNotFinalized (rc : ResultCode) (sql : String)
  | alienDisposal (count : Nat)
  /-- Statements are left after the owner has drained them. -/
  | notFinalized (count : Nat)
  | disposedElsewhere (sql : String)
  | finalizeFailed (rc : ResultCode) (sql : String)
  | forgottenWhileFinalizing (sql : String)
  /-- A statement that was finalized is not registered. -/
  | alienStatement (h : StmtHandle) (sql : String)
  /-- A statement that was finalized is registered under another text. -/
  | differentText (h : StmtHandle) (sql registered : String)
  /-- A statement that was released is in the cache already. -/
  | cachedTwice (h : StmtHandle)
  | cacheOccupied (sql : String) (holder h : StmtHandle)
  | clearFailed (e : Error)
  | releasedByAlien (l : Lending) (sql : String)
  | alreadyFinalized (l : Lending) (sql : String)
  | droppedWhileOpen
deriving DecidableEq, Repr

namespace Notice

/-- The record that reports an event of a connection. -/
def record (c : Connection) : Notice → Record
  | created => ⟨.info, s!"{c.label} created({Text.optional Path.quoted c.file})"⟩
  | confined t => ⟨.debug, s!"{c.label} confined to {t.display}"⟩
  | alreadyOpened => .recoverable c.label "already opened" false
  | disposedWhileOpening rc =>
    ⟨.warn, s!"{c.label} disposed while opening, close returned {rc.display}"⟩
  | opened flags => ⟨.info, s!"{c.label} opened({flags.display})"⟩
  | noMessage inquiry e => .forgone inquiry.what e
  | failedOpenNotClosed rc =>
    ⟨.warn, s!"{c.label} error [{rc.display}] closing the handle of a failed open"⟩
  | failed f => ⟨.error, f.display⟩
  | disposedUnopened => ⟨.debug, s!"{c.label} disposed before being opened"⟩
  | closeFailed rc message =>
    let detail := (message.map (": " ++ ·)).getD ""
    ⟨.warn, s!"{c.label} close error {rc.display}{detail}"⟩
  | closed => ⟨.info, s!"{c.label} closed"⟩
  | reusing sql => ⟨.debug, s!"{c.label} reusing cached statement [{sql}]"⟩
  | noStatement f => ⟨.error, s!"{c.label} {f.display}"⟩
  | preparedTwice h => .recoverable h.display "appeared in the registry when prepared" true
  | latePrepareNotFinalized rc sql =>
    ⟨.warn, s!"{c.label} error [{rc.display}] finalizing [{sql}] in prepare()"⟩
  | alienDisposal count =>
    ⟨.warn, s!"{c.label} cannot finalize {count} statements from alien thread"⟩
  | notFinalized count => .recoverable c.label s!"{count} statements are not finalized" false
  | disposedElsewhere sql =>
    ⟨.warn, s!"{c.label} disposed elsewhere, statement [{sql}] abandoned"⟩
  | finalizeFailed rc sql =>
    ⟨.warn, s!"{c.label} error [{rc.display}] finishing statement [{sql}]"⟩
  | forgottenWhileFinalizing sql =>
    ⟨.debug, s!"{c.label} statement [{sql}] forgotten while finalizing"⟩
  | alienStatement h sql => .recoverable h.display s!"alien statement for {sql}" true
  | differentText h sql registered =>
    .recoverable h.display s!"different sql [{sql}][{registered}]" true
  | cachedTwice h => .recoverable h.display "appeared in cache when inserted" true
  | cacheOccupied sql holder h =>
    ⟨.debug, s!"{c.label} cache already holds [{sql}] as {holder.display}, finalizing {h.display}"⟩
  | clearFailed e => ⟨.warn, s!"{c.label} exception clearing statement: {e.chain}"⟩
  | releasedByAlien l sql =>
    .recoverable (l.label c) s!"disposing [{sql}] from alien thread" true
  | alreadyFinalized l sql => ⟨.debug, s!"{l.label c} statement [{sql}] already finalized"⟩
  | droppedWhileOpen => ⟨.debug, s!"{c.label} dropped while open, disposing"⟩

end Notice

end ConfinedDb
