import ConfinedDb.Connection.Disposal
import ConfinedDb.Connection.Opening
/-!
# Connecting by options

A connection that is built and opened in one go goes out of use when the open fails.
-/
namespace ConfinedDb.Connection

open Operation

/-- What building a connection reports. -/
def announce : Operation Unit := report .created

/-- Opens a connection that nobody holds yet. -/
def connect (c : Connection) (t : ThreadId) (mode : OpenMode) : Attempt Unit := do
  announce
  tryCatch (c.openAs t mode) fun e => do
    drop t
    throw e

end ConfinedDb.Connection
