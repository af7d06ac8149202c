import ConfinedDb.Error
import ConfinedDb.Handle
import ConfinedDb.OpenFlags
import ConfinedDb.Value
/-!
# Engine primitives

The operations of an embedded database engine that a connection is built on. A primitive reports its
outcome by a result code and never fails; what counts as an error is for the caller to say.
Parameter numbers start from one, column numbers from zero.
-/
namespace ConfinedDb

/-- One call of a primitive. -/
inductive EngineCall where
  /-- Opens the database at a location. -/
  | open (location : String) (flags : OpenFlags)
  | close (db : DbHandle)
  /-- Compiles one statement. -/
  | prepare (db : DbHandle) (sql : String)
  | finalize (stmt : StmtHandle)
  | reset (stmt : StmtHandle)
  | clearBindings (stmt : StmtHandle)
  /-- Runs statements without handing any out. -/
  | exec (db : DbHandle) (sql : String)
  /-- Asks for the last error text of a database. -/
  | errorMessage (db : Option DbHandle)
  /-- Advances a statement. -/
  | step (stmt : StmtHandle)
  | bind (stmt : StmtHandle) (index : Nat) (value : Value)
  | columnCount (stmt : StmtHandle)
  /-- Reads a column of the current row. -/
  | columnValue (stmt : StmtHandle) (index : Nat)
deriving DecidableEq, Repr

namespace EngineCall

/-- What a primitive answers. An opened database may come with a code that is no success; it is then
the caller's to close. -/
abbrev Answer : EngineCall → Type
  | .open .. => Option DbHandle × ResultCode
  | .close .. => ResultCode
  | .prepare .. => Option StmtHandle × ResultCode
  | .finalize .. => ResultCode
  | .reset .. => ResultCode
  | .clearBindings .. => ResultCode
  | .exec .. => ResultCode × Option String
  | .errorMessage .. => Except Error String
  | .step .. => ResultCode
  | .bind .. => ResultCode
  | .columnCount .. => Nat
  | .columnValue .. => Except Error Value

def statement? : EngineCall → Option StmtHandle
  | finalize stmt | reset stmt | clearBindings stmt | step stmt | bind stmt _ _ => some stmt
  | columnCount stmt | columnValue stmt _ => some stmt
  | _ => none

def database? : EngineCall → Option DbHandle
  | close db | prepare db _ | exec db _ => some db
  | errorMessage db => db
  | _ => none

end EngineCall

end ConfinedDb
