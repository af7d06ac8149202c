import ConfinedDb.Engine
/-!
# The native library

The functions of the C library that the native engine calls, with what each is passed and what each
answers. Sizes and positions are C integers of 32 bits. Memory that the library answers with is
given by its content: a null pointer is `none`.
-/
namespace ConfinedDb.Native

/-- A message text that the library has allocated. -/
abbrev MessageHandle := Handle .message

/-- One call of a native function. -/
inductive LibraryCall where
  | open (filename : String) (flags : Int32)
  | close (db : DbHandle)
  /-- Compiles the first statement of `length` bytes of text. -/
  | prepare (db : DbHandle) (sql : String) (length : Int32)
  | finalize (stmt : StmtHandle)
  | reset (stmt : StmtHandle)
  | clearBindings (stmt : StmtHandle)
  | step (stmt : StmtHandle)
  | exec (db : DbHandle) (sql : String)
  /-- Copies a message text. -/
  | readMessage (message : MessageHandle)
  /-- Gives a message text back. -/
  | free (message : MessageHandle)
  | lastError (db : DbHandle)
  | bindNull (stmt : StmtHandle) (index : Int32)
  | bindInteger (stmt : StmtHandle) (index : Int32) (v : Int64)
  | bindReal (stmt : StmtHandle) (index : Int32) (v : Binary64)
  | bindText (stmt : StmtHandle) (index : Int32) (bytes : Bytes) (length : Int32)
  | bindBlob (stmt : StmtHandle) (index : Int32) (bytes : Bytes) (length : Int32)
  | columnCount (stmt : StmtHandle)
  | columnType (stmt : StmtHandle) (index : Int32)
  | columnInteger (stmt : StmtHandle) (index : Int32)
  | columnReal (stmt : StmtHandle) (index : Int32)
  | columnText (stmt : StmtHandle) (index : Int32)
  | columnBlob (stmt : StmtHandle) (index : Int32)
  | columnBytes (stmt : StmtHandle) (index : Int32)
  | version
deriving DecidableEq, Repr

/-- What a preparation answers. -/
structure Prepared where
  code : ResultCode
  stmt : Option StmtHandle
  /-- Where the text after the first statement starts. -/
  tail : Option Nat
deriving DecidableEq, Repr

namespace LibraryCall

abbrev Answer : LibraryCall → Type
  | .open .. => ResultCode × Option DbHandle
  | .close .. => ResultCode
  | .prepare .. => Prepared
  | .finalize .. => ResultCode
  | .reset .. => ResultCode
  | .clearBindings .. => ResultCode
  | .step .. => ResultCode
  | .exec .. => ResultCode × Option MessageHandle
  | .readMessage .. => Bytes
  | .free .. => Unit
  | .lastError .. => Option Bytes
  | .bindNull .. => ResultCode
  | .bindInteger .. => ResultCode
  | .bindReal .. => ResultCode
  | .bindText .. => ResultCode
  | .bindBlob .. => ResultCode
  | .columnCount .. => Int32
  | .columnType .. => Int32
  | .columnInteger .. => Int64
  | .columnReal .. => Binary64
  | .columnText .. => Option Bytes
  | .columnBlob .. => Option Bytes
  | .columnBytes .. => Int32
  | .version => Option Bytes

end LibraryCall

/-- The storage classes of a column, by their native numbers. -/
def typeInteger : Int32 := 1
def typeReal : Int32 := 2
def typeText : Int32 := 3
def typeBlob : Int32 := 4
def typeNull : Int32 := 5

/-- A C integer taken for a size: a negative one becomes a size near 2^64. -/
def sizeOf (n : Int32) : Nat := (n.toInt % 18446744073709551616).toNat

end ConfinedDb.Native
