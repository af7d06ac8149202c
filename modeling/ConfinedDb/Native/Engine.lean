import ConfinedDb.Log
import ConfinedDb.Native.Library
import ConfinedDb.Program
/-!
# The native engine

The engine primitives as programs over the native library. A text that holds a NUL cannot be passed
on and is refused without a call. A statement that is refused after the library has compiled it is
finalized here and not handed out.
-/
namespace ConfinedDb.Native

/-- What the native engine asks for. -/
inductive Request where
  | library (call : LibraryCall)
  | report (record : Record)

abbrev Request.Answer : Request → Type
  | .library call => call.Answer
  | .report _ => Unit

/-- A program over the native library. -/
abbrev Routine := Program Request Request.Answer

namespace Routine

def call (c : LibraryCall) : Routine c.Answer := .query (Request.library c)

def report (r : Record) : Routine Unit := .query (Request.report r)

end Routine

open Routine

/-- Whether a text can be passed as a C string; if not, that is reported. -/
def passable (s what : String) : Routine Bool :=
  match (Utf8.encode s).findIdx? (· = 0) with
  | none => return true
  | some position => do
    let error := (Error.ofText s!"nul byte found in provided data at position: {position}").within
      s!"Could not create a CString from the {what}"
    report ⟨.error, error.chain⟩
    return false

/-- The intents as native bits, which are the same. -/
def flagBits (flags : OpenFlags) : Int32 :=
  (if flags.readOnly then 1 else 0) ||| (if flags.readWrite then 2 else 0) |||
    (if flags.create then 4 else 0)

/-- The text of a native message, or a text that says why there is none. -/
def messageText : Option Bytes → String
  | none => "Unknown error (could not extract the error message)"
  | some bytes =>
    match Utf8.decode bytes with
    | .ok s => s
    | .error _ => "Unknown error (the error message was not a valid C string)"

/-- The bytes that count as blank after a statement. -/
def isBlank (b : UInt8) : Bool := b == 0x20 || b == 0x09 || b == 0x0A || b == 0x0C || b == 0x0D

/-- Whether only blanks follow the first statement of a text. -/
def blankTail (sql : String) (tail : Option Nat) : Bool :=
  match tail with
  | none => true
  | some offset => ((Utf8.encode sql).drop offset).all isBlank

def openDatabase (location : String) (flags : OpenFlags) :
    Routine (Option DbHandle × ResultCode) := do
  if ← passable location "database location" then
    let (rc, db) ← call (.open location (flagBits flags))
    return (db, rc)
  else return (none, .misuse)

/-- Finalizes a statement that is not handed out. -/
def discardStatement : Option StmtHandle → Routine Unit
  | some h => discard (call (.finalize h))
  | none => return ()

/-- Compiles the one statement of a text. -/
def prepare (db : DbHandle) (sql : String) : Routine (Option StmtHandle × ResultCode) := do
  if ← passable sql "query String" then
    let answer ← call (.prepare db sql (.ofNat (Utf8.encode sql).length))
    if !answer.code.isOk then
      discardStatement answer.stmt
      return (none, answer.code)
    else if blankTail sql answer.tail then return (answer.stmt, answer.code)
    else
      report ⟨.error,
        "Cannot prepare more than one statement at a time, while preparing the query:\n" ++ sql⟩
      discardStatement answer.stmt
      return (none, .misuse)
  else return (none, .misuse)

/-- Runs the statements of a text. A message text is copied before it is given back. -/
def exec (db : DbHandle) (sql : String) : Routine (ResultCode × Option String) := do
  if ← passable sql "query String" then
    let (rc, message?) ← call (.exec db sql)
    match message? with
    | some message =>
      let bytes ← call (.readMessage message)
      call (.free message)
      return (rc, some (messageText (some bytes)))
    | none => return (rc, none)
  else return (.misuse, none)

def errorMessage (db? : Option DbHandle) : Routine (Except Error String) := do
  match db? with
  | none => return .error (.ofText "Cannot get the error message without a database handle")
  | some db =>
    match ← call (.lastError db) with
    | none => return .error (.ofText (messageText none))
    | some bytes => return .ok (messageText (some bytes))

/-- Binds a parameter; its number and the length of its data are cut to C integers. -/
def bind (stmt : StmtHandle) (index : Nat) (value : Value) : Routine ResultCode :=
  let index := Int32.ofNat index
  match value with
  | .null => call (.bindNull stmt index)
  | .integer v => call (.bindInteger stmt index v)
  | .real v => call (.bindReal stmt index v)
  | .text v => call (.bindText stmt index (Utf8.encode v) (.ofNat (Utf8.encode v).length))
  | .blob v => call (.bindBlob stmt index v (.ofNat v.length))

def columnCount (stmt : StmtHandle) : Routine Nat := do
  return sizeOf (← call (.columnCount stmt))

/-- The bytes that a pointer and a count stand for. -/
def content (memory : Option Bytes) (count : Int32) : Bytes :=
  (memory.getD []).take (sizeOf count)

/-- Reads a column by its storage class. -/
def readColumn (stmt : StmtHandle) (index : Int32) : Routine (Except Error Value) := do
  let type ← call (.columnType stmt index)
  if type = typeNull then return .ok .null
  else if type = typeInteger then return .ok (.integer (← call (.columnInteger stmt index)))
  else if type = typeReal then return .ok (.real (← call (.columnReal stmt index)))
  else if type = typeBlob then
    let memory ← call (.columnBlob stmt index)
    return .ok (.blob (content memory (← call (.columnBytes stmt index))))
  else if type = typeText then
    let memory ← call (.columnText stmt index)
    return .ok (.text (Utf8.lossy (content memory (← call (.columnBytes stmt index)))))
  else return .error (.ofText s!"Unexpected column type {type.toInt}")

/-- Reads a column of the current row, unless the statement has no such column. -/
def columnValue (stmt : StmtHandle) (index : Nat) : Routine (Except Error Value) := do
  let count ← columnCount stmt
  if index < count then readColumn stmt (.ofNat index)
  else
    return .error (.ofText
      s!"Column {index} out of range, the statement has {count} columns")

/-- The primitives of the native engine. -/
def routine : (call : EngineCall) → Routine call.Answer
  | .open location flags => openDatabase location flags
  | .close db => call (.close db)
  | .prepare db sql => prepare db sql
  | .finalize stmt => call (.finalize stmt)
  | .reset stmt => call (.reset stmt)
  | .clearBindings stmt => call (.clearBindings stmt)
  | .exec db sql => exec db sql
  | .errorMessage db => errorMessage db
  | .step stmt => call (.step stmt)
  | .bind stmt index value => bind stmt index value
  | .columnCount stmt => columnCount stmt
  | .columnValue stmt index => columnValue stmt index

def version : Routine String := do return messageText (← call .version)

end ConfinedDb.Native
