import ConfinedDb.Native.Library
import ConfinedDb.Table
/-!
# The scripted library

A stand-in for the native library. It records the calls and answers each as the script for that
function says, else in a fixed way; every statement reads the same row. A script is a queue of
replies, and every call takes the next.
-/
namespace ConfinedDb.Native

/-- The functions that can be scripted. -/
inductive LibraryFunction where
  | open
  | close
  | prepare
  | finalize
  | reset
  | clearBindings
  | step
  | bind
  | exec
  | lastError
  | columnCount
  | version
deriving DecidableEq, Repr

/-- A scripted answer; what it leaves out is answered in the fixed way. -/
structure Reply where
  code : Option ResultCode
  /-- The raw handle, zero for none. -/
  handle : Option Nat
  /-- Where the tail starts, or that there is no tail. -/
  tail : Option (Option Nat)
  /-- A message text, or that there is none. -/
  text : Option (Option Bytes)
  count : Option Int32
deriving DecidableEq, Repr

def Reply.blank : Reply := ⟨none, none, none, none, none⟩

/-- A column of the row. -/
structure Column where
  type : Int32
  integer : Int64
  real : Binary64
  bytes : Bytes
  /-- Whether the data pointer is null although there are bytes. -/
  nullPointer : Bool
deriving DecidableEq, Repr

/-- The column that is read where the row has none. -/
def Column.missing : Column := ⟨typeNull, 0, ⟨0⟩, [], false⟩

/-- The state of the stand-in. -/
structure ScriptedLibrary where
  /-- The calls so far, oldest first. -/
  calls : List LibraryCall
  /-- How many handles have been minted. -/
  minted : Nat
  scripts : Table LibraryFunction (List Reply)
  row : List Column
  /-- The message texts that were handed out and not given back. -/
  messages : Table MessageHandle Bytes
  /-- How many message texts were handed out. -/
  handedOut : Nat
deriving DecidableEq, Repr

namespace ScriptedLibrary

def initial : ScriptedLibrary := ⟨[], 0, ∅, [], ∅, 0⟩

instance : Inhabited ScriptedLibrary := ⟨initial⟩

def expect (l : ScriptedLibrary) (f : LibraryFunction) (r : Reply) : ScriptedLibrary :=
  { l with scripts := l.scripts.insert f ((l.scripts.get? f).getD [] ++ [r]) }

def next (l : ScriptedLibrary) (f : LibraryFunction) : Reply × ScriptedLibrary :=
  match l.scripts.get? f with
  | some (r :: rest) => (r, { l with scripts := l.scripts.insert f rest })
  | _ => (.blank, l)

def record (l : ScriptedLibrary) (call : LibraryCall) : ScriptedLibrary :=
  { l with calls := l.calls ++ [call] }

/-- The next handle. -/
def mint {r : Resource} (l : ScriptedLibrary) : Option (Handle r) × ScriptedLibrary :=
  (Handle.ofRaw? ((l.minted + 1) * 8), { l with minted := l.minted + 1 })

/-- What a C string shows of a text: what comes before the first NUL. -/
def visible (bytes : Bytes) : Bytes := bytes.takeWhile (· ≠ 0)

/-- A column of the row, by a C integer. -/
def column (l : ScriptedLibrary) (index : Int32) : Column :=
  l.row.getD (sizeOf index) .missing

/-- Answers the opening of a database, with a handle also when the code is no success. -/
def answerOpen (l : ScriptedLibrary) : (ResultCode × Option DbHandle) × ScriptedLibrary :=
  let (r, l) := l.next .open
  let (handle, l) := match r.handle with
    | some raw => (Handle.ofRaw? raw, l)
    | none => l.mint
  ((r.code.getD .ok, handle), l)

/-- Answers a preparation, without a handle of its own when the code is no success. -/
def answerPrepare (l : ScriptedLibrary) (sql : String) : Prepared × ScriptedLibrary :=
  let (r, l) := l.next .prepare
  let code := r.code.getD .ok
  let (stmt, l) := match r.handle with
    | some raw => (Handle.ofRaw? raw, l)
    | none => if code.isOk then l.mint else (none, l)
  let length := (Utf8.encode sql).length
  (⟨code, stmt, (r.tail.getD (some length)).map (min length)⟩, l)

def answerExec (l : ScriptedLibrary) : (ResultCode × Option MessageHandle) × ScriptedLibrary :=
  let (r, l) := l.next .exec
  match r.text with
  | some (some bytes) =>
    let message : MessageHandle := ⟨l.handedOut + 1, by omega⟩
    ((r.code.getD .ok, some message),
      { l with
        handedOut := l.handedOut + 1
        messages := l.messages.insert message (visible bytes) })
  | _ => ((r.code.getD .ok, none), l)

def answerCode (l : ScriptedLibrary) (f : LibraryFunction) (fixed : ResultCode) :
    ResultCode × ScriptedLibrary :=
  let (r, l) := l.next f
  (r.code.getD fixed, l)

def answerText (l : ScriptedLibrary) (f : LibraryFunction) (fixed : String) :
    Option Bytes × ScriptedLibrary :=
  let (r, l) := l.next f
  ((r.text.getD (some (Utf8.encode fixed))).map visible, l)

def answer (l : ScriptedLibrary) : (call : LibraryCall) → call.Answer × ScriptedLibrary
  | .open filename flags => (l.record (.open filename flags)).answerOpen
  | .close db => (l.record (.close db)).answerCode .close .ok
  | .prepare db sql length => (l.record (.prepare db sql length)).answerPrepare sql
  | .finalize stmt => (l.record (.finalize stmt)).answerCode .finalize .ok
  | .reset stmt => (l.record (.reset stmt)).answerCode .reset .ok
  | .clearBindings stmt => (l.record (.clearBindings stmt)).answerCode .clearBindings .ok
  | .step stmt => (l.record (.step stmt)).answerCode .step .done
  | .exec db sql => (l.record (.exec db sql)).answerExec
  | .readMessage message => ((l.messages.get? message).getD [], l)
  | .free message =>
    let l := l.record (.free message)
    ((), { l with messages := l.messages.erase message })
  | .lastError db => (l.record (.lastError db)).answerText .lastError "not an error"
  | .bindNull stmt index => (l.record (.bindNull stmt index)).answerCode .bind .ok
  | .bindInteger stmt index v => (l.record (.bindInteger stmt index v)).answerCode .bind .ok
  | .bindReal stmt index v => (l.record (.bindReal stmt index v)).answerCode .bind .ok
  | .bindText stmt index bytes length =>
    (l.record (.bindText stmt index bytes length)).answerCode .bind .ok
  | .bindBlob stmt index bytes length =>
    (l.record (.bindBlob stmt index bytes length)).answerCode .bind .ok
  | .columnCount _ =>
    let (r, l) := l.next .columnCount
    (r.count.getD (.ofNat l.row.length), l)
  | .columnType _ index => ((l.column index).type, l)
  | .columnInteger _ index => ((l.column index).integer, l)
  | .columnReal _ index => ((l.column index).real, l)
  | .columnText _ index | .columnBlob _ index =>
    (if (l.column index).nullPointer then none else some (l.column index).bytes, l)
  | .columnBytes _ index => (.ofNat (l.column index).bytes.length, l)
  | .version => l.answerText .version "3.50.2"

end ScriptedLibrary

end ConfinedDb.Native
