import ConfinedDb.Text.Quoted
/-!
# Paths

A path is a byte string in which slashes separate components. Nothing here looks at a file system:
the absolute form is made of the bytes alone, against a given working directory.
-/
namespace ConfinedDb

/-- A path of arbitrary bytes. -/
structure Path where
  bytes : Bytes
deriving DecidableEq, Repr

namespace Path

def ofText (s : String) : Path := ⟨Utf8.encode s⟩

/-- The text of a path, with U+FFFD where the bytes are no text. -/
def toText (p : Path) : String := Utf8.lossy p.bytes

/-- The path as diagnostics show it. -/
def quoted (p : Path) : String := Text.quoteBytes p.bytes

def slash : UInt8 := 0x2F

def dot : UInt8 := 0x2E

/-- The stretches between slashes, empty ones included. -/
def split : Bytes → List Bytes
  | [] => [[]]
  | b :: rest =>
    if b = slash then [] :: split rest
    else match split rest with
      | [] => [[b]]
      | part :: parts => (b :: part) :: parts

/-- The components that count: repeated slashes and `.` leave none, `..` stays. -/
def components (p : Path) : List Bytes :=
  (split p.bytes).filter fun part => part ≠ [] ∧ part ≠ [dot]

/-- Appends a component, with a slash between unless one is there. -/
def push (base component : Bytes) : Bytes :=
  if base = [] ∨ base.getLast? = some slash then base ++ component else base ++ slash :: component

/-- What the components are appended to: the working directory for a relative path, and for an
absolute one its leading slash, or both of them where there are exactly two. -/
def anchor (p workingDirectory : Path) : Bytes :=
  match p.bytes with
  | 0x2F :: 0x2F :: 0x2F :: _ => [slash]
  | 0x2F :: 0x2F :: _ => [slash, slash]
  | 0x2F :: _ => [slash]
  | _ => workingDirectory.bytes

/-- The absolute form of a path. It ends with a slash exactly when the path does, or when nothing
but leading slashes is left. The empty path has none. -/
def absolute? (p workingDirectory : Path) : Option Path :=
  if p.bytes = [] then none
  else
    let body := p.components.foldl push (p.anchor workingDirectory)
    some ⟨if p.bytes.getLast? = some slash then push body [] else body⟩

end Path

end ConfinedDb
