import ConfinedDb.Error
import ConfinedDb.OpenFlags
import ConfinedDb.Path
import ConfinedDb.Text.Percent
/-!
# Connection options

Where a database is and how it is opened, and the URL that says so:
`sqlite://path/to/file.sqlite?mode=rwc`, or `sqlite://:memory:` for a database in memory.
-/
namespace ConfinedDb

/-- The location of a private database in memory. -/
def memoryLocation : String := ":memory:"

inductive OpenMode where
  | readOnly
  | readWrite
  | readWriteCreate
deriving DecidableEq, Repr

namespace OpenMode

instance : Inhabited OpenMode := ⟨readWriteCreate⟩

def display : OpenMode → String
  | readOnly => "ro"
  | readWrite => "rw"
  | readWriteCreate => "rwc"

def parse (s : String) : Except Error OpenMode :=
  if s = "ro" then .ok readOnly
  else if s = "rw" then .ok readWrite
  else if s = "rwc" then .ok readWriteCreate
  else .error (.ofText s!"Unknown mode `{s}`, expected one of `ro`, `rw`, `rwc`")

def flags : OpenMode → OpenFlags
  | readOnly => .onlyReading
  | readWrite => .writing
  | readWriteCreate => OpenFlags.writing.union .creating

end OpenMode

/-- Where and how to open a database. -/
structure Options where
  /-- The file, none for a database in memory. -/
  file : Option Path
  mode : OpenMode
deriving DecidableEq, Repr

namespace Options

def memory : Options := ⟨none, default⟩

/-- What every URL starts with. -/
def scheme : String := "sqlite://"

/-- What is left of `s` after the characters of `lead`, if it starts with them. -/
def after? : (lead s : List Char) → Option (List Char)
  | [], s => some s
  | c :: lead, d :: s => if c = d then after? lead s else none
  | _ :: _, [] => none

/-- The parts before and after the first `sep`; no second part when there is none. -/
def splitFirst (sep : Char) : List Char → List Char × Option (List Char)
  | [] => ([], none)
  | c :: rest =>
    if c = sep then ([], some rest)
    else
      let (before, rest?) := splitFirst sep rest
      (c :: before, rest?)

/-- The parts between any two `sep`, empty ones included. -/
def splitAll (sep : Char) : List Char → List (List Char)
  | [] => [[]]
  | c :: rest =>
    if c = sep then [] :: splitAll sep rest
    else match splitAll sep rest with
      | [] => [[c]]
      | part :: parts => (c :: part) :: parts

/-- Reads one parameter of a URL, which can only name the mode. -/
def parameter (part : List Char) : Except Error OpenMode :=
  match splitFirst '=' part with
  | (['m', 'o', 'd', 'e'], some value) => OpenMode.parse (String.ofList value)
  | _ => .error (.ofText s!"Unexpected url parameter `{String.ofList part}`")

/-- The mode that the parameters give, where `mode` holds until one of them says otherwise. -/
def modeOf (mode : OpenMode) : List (List Char) → Except Error OpenMode
  | [] => .ok mode
  | part :: parts => do modeOf (← parameter part) parts

/-- What a decoded path means: no file when it is empty or names memory. -/
def fileOf (path : String) : Option Path :=
  if path = "" ∨ path = memoryLocation then none else some (.ofText path)

def parse (url : String) : Except Error Options :=
  match after? scheme.toList url.toList with
  | none => .error (.ofText s!"Expected sqlite connection url to start with `{scheme}`")
  | some rest =>
    let (path, query) := splitFirst '?' rest
    let decoded : Except Error Options := do
      let text ← (Utf8.decode (Percent.decode (Utf8.encode (String.ofList path)))).mapError
        fun fault => .ofText fault.message
      let mode ← modeOf default ((splitAll '&' (query.getD [])).filter (· ≠ []))
      return ⟨fileOf text, mode⟩
    decoded.mapError (·.within s!"Error while decoding connection URL: `{url}`")

/-- A URL is read if it has the scheme, a path that decodes to a text, and modes as parameters. -/
theorem parse_eq_ok_iff {url : String} {o : Options} : parse url = .ok o ↔
    ∃ rest text mode, after? scheme.toList url.toList = some rest ∧
      Utf8.decode (Percent.decode (Utf8.encode (String.ofList (splitFirst '?' rest).1)))
        = .ok text ∧
      modeOf default ((splitAll '&' ((splitFirst '?' rest).2.getD [])).filter (· ≠ []))
        = .ok mode ∧ o = ⟨fileOf text, mode⟩ := by
  constructor
  · intro h
    rw [parse] at h
    split at h
    · cases h
    · next rest hrest =>
      dsimp only at h
      cases htext : Utf8.decode (Percent.decode
          (Utf8.encode (String.ofList (splitFirst '?' rest).1))) with
      | error fault =>
        rw [htext] at h
        cases h
      | ok text =>
        rw [htext] at h
        cases hmode : modeOf default
            ((splitAll '&' ((splitFirst '?' rest).2.getD [])).filter (· ≠ [])) with
        | error e =>
          rw [hmode] at h
          cases h
        | ok mode =>
          rw [hmode] at h
          cases h
          exact ⟨rest, text, mode, hrest, htext, hmode, rfl⟩
  · rintro ⟨rest, text, mode, hrest, htext, hmode, rfl⟩
    rw [parse, hrest]
    dsimp only
    rw [htext, hmode]
    rfl

def display (o : Options) : String :=
  let location := match o.file with
    | some file => Percent.encode file.toText
    | none => memoryLocation
  s!"{scheme}{location}?mode={o.mode.display}"

end Options

end ConfinedDb
