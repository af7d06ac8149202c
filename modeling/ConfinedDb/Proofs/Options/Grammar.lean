import ConfinedDb.Proofs.Options.Modes
import ConfinedDb.Proofs.Options.RoundTrip
/-!
# The grammar of URLs

A URL is the scheme, a path without question mark, and possibly a question mark with parameters
after it (`Spells`); escapes in the path stand for bytes, and all of them together for a text
(`Escapes`). What can be read is exactly what is written like this, and the text and the modes alone
settle what is read: **`parse_grammar`**.

That nothing else can be read is `parse_spells`. Conversely the readers of the parts give back what
was put together (`splitAll_intercalate`, `parameter_parameterOf`), so that a spelled URL is read
(`parse_of_spells`).
-/
namespace ConfinedDb.Options

/-- The path, with its escapes read, is a text. -/
def Escapes (path : List Char) (text : String) : Prop :=
  Percent.decode (Utf8.encode (String.ofList path)) = Utf8.encode text

instance (path : List Char) (text : String) : Decidable (Escapes path text) :=
  inferInstanceAs (Decidable (_ = _))

theorem escapes_iff {path : List Char} {text : String} : Escapes path text ↔
    Utf8.decode (Percent.decode (Utf8.encode (String.ofList path))) = .ok text :=
  Utf8.decode_eq_ok_iff.symm

/-! ## Reading what was put together -/

theorem splitAll_eq_splitOn (sep : Char) (s : List Char) : splitAll sep s = s.splitOn sep := by
  induction s with
  | nil => rfl
  | cons c s ih =>
    obtain ⟨part, parts, hsplit, -⟩ := splitAll_spec sep s
    rw [splitAll, List.splitOn_cons_eq_if_modifyHead, ← ih, hsplit]
    by_cases hc : c = sep <;> simp [hc]

/-- The parts are found again, but for parameters that are all empty. -/
theorem splitAll_intercalate {parts : List (List Char)} (apart : ∀ part ∈ parts, '&' ∉ part) :
    (splitAll '&' (['&'].intercalate parts)).filter (· ≠ []) = parts.filter (· ≠ []) := by
  cases parts with
  | nil => rfl
  | cons part parts =>
    rw [splitAll_eq_splitOn, List.splitOn_intercalate '&' apart (List.cons_ne_nil part parts)]

theorem splitFirst_of_not_mem {sep : Char} {s : List Char} (h : sep ∉ s) :
    splitFirst sep s = (s, none) := by
  induction s with
  | nil => rfl
  | cons c s ih =>
    obtain ⟨hc, hs⟩ := List.ne_and_not_mem_of_not_mem_cons h
    rw [splitFirst, if_neg hc.symm, ih hs]

theorem parameter_parameterOf (mode : OpenMode) : parameter (parameterOf mode) = .ok mode := by
  cases mode <;> rfl

theorem modeOf_map (before : OpenMode) (modes : List OpenMode) :
    modeOf before (modes.map parameterOf) = .ok (modes.getLast?.getD before) := by
  induction modes generalizing before with
  | nil => rfl
  | cons mode modes ih =>
    rw [List.map_cons, modeOf, parameter_parameterOf, List.getLast?_cons, Option.getD_some]
    exact ih mode

theorem splitFirst_of_spells {url : String} {path : List Char} {modes : List OpenMode}
    (unmarked : '?' ∉ path) (spells : Spells url path modes) :
    ∃ rest query?, after? scheme.toList url.toList = some rest ∧
      splitFirst '?' rest = (path, query?) ∧
      (splitAll '&' (query?.getD [])).filter (· ≠ []) = modes.map parameterOf := by
  cases spells with
  | bare spelled =>
    exact ⟨path, none, spelled ▸ after?_append _ _, splitFirst_of_not_mem unmarked, rfl⟩
  | @asked parts modes spelled apart named =>
    refine ⟨_, some (['&'].intercalate parts), spelled ▸ after?_append _ _,
      splitFirst_append unmarked _, ?_⟩
    exact (splitAll_intercalate apart).trans named

/-- **A URL that is spelled like this is read, and as this.** -/
theorem parse_of_spells {url : String} {path : List Char} {text : String} {modes : List OpenMode}
    (unmarked : '?' ∉ path) (spells : Spells url path modes) (escapes : Escapes path text) :
    parse url = .ok ⟨fileOf text, modes.getLast?.getD .readWriteCreate⟩ := by
  obtain ⟨rest, query?, hrest, hsplit, hparts⟩ := splitFirst_of_spells unmarked spells
  have htext := escapes_iff.1 escapes
  have hmode : modeOf default ((splitAll '&' (query?.getD [])).filter (· ≠ []))
      = .ok (modes.getLast?.getD .readWriteCreate) := hparts ▸ modeOf_map default modes
  refine parse_eq_ok_iff.2 ⟨rest, text, _, hrest, ?_, ?_, rfl⟩
  · rwa [hsplit]
  · rwa [hsplit]

/-! ## All URLs -/

/-- **A URL is read if and only if it is the scheme, a path without question mark whose escapes make
a text, and possibly a question mark and parameters that are empty or name a mode.** The file is the
text, or none if that is empty or names memory, and the mode is the last one that is named. -/
theorem parse_grammar (url : String) :
    ((∃ o, parse url = .ok o) ↔
      ∃ path text modes, '?' ∉ path ∧ Spells url path modes ∧ Escapes path text) ∧
    ∀ o, parse url = .ok o ↔
      ∃ path text modes, '?' ∉ path ∧ Spells url path modes ∧ Escapes path text ∧
        o.file = (if text = "" ∨ text = ":memory:" then none else some (.ofText text)) ∧
        o.mode = modes.getLast?.getD .readWriteCreate := by
  have hreads : ∀ o, parse url = .ok o ↔
      ∃ path text modes, '?' ∉ path ∧ Spells url path modes ∧ Escapes path text ∧
        o.file = fileOf text ∧ o.mode = modes.getLast?.getD .readWriteCreate := by
    intro o
    constructor
    · intro h
      obtain ⟨path, text, modes, unmarked, spells, htext, rfl⟩ := parse_spells h
      exact ⟨path, text, modes, unmarked, spells, escapes_iff.2 htext, rfl, rfl⟩
    · rintro ⟨path, text, modes, unmarked, spells, escapes, hfile, hmode⟩
      rw [parse_of_spells unmarked spells escapes, ← hfile, ← hmode]
  refine ⟨⟨?_, ?_⟩, hreads⟩
  · rintro ⟨o, h⟩
    obtain ⟨path, text, modes, unmarked, spells, escapes, -⟩ := (hreads o).1 h
    exact ⟨path, text, modes, unmarked, spells, escapes⟩
  · rintro ⟨path, text, modes, unmarked, spells, escapes⟩
    exact ⟨_, parse_of_spells unmarked spells escapes⟩

/-- A path with an escaped question mark, empty parameters, and two modes. -/
theorem repeatedMode_grammar :
    parse "sqlite://a%3Fb?&mode=rwc&&mode=ro" = .ok ⟨some (.ofText "a?b"), .readOnly⟩ := by
  refine ((parse_grammar _).2 _).2
    ⟨"a%3Fb".toList, "a?b", [.readWriteCreate, .readOnly], by decide, ?_, by decide, by decide, rfl⟩
  exact @Spells.asked _ _ [[], "mode=rwc".toList, [], "mode=ro".toList] _ (by decide) (by decide)
    (by decide)

end ConfinedDb.Options
