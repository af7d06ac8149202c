import ConfinedDb.Options
/-!
# The mode of a URL

What a URL says when it can be read: after the scheme a path, and after the first question mark
parameters between ampersands, each of which is empty or names a mode (`Spells`). The last mode
holds, and without any the default (**`parse_spells`**).
-/
namespace ConfinedDb.Options

def parameterOf (mode : OpenMode) : List Char := "mode=".toList ++ mode.display.toList

/-- A URL has this path and names these modes, one after the other. -/
inductive Spells (url : String) (path : List Char) : List OpenMode → Prop
  | bare (spelled : url.toList = scheme.toList ++ path) : Spells url path []
  | asked {parts : List (List Char)} {modes : List OpenMode}
    (spelled : url.toList = scheme.toList ++ (path ++ '?' :: ['&'].intercalate parts))
    (apart : ∀ part ∈ parts, '&' ∉ part)
    (named : parts.filter (· ≠ []) = modes.map parameterOf) : Spells url path modes

/-! ## What the parts are parts of -/

theorem eq_append_of_after? {lead s rest : List Char} (h : after? lead s = some rest) :
    s = lead ++ rest := by
  induction lead generalizing s with
  | nil => exact Option.some.inj h
  | cons c lead ih =>
    cases s with
    | nil => cases h
    | cons d s =>
      rw [after?] at h
      split at h
      · next hc => rw [hc, List.cons_append, ih h]
      · cases h

/-- What comes before the first sign, and what after it. -/
theorem splitFirst_spec (sep : Char) (s : List Char) :
    sep ∉ (splitFirst sep s).1 ∧
      s = match (splitFirst sep s).2 with
        | none => (splitFirst sep s).1
        | some rest => (splitFirst sep s).1 ++ sep :: rest := by
  induction s with
  | nil => exact ⟨List.not_mem_nil, rfl⟩
  | cons c s ih =>
    obtain ⟨hnot, heq⟩ := ih
    rw [splitFirst]
    by_cases hc : c = sep
    · rw [if_pos hc, hc]
      exact ⟨List.not_mem_nil, rfl⟩
    · rw [if_neg hc]
      refine ⟨List.not_mem_cons_of_ne_of_not_mem (Ne.symm hc) hnot, ?_⟩
      cases hr : (splitFirst sep s).2 with
      | none =>
        rw [hr] at heq
        exact congrArg (List.cons c) heq
      | some rest =>
        rw [hr] at heq
        exact congrArg (List.cons c) heq

/-- The parts, joined by the sign again. -/
theorem splitAll_spec (sep : Char) (s : List Char) :
    ∃ part parts, splitAll sep s = part :: parts ∧ [sep].intercalate (part :: parts) = s ∧
      ∀ p ∈ part :: parts, sep ∉ p := by
  induction s with
  | nil => exact ⟨[], [], rfl, rfl, by simp⟩
  | cons c s ih =>
    obtain ⟨part, parts, hsplit, hjoin, hnot⟩ := ih
    rw [splitAll]
    by_cases hc : c = sep
    · rw [if_pos hc, hsplit]
      refine ⟨[], part :: parts, rfl, ?_, ?_⟩
      · rw [List.intercalate_cons_cons, hjoin, hc]
        rfl
      · exact List.forall_mem_cons.2 ⟨List.not_mem_nil, hnot⟩
    · rw [if_neg hc, hsplit]
      refine ⟨c :: part, parts, rfl, ?_, ?_⟩
      · rw [← hjoin]
        cases parts with
        | nil => simp [List.intercalate_singleton]
        | cons next parts => simp [List.intercalate_cons_cons]
      · obtain ⟨hpart, hparts⟩ := List.forall_mem_cons.1 hnot
        exact List.forall_mem_cons.2
          ⟨List.not_mem_cons_of_ne_of_not_mem (Ne.symm hc) hpart, hparts⟩

/-! ## What the parameters say -/

theorem eq_display_of_parse {s : String} {mode : OpenMode} (h : OpenMode.parse s = .ok mode) :
    s = mode.display := by
  unfold OpenMode.parse at h
  split at h
  · next hs =>
    cases h
    exact hs
  · split at h
    · next hs =>
      cases h
      exact hs
    · split at h
      · next hs =>
        cases h
        exact hs
      · cases h

theorem parameter_spec {part : List Char} {mode : OpenMode} (h : parameter part = .ok mode) :
    part = parameterOf mode := by
  have hpart := (splitFirst_spec '=' part).2
  unfold parameter at h
  split at h
  · next value hsplit =>
    rw [hsplit] at hpart
    have hvalue : mode.display.toList = value := by
      rw [← eq_display_of_parse h, String.toList_ofList]
    rw [hpart, parameterOf, hvalue]
    rfl
  · cases h

/-- The parameters name modes, and the last of these holds. -/
theorem modeOf_spec {before mode : OpenMode} {parts : List (List Char)}
    (h : modeOf before parts = .ok mode) :
    ∃ modes : List OpenMode, parts = modes.map parameterOf ∧
      mode = modes.getLast?.getD before := by
  induction parts generalizing before with
  | nil =>
    cases h
    exact ⟨[], rfl, rfl⟩
  | cons part parts ih =>
    cases hp : parameter part with
    | error e =>
      rw [modeOf, hp] at h
      cases h
    | ok first =>
      rw [modeOf, hp] at h
      obtain ⟨modes, rfl, rfl⟩ := ih h
      refine ⟨first :: modes, by rw [parameter_spec hp]; rfl, ?_⟩
      rw [List.getLast?_cons, Option.getD_some]

/-- **A URL that can be read names modes only, and the last one is the mode that is read.** -/
theorem parse_spells {url : String} {o : Options} (h : parse url = .ok o) :
    ∃ path text modes, '?' ∉ path ∧ Spells url path modes ∧
      Utf8.decode (Percent.decode (Utf8.encode (String.ofList path))) = .ok text ∧
      o = ⟨fileOf text, modes.getLast?.getD .readWriteCreate⟩ := by
  obtain ⟨rest, text, mode, hrest, htext, hmode, rfl⟩ := parse_eq_ok_iff.1 h
  have hurl := eq_append_of_after? hrest
  obtain ⟨hnot, hsplit⟩ := splitFirst_spec '?' rest
  obtain ⟨modes, hparts, rfl⟩ := modeOf_spec hmode
  refine ⟨_, text, modes, hnot, ?_, htext, rfl⟩
  cases hquery : (splitFirst '?' rest).2 with
  | none =>
    rw [hquery] at hsplit hparts
    have hnone : modes = [] := List.map_eq_nil_iff.1 (hparts.symm.trans rfl)
    subst hnone
    exact .bare (hurl.trans (congrArg _ hsplit))
  | some query =>
    rw [hquery] at hsplit hparts
    obtain ⟨part, parts, hall, hjoin, hapart⟩ := splitAll_spec '&' query
    have hparts : (splitAll '&' query).filter (· ≠ []) = modes.map parameterOf := hparts
    rw [hall] at hparts
    refine .asked (hurl.trans (congrArg _ ?_)) hapart hparts
    rw [hjoin]
    exact hsplit

end ConfinedDb.Options
