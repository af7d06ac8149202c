import ConfinedDb.Proofs.Opening.Requested
/-!
# Files that are mistaken for others

A connection asks for its file by a text, the lossy text of the absolute form (`asksFor_iff`). It
denotes that file exactly if the absolute form is a text, and no other file is asked for by the same
text exactly if in addition it has no U+FFFD: **`conflated_exactly`**; `byteFiles_conflated` are two
files that are mistaken for each other.

For the second part a connection has to be given that asks for the same location. A change of
spelling that keeps slashes, empty stretches and the name `.` (`Recoding`) goes through the whole
resolution: what the changed file is resolved to is the changed absolute form
(`Recoding.absolute?_map`). Every way to spell U+FFFD is such a change (`recoding_respell`).
-/
namespace ConfinedDb

open Utf8 (chars respell Legible)

/-! ## Resolution -/

namespace Path

theorem stretches_induction {prop : Bytes → Prop} (last : ∀ x, slash ∉ x → prop x)
    (more : ∀ x y, slash ∉ x → prop y → prop (x ++ slash :: y)) (bytes : Bytes) : prop bytes := by
  induction hn : bytes.length using Nat.strongRecOn generalizing bytes with
  | ind n ih =>
    by_cases hmem : slash ∈ bytes
    · obtain ⟨x, y, rfl, hx⟩ := List.eq_append_cons_of_mem hmem
      refine more x y hx (ih y.length ?_ y rfl)
      rw [← hn, List.length_append, List.length_cons]
      omega
    · exact last bytes hmem

theorem split_more {x : Bytes} (h : slash ∉ x) (y : Bytes) :
    split (x ++ slash :: y) = x :: split y := by
  have hrest : split (slash :: y) = [] :: split y := by rw [split, if_pos rfl]
  rw [split_append h hrest, List.append_nil]

theorem split_last {x : Bytes} (h : slash ∉ x) : split x = [x] := by
  have hs : split (x ++ []) = (x ++ []) :: [] := split_append h rfl
  rwa [List.append_nil] at hs

/-- What a path is appended to depends on its first three bytes. -/
theorem anchor_eq (p directory : Path) :
    p.anchor directory =
      if p.bytes.head? = some slash then
        if p.bytes.tail.head? = some slash ∧ p.bytes.tail.tail.head? ≠ some slash then
          [slash, slash]
        else [slash]
      else directory.bytes := by
  have hhead : ∀ {rest : Bytes}, (∀ rest', rest = slash :: rest' → False) →
      rest.head? ≠ some slash := by
    intro rest hno h
    obtain ⟨rest', he⟩ := List.head?_eq_some_iff.1 h
    exact hno rest' he
  unfold anchor
  split
  · next h =>
    rw [h]
    rfl
  · next rest hno h =>
    rw [h]
    exact ((if_pos rfl).trans (if_pos ⟨rfl, hhead hno⟩)).symm
  · next rest _ hno h =>
    rw [h]
    exact ((if_pos rfl).trans (if_neg fun hs => hhead hno hs.1)).symm
  · next hno => exact (if_neg (hhead hno)).symm

/-- A change of byte strings that keeps the stretches between slashes apart, and which of them
count. -/
structure Recoding (φ : Bytes → Bytes) : Prop where
  slash : ∀ x y, φ (x ++ slash :: y) = φ x ++ slash :: φ y
  within : ∀ x, Path.slash ∉ x → Path.slash ∉ φ x
  nil : ∀ x, φ x = [] ↔ x = []
  dot : ∀ x, φ x = [dot] ↔ x = [dot]

def recode (φ : Bytes → Bytes) (p : Path) : Path := ⟨φ p.bytes⟩

namespace Recoding

variable {φ : Bytes → Bytes} (r : Recoding φ)

include r

theorem empty : φ [] = [] := (r.nil []).2 rfl

theorem cons_slash (x : Bytes) : φ (Path.slash :: x) = Path.slash :: φ x := by
  have h := r.slash [] x
  rwa [r.empty] at h

theorem concat_slash (x : Bytes) : φ (x ++ [Path.slash]) = φ x ++ [Path.slash] := by
  rw [r.slash, r.empty]

theorem split_map (bytes : Bytes) : split (φ bytes) = (split bytes).map φ := by
  induction bytes using stretches_induction with
  | last x hx => rw [split_last hx, split_last (r.within x hx), List.map_singleton]
  | more x y hx ih =>
    rw [r.slash, split_more hx, split_more (r.within x hx), ih, List.map_cons]

theorem components_map (p : Path) :
    (recode φ p).components = p.components.map φ := by
  have hcounts : ∀ part, (φ part ≠ [] ∧ φ part ≠ [Path.dot]) ↔ (part ≠ [] ∧ part ≠ [Path.dot]) :=
    fun part => and_congr (not_congr (r.nil part)) (not_congr (r.dot part))
  rw [components, recode, r.split_map, List.filter_map]
  refine congrArg (List.map φ) (List.filter_congr fun part _ => ?_)
  simp only [Function.comp_apply, decide_eq_decide]
  exact hcounts part

theorem getLast_iff (bytes : Bytes) :
    (φ bytes).getLast? = some Path.slash ↔ bytes.getLast? = some Path.slash := by
  induction bytes using stretches_induction with
  | last x hx =>
    exact iff_of_false (fun h => r.within x hx (List.mem_of_getLast? h))
      fun h => hx (List.mem_of_getLast? h)
  | more x y hx ih =>
    rw [r.slash]
    by_cases hy : y = []
    · subst hy
      simp [r.empty]
    · have hy' : φ y ≠ [] := mt (r.nil y).1 hy
      obtain ⟨b, y, rfl⟩ := List.exists_cons_of_ne_nil hy
      obtain ⟨b', y', he⟩ := List.exists_cons_of_ne_nil hy'
      simpa [he] using ih

theorem head_iff (bytes : Bytes) :
    (φ bytes).head? = some Path.slash ↔ bytes.head? = some Path.slash := by
  have hwithin : ∀ {x : Bytes}, Path.slash ∉ x → x.head? ≠ some Path.slash :=
    fun hx h => hx (List.mem_of_head? h)
  induction bytes using stretches_induction with
  | last x hx => exact iff_of_false (hwithin (r.within x hx)) (hwithin hx)
  | more x y hx ih =>
    rw [r.slash]
    by_cases hnil : x = []
    · subst hnil
      simp [r.empty]
    · have hnil' : φ x ≠ [] := mt (r.nil x).1 hnil
      rw [List.head?_append_of_ne_nil _ hnil, List.head?_append_of_ne_nil _ hnil']
      exact iff_of_false (hwithin (r.within x hx)) (hwithin hx)

theorem push_map (base component : Bytes) :
    push (φ base) (φ component) = φ (push base component) := by
  by_cases hnil : base = []
  · subst hnil
    simp [push, r.empty]
  have hnil' : φ base ≠ [] := mt (r.nil base).1 hnil
  by_cases hlast : base.getLast? = some Path.slash
  · obtain ⟨x, rfl⟩ := List.getLast?_eq_some_iff.1 hlast
    rw [push, push, if_pos (.inr ((r.getLast_iff _).2 hlast)), if_pos (.inr hlast), r.concat_slash,
      List.append_assoc, List.append_assoc, List.singleton_append, List.singleton_append, r.slash]
  · have hlast' : (φ base).getLast? ≠ some Path.slash := mt (r.getLast_iff base).1 hlast
    rw [push, push, if_neg (not_or.2 ⟨hnil, hlast⟩), if_neg (not_or.2 ⟨hnil', hlast'⟩), r.slash]

theorem foldl_push_map (components : List Bytes) (base : Bytes) :
    (components.map φ).foldl push (φ base) = φ (components.foldl push base) := by
  induction components generalizing base with
  | nil => rfl
  | cons component components ih =>
    rw [List.map_cons, List.foldl_cons, List.foldl_cons, r.push_map, ih]

theorem tail_map {bytes : Bytes} (h : bytes.head? = some Path.slash) :
    (φ bytes).tail = φ bytes.tail := by
  obtain ⟨rest, rfl⟩ := List.head?_eq_some_iff.1 h
  rw [r.cons_slash, List.tail_cons, List.tail_cons]

theorem anchor_map (p directory : Path) :
    (recode φ p).anchor (recode φ directory) = φ (p.anchor directory) := by
  have hone : φ [Path.slash] = [Path.slash] := by rw [r.cons_slash, r.empty]
  have htwo : φ [Path.slash, Path.slash] = [Path.slash, Path.slash] := by rw [r.cons_slash, hone]
  rw [anchor_eq, anchor_eq, recode]
  simp only [r.head_iff]
  by_cases hfirst : p.bytes.head? = some Path.slash
  · simp only [if_pos hfirst, r.tail_map hfirst, r.head_iff]
    by_cases hsecond : p.bytes.tail.head? = some Path.slash
    · simp only [r.tail_map hsecond, ne_eq, r.head_iff]
      split_ifs
      · exact htwo.symm
      · exact hone.symm
    · simp only [hsecond, false_and, if_false]
      exact hone.symm
  · rw [if_neg hfirst, if_neg hfirst]
    rfl

/-- **What the changed path is resolved to is the changed absolute form.** -/
theorem absolute?_map (p directory : Path) :
    (recode φ p).absolute? (recode φ directory) = (p.absolute? directory).map (recode φ) := by
  have hbody : (recode φ p).components.foldl push ((recode φ p).anchor (recode φ directory))
      = φ (p.components.foldl push (p.anchor directory)) := by
    rw [r.components_map, r.anchor_map, r.foldl_push_map]
  unfold absolute?
  by_cases hnil : p.bytes = []
  · have hnil' : (recode φ p).bytes = [] := (r.nil _).2 hnil
    rw [if_pos hnil, if_pos hnil', Option.map_none]
  · have hnil' : (recode φ p).bytes ≠ [] := mt (r.nil _).1 hnil
    rw [if_neg hnil, if_neg hnil', hbody, Option.map_some]
    refine congrArg some (congrArg Path.mk ?_)
    by_cases hlast : p.bytes.getLast? = some Path.slash
    · have hlast' : (recode φ p).bytes.getLast? = some Path.slash := (r.getLast_iff _).2 hlast
      rw [if_pos hlast, if_pos hlast', ← r.push_map, r.empty]
    · have hlast' : (recode φ p).bytes.getLast? ≠ some Path.slash := mt (r.getLast_iff _).1 hlast
      rw [if_neg hlast, if_neg hlast']

end Recoding

/-- Another spelling of what is read is such a change. -/
theorem recoding_respell {spell : Char → Bytes} (legible : Legible spell) :
    Recoding (respell spell) := by
  have hsame : ∀ {x y : Bytes}, '\uFFFD' ∉ chars y → (respell spell x = y ↔ x = y) := by
    intro x y hy
    constructor
    · intro h
      exact Utf8.eq_of_chars hy ((Utf8.chars_respell legible x).symm.trans (congrArg chars h))
    · rintro rfl
      exact Utf8.eq_of_chars hy (Utf8.chars_respell legible x)
  have hslash : spell '/' = [slash] := by
    have hchars : chars (spell '/' ++ []) = '/' :: chars [] := legible '/' []
    rw [List.append_nil, ← Utf8.chars_slash] at hchars
    exact Utf8.eq_of_chars (by decide +kernel) hchars
  refine ⟨fun x y => ?_, fun x hx => ?_, fun x => hsame ?_, fun x => hsame ?_⟩
  · simp only [respell, Utf8.chars_append_slash, List.flatMap_append, List.flatMap_cons, hslash]
    rfl
  · rwa [← Utf8.slash_mem_iff, Utf8.chars_respell legible, Utf8.slash_mem_iff]
  · decide +kernel
  · decide +kernel

/-- The path is a text in which there is no U+FFFD. -/
def Plain (p : Path) : Prop := ∃ s, p.bytes = Utf8.encode s ∧ '\uFFFD' ∉ s.toList

theorem plain_iff {p : Path} : p.Plain ↔ '\uFFFD' ∉ chars p.bytes := by
  constructor
  · rintro ⟨s, hs, h⟩
    rwa [chars, hs, Utf8.lossy_encode]
  · intro h
    exact ⟨_, (Utf8.encode_lossy h).symm, h⟩

/-- A plain path is the only one with its text. -/
theorem Plain.eq_of_toText {p q : Path} (plain : p.Plain) (h : q.toText = p.toText) : q = p :=
  congrArg Path.mk (Utf8.eq_of_chars (plain_iff.1 plain) (congrArg String.toList h))

theorem toText_respell {spell : Char → Bytes} (legible : Legible spell) (p : Path) :
    (p.recode (respell spell)).toText = p.toText :=
  String.toList_inj.1 (Utf8.chars_respell legible p.bytes)

end Path

/-! ## Connections -/

namespace Connection

def resolved? (c : Connection) : Option Path := c.file.bind (·.absolute? c.directory)

def recode (φ : Bytes → Bytes) (c : Connection) : Connection :=
  { c with file := c.file.map (Path.recode φ), directory := c.directory.recode φ }

theorem location_of_resolved {c : Connection} {q : Path} (h : c.resolved? = some q) :
    c.location = q.toText := by
  obtain ⟨file, hfile, hq⟩ := Option.bind_eq_some_iff.1 h
  simp only [location, hfile, hq, Option.getD_some]

theorem resolved?_recode {φ : Bytes → Bytes} (r : Path.Recoding φ) (c : Connection) :
    (c.recode φ).resolved? = c.resolved?.map (Path.recode φ) := by
  rw [resolved?, resolved?, recode]
  cases c.file with
  | none => rfl
  | some file => exact r.absolute?_map file c.directory

end Connection

namespace Interleaving

/-- The location is one that the connection asks the engine for in some run of the threads. -/
def AsksFor {E : Engine} (e : E.State) (c : Connection) (location : String) : Prop :=
  ∃ ls w l t task flags, Run (programs c) E e AnyStep ls w ∧
    w.Calls l t task (.open location flags)

variable {E : Engine} {e : E.State} {c c' : Connection}

/-- **A connection asks for one location.** -/
theorem asksFor_iff {location : String} : AsksFor e c location ↔ location = c.location := by
  constructor
  · rintro ⟨ls, w, l, t, task, flags, run, hcalls⟩
    obtain ⟨v, rfl, -⟩ := run_programs_iff.1 run
    obtain ⟨-, mode, -, -, rfl, -⟩ := asked_open ((realize_calls v l t task _).1 hcalls)
    rfl
  · rintro rfl
    have hcalls : (World.initial e : World (phases c) E).Calls
        (.start ⟨0⟩ (.open .readWriteCreate)) ⟨0⟩ (.open .readWriteCreate)
        (.open c.location OpenMode.readWriteCreate.flags) := fit_open rfl rfl rfl rfl
    exact ⟨[], _, _, _, _, _, .nil, (realize_calls _ _ _ _ _).2 hcalls⟩

theorem asksFor_of_resolved {q : Path} (h : c.resolved? = some q) {location : String} :
    AsksFor e c location ↔ location = q.toText := by
  rw [asksFor_iff, Connection.location_of_resolved h]

/-- **When a file is mistaken for another one.** What a connection asks for denotes the absolute
form of its file exactly if this is a text. If there is no U+FFFD in the text, no connection to a
file with another absolute form asks for the same location. In every other case there is one that
does, and it is one in the same working directory if the name of that is such a text. -/
theorem conflated_exactly (e : E.State) {q : Path} (h : c.resolved? = some q) :
    ((∀ location, AsksFor e c location → Utf8.encode location = q.bytes) ↔ Utf8.Valid q.bytes) ∧
    (q.Plain → ∀ {E' : Engine} (e' : E'.State) (c' : Connection) (q' : Path),
      c'.resolved? = some q' → q' ≠ q →
        ∀ location, AsksFor e c location → ¬AsksFor e' c' location) ∧
    (¬q.Plain → ∃ c' q', c'.resolved? = some q' ∧ q' ≠ q ∧
      (c.directory.Plain → c'.directory = c.directory) ∧
      ∃ location, AsksFor e c location ∧ AsksFor e c' location) := by
  refine ⟨?_, fun plain E' e' c' q' h' hne location hasks hasks' => ?_, fun hplain => ?_⟩
  · constructor
    · intro hdenotes
      exact Utf8.valid_iff.2 ⟨_, (hdenotes _ ((asksFor_of_resolved h).2 rfl)).symm⟩
    · intro hvalid location hasks
      obtain rfl := (asksFor_of_resolved h).1 hasks
      obtain ⟨s, hs⟩ := hvalid
      exact Utf8.encode_lossy_of_decode hs
  · have hsame : q'.toText = q.toText :=
      ((asksFor_of_resolved h').1 hasks').symm.trans ((asksFor_of_resolved h).1 hasks)
    exact hne (plain.eq_of_toText hsame)
  · obtain ⟨spell, legible, hother⟩ :=
      Utf8.exists_respelled (not_not.1 (mt Path.plain_iff.2 hplain))
    have h' : (c.recode (respell spell)).resolved? = some (q.recode (respell spell)) := by
      rw [Connection.resolved?_recode (Path.recoding_respell legible), h, Option.map_some]
    refine ⟨_, _, h', fun he => hother (congrArg Path.bytes he), fun plain => ?_, q.toText,
      (asksFor_of_resolved h).2 rfl, (asksFor_of_resolved h').2 ?_⟩
    · exact plain.eq_of_toText (Path.toText_respell legible _)
    · exact (Path.toText_respell legible q).symm

def blank : recording.State := RecordingEngine.initial

/-- Nothing else is asked for by the location of a relative file with an ordinary name. -/
theorem dataFile_not_conflated :
    let c : Connection := ⟨1, some (.ofText "data.sqlite"), .ofText "/cwd"⟩
    c.resolved? = some (.ofText "/cwd/data.sqlite") ∧
      AsksFor blank c "/cwd/data.sqlite" ∧
      ∀ (c' : Connection) (q' : Path), c'.resolved? = some q' → q' ≠ .ofText "/cwd/data.sqlite" →
        ¬AsksFor blank c' "/cwd/data.sqlite" := by
  intro c
  have hq : c.resolved? = some (.ofText "/cwd/data.sqlite") := by decide +kernel
  have hasks : AsksFor blank c "/cwd/data.sqlite" :=
    asksFor_iff.2 (by decide +kernel)
  have hplain : (Path.ofText "/cwd/data.sqlite").Plain := ⟨_, rfl, by decide +kernel⟩
  refine ⟨hq, hasks, fun c' q' h' hne => ?_⟩
  exact (conflated_exactly blank hq).2.1 hplain
    blank c' q' h' hne _ hasks

/-- A connection to a file the name of which is one byte. -/
def byteFile (b : UInt8) : Connection := ⟨1, some ⟨Utf8.encode "/tmp/" ++ [b]⟩, .ofText "/cwd"⟩

/-- Two files with names that are no texts are asked for by one location, and it denotes neither. -/
theorem byteFiles_conflated :
    (byteFile 0xFF).resolved? = (byteFile 0xFF).file ∧
      (byteFile 0xFE).resolved? = (byteFile 0xFE).file ∧
      (byteFile 0xFF).file ≠ (byteFile 0xFE).file ∧
      AsksFor blank (byteFile 0xFF) "/tmp/\uFFFD" ∧
      AsksFor blank (byteFile 0xFE) "/tmp/\uFFFD" ∧
      some (Path.ofText "/tmp/\uFFFD") ≠ (byteFile 0xFF).file ∧
      some (Path.ofText "/tmp/\uFFFD") ≠ (byteFile 0xFE).file := by
  refine ⟨by decide +kernel, by decide +kernel, by decide, asksFor_iff.2 ?_, asksFor_iff.2 ?_,
    by decide, by decide⟩ <;> decide +kernel

end Interleaving

end ConfinedDb
