import ConfinedDb.Options
import ConfinedDb.Text.Percent.RoundTrip
import ConfinedDb.Text.Utf8.RoundTrip
/-!
# Options round trip

The URL of any options is read again, and `parse_display` says as what: the mode comes back as it
was, the file as what the lossy text of its path means.

* `display_roundTrip`: **the same options come back exactly when the file is none or a path that a
  URL can spell**: a text, not empty, and not the name of the database in memory. A path that comes
  back different has other components as well, so that the answer does not depend on how paths are
  compared. **Whatever was read from a URL comes back unchanged.**
-/
namespace ConfinedDb

/-! ## Components of a text -/

namespace Utf8

def Valid (bytes : Bytes) : Prop := ∃ s, decode bytes = .ok s

theorem valid_iff {bytes : Bytes} : Valid bytes ↔ ∃ s, bytes = encode s :=
  exists_congr fun _ => decode_eq_ok_iff

theorem valid_encode (s : String) : Valid (encode s) := ⟨s, decode_encode s⟩

theorem encode_ofList (cs : List Char) :
    encode (String.ofList cs) = cs.flatMap String.utf8EncodeChar := by
  rw [encode, String.toList_ofList]

theorem valid_flatMap (cs : List Char) : Valid (cs.flatMap String.utf8EncodeChar) :=
  encode_ofList cs ▸ valid_encode _

theorem Valid.append {front back : Bytes} (hf : Valid front) (hb : Valid back) :
    Valid (front ++ back) := by
  obtain ⟨s, rfl⟩ := valid_iff.1 hf
  obtain ⟨t, rfl⟩ := valid_iff.1 hb
  refine valid_iff.2 ⟨s ++ t, ?_⟩
  rw [encode, encode, encode, String.toList_append, List.flatMap_append]

theorem encode_injective {s t : String} (h : encode s = encode t) : s = t :=
  Except.ok.inj ((decode_encode s).symm.trans (h ▸ decode_encode t))

end Utf8

namespace Path

open Utf8 (Valid)

theorem slash_not_mem_encodeChar {c : Char} (h : c ≠ '/') : slash ∉ String.utf8EncodeChar c := by
  have hc : c.val.toNat ≠ 0x2F := fun he => h (Char.ext (UInt32.toNat_inj.1 he))
  intro hm
  have hm' : 0x2F ∈ (String.utf8EncodeChar c).map UInt8.toNat := List.mem_map_of_mem hm
  simp only [String.utf8EncodeChar, apply_ite (List.map UInt8.toNat), List.map_cons, List.map_nil,
    UInt8.toNat_ofNat'] at hm'
  -- the only byte of an ASCII character is its code, and every other byte is at least `0x80`
  grind

theorem split_append {front rest part : Bytes} {parts : List Bytes} (h : slash ∉ front)
    (hr : split rest = part :: parts) : split (front ++ rest) = (front ++ part) :: parts := by
  induction front with
  | nil => exact hr
  | cons b front ih =>
    obtain ⟨hb, hf⟩ := List.ne_and_not_mem_of_not_mem_cons h
    rw [List.cons_append, split, if_neg hb.symm, ih hf, List.cons_append]

theorem split_ne_nil (bytes : Bytes) : split bytes ≠ [] := by
  cases bytes with
  | nil => exact List.cons_ne_nil _ _
  | cons b rest =>
    rw [split]
    split
    · exact List.cons_ne_nil _ _
    · split <;> exact List.cons_ne_nil _ _

/-- The stretches of a text are texts. -/
theorem split_text (cs : List Char) : ∃ parts : List (List Char),
    split (cs.flatMap String.utf8EncodeChar) =
      parts.map (List.flatMap String.utf8EncodeChar) := by
  induction cs with
  | nil => exact ⟨[[]], rfl⟩
  | cons c cs ih =>
    obtain ⟨parts, hp⟩ := ih
    rw [List.flatMap_cons]
    by_cases hc : c = '/'
    · refine ⟨[] :: parts, ?_⟩
      have hs : String.utf8EncodeChar '/' = [slash] := by decide
      rw [hc, hs, List.singleton_append, split, if_pos rfl, hp]
      rfl
    · cases parts with
      | nil => exact absurd hp (split_ne_nil _)
      | cons part parts =>
        exact ⟨(c :: part) :: parts, split_append (slash_not_mem_encodeChar hc) hp⟩

/-- Bytes whose stretches are texts are one. By induction on the bytes after `front`, which is
what is already known of the first stretch. -/
theorem valid_of_split (front : Bytes) {bytes part : Bytes} {parts : List Bytes}
    (hs : split bytes = part :: parts) (hf : Valid (front ++ part))
    (hp : ∀ part ∈ parts, Valid part) : Valid (front ++ bytes) := by
  induction bytes generalizing front part parts with
  | nil =>
    cases hs
    exact hf
  | cons b rest ih =>
    obtain ⟨part', parts', hr⟩ := List.exists_cons_of_ne_nil (split_ne_nil rest)
    rw [split] at hs
    by_cases hb : b = slash
    · rw [if_pos hb] at hs
      cases hs
      rw [List.append_nil] at hf
      rw [hr, List.forall_mem_cons] at hp
      have hrest : Valid rest := ih [] hr hp.1 hp.2
      have hslash : Valid [slash] := Utf8.valid_encode "/"
      rw [hb]
      exact hf.append (hslash.append hrest)
    · rw [if_neg hb, hr] at hs
      cases hs
      have := ih (front ++ [b]) hr (by rwa [List.append_assoc]) hp
      rwa [List.append_assoc] at this

theorem valid_of_components {p : Path} {s : String} (h : p.components = (ofText s).components) :
    Valid p.bytes := by
  have hparts : ∀ part ∈ split p.bytes, Valid part := by
    intro part hpart
    by_cases hc : part ≠ [] ∧ part ≠ [dot]
    · have hm : part ∈ (ofText s).components := h ▸ List.mem_filter.2 ⟨hpart, decide_eq_true hc⟩
      obtain ⟨parts, hp⟩ := split_text s.toList
      have hm' : part ∈ split (Utf8.encode s) := (List.mem_filter.1 hm).1
      rw [Utf8.encode, hp] at hm'
      obtain ⟨cs, -, rfl⟩ := List.mem_map.1 hm'
      exact Utf8.valid_flatMap cs
    · obtain rfl | rfl : part = [] ∨ part = [dot] := by
        by_cases he : part = []
        · exact .inl he
        · exact .inr (Decidable.not_not.1 fun hd => hc ⟨he, hd⟩)
      · exact Utf8.valid_encode ""
      · exact Utf8.valid_encode "."
  obtain ⟨part, parts, hs⟩ := List.exists_cons_of_ne_nil (split_ne_nil p.bytes)
  rw [hs, List.forall_mem_cons] at hparts
  exact valid_of_split [] hs hparts.1 hparts.2

end Path

namespace Options

/-! ## The parts of a URL -/

theorem after?_append (lead s : List Char) : after? lead (lead ++ s) = some s := by
  induction lead with
  | nil => rfl
  | cons c lead ih => rw [List.cons_append, after?, if_pos rfl, ih]

theorem splitFirst_append {sep : Char} {before : List Char} (h : sep ∉ before) (rest : List Char) :
    splitFirst sep (before ++ sep :: rest) = (before, some rest) := by
  induction before with
  | nil => rw [List.nil_append, splitFirst, if_pos rfl]
  | cons c before ih =>
    obtain ⟨hc, hbefore⟩ := List.ne_and_not_mem_of_not_mem_cons h
    rw [List.cons_append, splitFirst, if_neg hc.symm, ih hbefore]

theorem modeOf_display (mode : OpenMode) :
    modeOf default ((splitAll '&' ("mode=".toList ++ mode.display.toList)).filter (· ≠ [])) =
      .ok mode := by
  cases mode <;> rfl

theorem mark_not_mem_encodeByte : ∀ i : Fin 256, '?' ∉ Percent.encodeByte (UInt8.ofNat i.val) := by
  decide +kernel

/-- No byte of a path is written with the sign that ends it. -/
theorem mark_not_mem_encode (s : String) : '?' ∉ (Percent.encode s).toList := by
  rw [Percent.encode, String.toList_ofList, List.mem_flatMap]
  rintro ⟨b, -, hb⟩
  have := mark_not_mem_encodeByte ⟨b.toNat, b.toNat_lt⟩
  rw [UInt8.ofNat_toNat] at this
  exact this hb

/-! ## Reading what was written -/

/-- What stands for the file in a URL. -/
def location (o : Options) : String :=
  match o.file with
  | some file => Percent.encode file.toText
  | none => memoryLocation

/-- The text that the location is read as. -/
def named (o : Options) : String :=
  match o.file with
  | some file => file.toText
  | none => memoryLocation

theorem display_eq (o : Options) :
    o.display = scheme ++ o.location ++ "?mode=" ++ o.mode.display := rfl

def Agrees (o o' : Options) : Prop :=
  o.mode = o'.mode ∧ o.file.map Path.components = o'.file.map Path.components

/-- No file, or one that a URL can spell. -/
def Spelled (o : Options) : Prop :=
  ∀ file, o.file = some file →
    Utf8.Valid file.bytes ∧ file.bytes ≠ [] ∧ file.bytes ≠ Utf8.encode memoryLocation

theorem mark_not_mem_location (o : Options) : '?' ∉ o.location.toList := by
  rcases o with ⟨_ | file, mode⟩
  · have h : '?' ∉ memoryLocation.toList := by decide
    exact h
  · exact mark_not_mem_encode file.toText

theorem decode_location (o : Options) :
    Utf8.decode (Percent.decode (Utf8.encode o.location)) = .ok o.named := by
  rcases o with ⟨_ | file, mode⟩
  · have h : Percent.decode (Utf8.encode memoryLocation) = Utf8.encode memoryLocation := by decide
    rw [location, h, Utf8.decode_encode]
    rfl
  · rw [location, Percent.decode_encode, Utf8.decode_encode]
    rfl

theorem parse_display (o : Options) : parse o.display = .ok ⟨fileOf o.named, o.mode⟩ := by
  have hrest : o.display.toList = scheme.toList ++
      (o.location.toList ++ '?' :: ("mode=".toList ++ o.mode.display.toList)) := by
    rw [display_eq]
    simp only [String.toList_append, List.append_assoc]
    rfl
  have hpath := splitFirst_append (mark_not_mem_location o)
    ("mode=".toList ++ o.mode.display.toList)
  refine parse_eq_ok_iff.2 ⟨_, o.named, o.mode, hrest ▸ after?_append _ _, ?_, ?_, rfl⟩
  · rw [hpath, String.ofList_toList]
    exact decode_location o
  · rw [hpath]
    exact modeOf_display o.mode

/-- What a text is read as can be spelled again. -/
theorem spelled_fileOf (s : String) (mode : OpenMode) : Spelled ⟨fileOf s, mode⟩ := by
  intro file hfile
  have hs : ¬(s = "" ∨ s = memoryLocation) := by
    intro hs
    rw [fileOf, if_pos hs] at hfile
    cases hfile
  rw [fileOf, if_neg hs] at hfile
  cases hfile
  exact ⟨Utf8.valid_encode s, fun he => hs (.inl (Utf8.encode_injective he)),
    fun he => hs (.inr (Utf8.encode_injective he))⟩

theorem fileOf_named {o : Options} (h : o.Spelled) : fileOf o.named = o.file := by
  rcases o with ⟨_ | file, mode⟩
  · exact if_pos (.inr rfl)
  · obtain ⟨⟨s, hs⟩, hempty, hmemory⟩ := h file rfl
    have hbytes : Utf8.encode file.toText = file.bytes := Utf8.encode_lossy_of_decode hs
    have hs : ¬(file.toText = "" ∨ file.toText = memoryLocation) := by
      rintro (he | he)
      · exact hempty (by rw [← hbytes, he]; rfl)
      · exact hmemory (by rw [← hbytes, he])
    calc fileOf file.toText = some (.ofText file.toText) := if_neg hs
      _ = some file := by rw [Path.ofText, hbytes]

/-- The components of what comes back are enough to tell that the file was spelled. -/
theorem spelled_of_agrees {o : Options} (h : Agrees ⟨fileOf o.named, o.mode⟩ o) : o.Spelled := by
  rcases o with ⟨_ | file, mode⟩
  · intro file hfile
    cases hfile
  · obtain ⟨-, hfile⟩ := h
    have hs : ¬(file.toText = "" ∨ file.toText = memoryLocation) := by
      intro hs
      rw [named, fileOf, if_pos hs] at hfile
      cases hfile
    rw [named, fileOf, if_neg hs] at hfile
    obtain ⟨s, hvalid⟩ := Path.valid_of_components (Option.some.inj hfile).symm
    have hbytes : Utf8.encode file.toText = file.bytes := Utf8.encode_lossy_of_decode hvalid
    have := spelled_fileOf file.toText mode
    rwa [fileOf, if_neg hs, Path.ofText, hbytes] at this

/-- Options in general come back with the file that the text of their path means; those read from a
URL come back as they are. -/
theorem display_roundTrip :
    (∀ o : Options, ∃ o', parse o.display = .ok o' ∧ (o' = o ↔ o.Spelled) ∧
      (o'.Agrees o ↔ o.Spelled)) ∧
    ∀ url o, parse url = .ok o → parse o.display = .ok o := by
  have hback : ∀ o : Options, o.Spelled → (⟨fileOf o.named, o.mode⟩ : Options) = o := by
    intro o h
    rw [fileOf_named h]
  have hread : ∀ url o, parse url = .ok o → o.Spelled := by
    intro url o h
    obtain ⟨-, s, mode, -, -, -, rfl⟩ := parse_eq_ok_iff.1 h
    exact spelled_fileOf s mode
  refine ⟨fun o => ⟨_, parse_display o, ⟨fun h => spelled_of_agrees ?_, hback o⟩,
    ⟨spelled_of_agrees, fun h => ?_⟩⟩, fun url o h => ?_⟩
  · rw [h]
    exact ⟨rfl, rfl⟩
  · rw [hback o h]
    exact ⟨rfl, rfl⟩
  · rw [parse_display, hback o (hread url o h)]

/-- A path with the sign that ends a path. -/
theorem markedPath_roundTrip :
    let o : Options := ⟨some (.ofText "a?b"), .readOnly⟩
    parse "sqlite://a%3Fb?mode=ro" = .ok o ∧ parse o.display = .ok o := by
  have hread : parse "sqlite://a%3Fb?mode=ro" = .ok ⟨some (.ofText "a?b"), .readOnly⟩ := by
    have h : (parse "sqlite://a%3Fb?mode=ro").toOption
        = some ⟨some (.ofText "a?b"), .readOnly⟩ := by decide +kernel
    cases hp : parse "sqlite://a%3Fb?mode=ro" with
    | error e =>
      rw [hp] at h
      cases h
    | ok o =>
      rw [hp] at h
      cases h
      rfl
  exact ⟨hread, display_roundTrip.2 _ _ hread⟩

end Options

end ConfinedDb
