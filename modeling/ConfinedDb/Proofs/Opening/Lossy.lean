import ConfinedDb.Proofs.Options.RoundTrip
/-!
# What the lossy reading keeps

The lossy reading puts U+FFFD wherever bytes are no text, so byte strings can be read alike. What it
keeps is the slashes: they are where they were, with the same stretches between them
(`chars_append_slash`, `slash_mem_iff`). And where it reads no U+FFFD it keeps everything
(**`eq_of_chars`**).

Only U+FFFD can be spelled in several ways then. `respell` writes what was read with the spelling of
one's choice, and it is read alike again (`chars_respell`): U+FFFD as a character makes a text of
any byte string, and as a byte that is part of no character it makes none of any that has one.
-/
namespace ConfinedDb.Utf8

open ConfinedDb.Path (slash dot)

def Piece.shown : Piece → Char
  | .char c => c
  | .broken .. => '\uFFFD'

def chars (bytes : Bytes) : List Char := (lossy bytes).toList

theorem chars_eq (bytes : Bytes) : chars bytes = (pieces bytes).map Piece.shown := by
  rw [chars, lossy, String.toList_ofList]
  refine List.map_congr_left fun p _ => ?_
  cases p <;> rfl

theorem chars_nil : chars [] = [] := by
  rw [chars_eq, pieces]
  rfl

theorem chars_of_none {b : UInt8} (hf : followers? b = none) (rest : Bytes) :
    chars (b :: rest) = '\uFFFD' :: chars rest := by
  simp only [chars_eq, pieces, hf, List.map_cons, Piece.shown]

/-- A lead byte is read with those of its followers that agree. -/
theorem chars_of_some {b : UInt8} {ranges : List (UInt8 × UInt8)}
    (hf : followers? b = some ranges) (rest : Bytes) :
    let n := agreeing ranges rest
    chars (b :: rest) = (if n = ranges.length then assemble b (rest.take n) else '\uFFFD') ::
      chars (rest.drop n) := by
  intro n
  rw [chars_eq, pieces, hf]
  show List.map Piece.shown (if n = ranges.length then _ else _) = _
  rw [chars_eq]
  split <;> rfl

theorem chars_encodeChar (c : Char) (rest : Bytes) :
    chars (String.utf8EncodeChar c ++ rest) = c :: chars rest := by
  simp only [chars_eq, pieces_encodeChar, List.map_cons, Piece.shown]

/-! ## Slashes -/

theorem chars_slash (rest : Bytes) : chars (slash :: rest) = '/' :: chars rest :=
  chars_encodeChar '/' rest

theorem slash_lt_of_followers {b : UInt8} {ranges : List (UInt8 × UInt8)}
    (hf : followers? b = some ranges) : ∀ r ∈ ranges, slash.toNat < r.1.toNat := by
  have hslash : slash.toNat = 47 := rfl
  have hlow : (0x80 : UInt8).toNat = 128 := rfl
  rcases followers?_cases hf with
    ⟨rfl, -⟩ | ⟨rfl, -⟩ | ⟨low, high, rfl, h⟩ | ⟨low, high, rfl, h⟩ <;>
    simp only [List.forall_mem_cons, hslash] <;> simp <;> omega

theorem agreeing_append_slash {ranges : List (UInt8 × UInt8)}
    (h : ∀ r ∈ ranges, slash.toNat < r.1.toNat) (x y : Bytes) :
    agreeing ranges (x ++ slash :: y) = agreeing ranges x := by
  induction ranges generalizing x with
  | nil => simp only [agreeing_nil]
  | cons r ranges ih =>
    obtain ⟨hr, hranges⟩ := List.forall_mem_cons.1 h
    cases x with
    | nil =>
      have hno : ¬(r.1 ≤ slash ∧ slash ≤ r.2) := fun hle =>
        absurd (UInt8.le_iff_toNat_le.1 hle.1) (Nat.not_le.2 hr)
      rw [List.nil_append, agreeing, if_neg hno]
      rfl
    | cons b x => simp only [List.cons_append, agreeing, ih hranges]

/-- A slash is read as it is, and no character goes on behind it. -/
theorem chars_append_slash (x y : Bytes) : chars (x ++ slash :: y) = chars x ++ '/' :: chars y := by
  have hlead : ∀ {b : UInt8} {rest : Bytes} {ranges : List (UInt8 × UInt8)},
      followers? b = some ranges →
      chars (rest.drop (agreeing ranges rest) ++ slash :: y)
        = chars (rest.drop (agreeing ranges rest)) ++ '/' :: chars y →
      chars (b :: rest ++ slash :: y) = chars (b :: rest) ++ '/' :: chars y := by
    intro b rest ranges hf ih
    have hle := agreeing_le_length ranges rest
    rw [List.cons_append, chars_of_some hf, chars_of_some hf,
      agreeing_append_slash (slash_lt_of_followers hf), List.take_append_of_le_length hle,
      List.drop_append_of_le_length hle, ih, List.cons_append]
  fun_induction pieces x with
  | case1 => rw [List.nil_append, chars_slash, chars_nil, List.nil_append]
  | case2 b rest hf ih =>
    rw [List.cons_append, chars_of_none hf, chars_of_none hf, ih, List.cons_append]
  | case3 b rest ranges hf n hn ih => exact hlead hf ih
  | case4 b rest ranges hf n hn ih => exact hlead hf ih

/-! ## What is read without U+FFFD -/

/-- A text is what was read if no U+FFFD was. -/
theorem encode_lossy {bytes : Bytes} (h : '\uFFFD' ∉ chars bytes) :
    encode (lossy bytes) = bytes := by
  have hchars : pieces bytes = (chars bytes).map .char := by
    rw [chars_eq] at h ⊢
    rw [List.map_map]
    refine (List.map_id _).symm.trans (List.map_congr_left fun p hp => ?_)
    cases p with
    | char c => rfl
    | broken b cut => exact absurd (List.mem_map_of_mem (f := Piece.shown) hp) h
  calc encode (lossy bytes)
      = ((chars bytes).map Piece.char).flatMap Piece.bytes := by rw [List.flatMap_map]; rfl
    _ = bytes := by rw [← hchars, flatMap_bytes_pieces]

/-- **Nothing else is read like that.** -/
theorem eq_of_chars {bytes bytes' : Bytes} (h : '\uFFFD' ∉ chars bytes)
    (same : chars bytes' = chars bytes) : bytes' = bytes := by
  have hlossy : lossy bytes' = lossy bytes := String.toList_inj.1 same
  have h' : '\uFFFD' ∉ chars bytes' := same.symm ▸ h
  calc bytes' = encode (lossy bytes') := (encode_lossy h').symm
    _ = encode (lossy bytes) := by rw [hlossy]
    _ = bytes := encode_lossy h

/-- The lossy reading has no slash but those that are there. -/
theorem slash_mem_iff {bytes : Bytes} : '/' ∈ chars bytes ↔ slash ∈ bytes := by
  constructor
  · intro h
    rw [chars_eq] at h
    obtain ⟨p, hp, hshown⟩ := List.mem_map.1 h
    rw [← flatMap_bytes_pieces bytes]
    refine List.mem_flatMap.2 ⟨p, hp, ?_⟩
    cases p with
    | char c =>
      obtain rfl : c = '/' := hshown
      decide
    | broken b cut => exact absurd (show '\uFFFD' = '/' from hshown) (by decide)
  · intro h
    obtain ⟨x, y, rfl⟩ := List.append_of_mem h
    rw [chars_append_slash]
    exact List.mem_append_right _ List.mem_cons_self

/-! ## Other spellings -/

/-- What is spelled like that is read as it was meant. -/
def Legible (spell : Char → Bytes) : Prop := ∀ c rest, chars (spell c ++ rest) = c :: chars rest

/-- U+FFFD spelled by a byte that is part of no character. -/
def damaged (c : Char) : Bytes := if c = '\uFFFD' then [0xFF] else String.utf8EncodeChar c

theorem legible_encodeChar : Legible String.utf8EncodeChar := chars_encodeChar

theorem legible_damaged : Legible damaged := by
  intro c rest
  unfold damaged
  split
  · next h =>
    rw [h]
    exact chars_of_none (by decide) rest
  · exact chars_encodeChar c rest

def respell (spell : Char → Bytes) (bytes : Bytes) : Bytes := (chars bytes).flatMap spell

theorem chars_flatMap {spell : Char → Bytes} (legible : Legible spell) (cs : List Char) :
    chars (cs.flatMap spell) = cs := by
  induction cs with
  | nil => exact chars_nil
  | cons c cs ih => rw [List.flatMap_cons, legible, ih]

theorem chars_respell {spell : Char → Bytes} (legible : Legible spell) (bytes : Bytes) :
    chars (respell spell bytes) = chars bytes := chars_flatMap legible _

theorem damage_not_mem_encodeChar (c : Char) : 0xFF ∉ String.utf8EncodeChar c := by
  have hv : c.val.toNat < 0xD800 ∨ 0xDFFF < c.val.toNat ∧ c.val.toNat < 0x110000 := c.valid
  intro hm
  have hm' : 0xFF ∈ (String.utf8EncodeChar c).map UInt8.toNat := List.mem_map_of_mem hm
  simp only [String.utf8EncodeChar, apply_ite (List.map UInt8.toNat), List.map_cons, List.map_nil,
    UInt8.toNat_ofNat'] at hm'
  grind

/-- **Where U+FFFD is read, another byte string is read alike.** -/
theorem exists_respelled {bytes : Bytes} (h : '\uFFFD' ∈ chars bytes) :
    ∃ spell, Legible spell ∧ respell spell bytes ≠ bytes := by
  by_cases hvalid : Valid bytes
  · refine ⟨damaged, legible_damaged, fun he => ?_⟩
    obtain ⟨s, rfl⟩ := valid_iff.1 hvalid
    have hdamage : (0xFF : UInt8) ∈ respell damaged (encode s) :=
      List.mem_flatMap.2 ⟨_, h, by decide⟩
    rw [he] at hdamage
    obtain ⟨c, -, hc⟩ := List.mem_flatMap.1 hdamage
    exact damage_not_mem_encodeChar c hc
  · exact ⟨_, legible_encodeChar, fun he => hvalid (he ▸ valid_flatMap _)⟩

end ConfinedDb.Utf8
