import ConfinedDb.Text.Utf8
/-!
# UTF-8 round trips

Writing and reading are inverse to each other.

Results:
* `pieces_encode`: the pieces of a written text are its characters, so both readings give it back
  (`decode_encode`, `lossy_encode`).
* `flatMap_bytes_pieces`: the pieces of any byte string lose nothing of it.
* `decode_eq_ok_iff`: the strict reading accepts exactly what writing produces.
-/
namespace ConfinedDb.Utf8

/-! ## Reading what was written -/

theorem toNat_ofNat_small {n : Nat} (hn : n < 256) : (UInt8.ofNat n).toNat = n := by
  rw [UInt8.toNat_ofNat']; exact Nat.mod_eq_of_lt hn

theorem followers?_ofNat {n : Nat} (hn : n < 256) : followers? (UInt8.ofNat n) =
    if n < 0x80 then some []
    else if n < 0xC2 then none
    else if n < 0xE0 then some [(0x80, 0xBF)]
    else if n = 0xE0 then some [(0xA0, 0xBF), (0x80, 0xBF)]
    else if n = 0xED then some [(0x80, 0x9F), (0x80, 0xBF)]
    else if n < 0xF0 then some [(0x80, 0xBF), (0x80, 0xBF)]
    else if n = 0xF0 then some [(0x90, 0xBF), (0x80, 0xBF), (0x80, 0xBF)]
    else if n < 0xF4 then some [(0x80, 0xBF), (0x80, 0xBF), (0x80, 0xBF)]
    else if n = 0xF4 then some [(0x80, 0x8F), (0x80, 0xBF), (0x80, 0xBF)]
    else none := by
  simp only [followers?, UInt8.lt_iff_toNat_lt, ← UInt8.toNat_inj, toNat_ofNat_small hn]
  rfl

theorem agreeing_cons {low high : UInt8} {n : Nat} (hn : n < 256) (hl : low.toNat ≤ n)
    (hh : n ≤ high.toNat) (ranges : List (UInt8 × UInt8)) (rest : Bytes) :
    agreeing ((low, high) :: ranges) (UInt8.ofNat n :: rest) = agreeing ranges rest + 1 := by
  refine if_pos ⟨UInt8.le_iff_toNat_le.2 ?_, UInt8.le_iff_toNat_le.2 ?_⟩ <;>
    rwa [toNat_ofNat_small hn]

theorem agreeing_nil (bytes : Bytes) : agreeing [] bytes = 0 := by cases bytes <;> rfl

theorem pieces_of_followers {b : UInt8} {tail rest : Bytes} {ranges : List (UInt8 × UInt8)}
    (hf : followers? b = some ranges) (hl : ranges.length = tail.length)
    (ha : agreeing ranges (tail ++ rest) = tail.length) :
    pieces (b :: (tail ++ rest)) = .char (assemble b tail) :: pieces rest := by
  rw [pieces, hf]
  simp [ha, hl]

theorem pieces_encodeChar (c : Char) (rest : Bytes) :
    pieces (String.utf8EncodeChar c ++ rest) = .char c :: pieces rest := by
  have hv : c.val.toNat < 0xD800 ∨ 0xDFFF < c.val.toNat ∧ c.val.toNat < 0x110000 := c.valid
  have hc : Char.ofNat c.val.toNat = c := Char.ofNat_toNat c
  simp only [String.utf8EncodeChar]
  generalize c.val.toNat = v at hv hc ⊢
  subst hc
  by_cases h1 : v ≤ 0x7F
  · rw [if_pos h1]
    have hf : followers? (UInt8.ofNat v) = some [] := by
      rw [followers?_ofNat (by omega), if_pos (by omega)]
    refine (@pieces_of_followers _ [] _ _ hf rfl (agreeing_nil _)).trans ?_
    simp only [assemble, List.isEmpty_nil, if_true, List.foldl_nil,
      toNat_ofNat_small (show v < 256 by omega)]
  rw [if_neg h1]
  by_cases h2 : v ≤ 0x7FF
  · rw [if_pos h2]
    have hf : followers? (UInt8.ofNat (v / 64 % 32 + 192)) = some [(0x80, 0xBF)] := by
      rw [followers?_ofNat (by omega), if_neg (by omega), if_neg (by omega), if_pos (by omega)]
    refine (@pieces_of_followers _ [_] _ _ hf rfl ?_).trans ?_
    · rw [List.cons_append,
        agreeing_cons (by omega) (show 128 ≤ _ by omega) (show _ ≤ 191 by omega), agreeing_nil]
      rfl
    · show Piece.char (Char.ofNat ((UInt8.ofNat _).toNat % 32 * 64
        + (UInt8.ofNat _).toNat % 64)) :: _ = _
      rw [toNat_ofNat_small (by omega), toNat_ofNat_small (by omega)]
      congr 3; omega
  rw [if_neg h2]
  by_cases h3 : v ≤ 0xFFFF
  · rw [if_pos h3]
    have hf : ∃ low high : UInt8,
        followers? (UInt8.ofNat (v / 4096 % 16 + 224)) = some [(low, high), (0x80, 0xBF)] ∧
          low.toNat ≤ v / 64 % 64 + 128 ∧ v / 64 % 64 + 128 ≤ high.toNat := by
      rw [followers?_ofNat (by omega), if_neg (by omega), if_neg (by omega), if_neg (by omega)]
      by_cases e1 : v / 4096 % 16 + 224 = 0xE0
      · exact ⟨0xA0, 0xBF, if_pos e1, show 160 ≤ _ by omega, show _ ≤ 191 by omega⟩
      rw [if_neg e1]
      by_cases e2 : v / 4096 % 16 + 224 = 0xED
      · exact ⟨0x80, 0x9F, if_pos e2, show 128 ≤ _ by omega, show _ ≤ 159 by omega⟩
      rw [if_neg e2, if_pos (by omega)]
      exact ⟨0x80, 0xBF, rfl, show 128 ≤ _ by omega, show _ ≤ 191 by omega⟩
    obtain ⟨low, high, hf, hlow, hhigh⟩ := hf
    refine (@pieces_of_followers _ [_, _] _ _ hf rfl ?_).trans ?_
    · rw [List.cons_append, List.cons_append, agreeing_cons (by omega) hlow hhigh,
        agreeing_cons (by omega) (show 128 ≤ _ by omega) (show _ ≤ 191 by omega), agreeing_nil]
      rfl
    · show Piece.char (Char.ofNat
        (((UInt8.ofNat _).toNat % 16 * 64 + (UInt8.ofNat _).toNat % 64) * 64
          + (UInt8.ofNat _).toNat % 64)) :: _ = _
      rw [toNat_ofNat_small (by omega), toNat_ofNat_small (by omega), toNat_ofNat_small (by omega)]
      congr 3; omega
  · rw [if_neg h3]
    have hf : ∃ low high : UInt8,
        followers? (UInt8.ofNat (v / 262144 % 8 + 240))
          = some [(low, high), (0x80, 0xBF), (0x80, 0xBF)] ∧
          low.toNat ≤ v / 4096 % 64 + 128 ∧ v / 4096 % 64 + 128 ≤ high.toNat := by
      rw [followers?_ofNat (by omega), if_neg (by omega), if_neg (by omega), if_neg (by omega),
        if_neg (by omega), if_neg (by omega), if_neg (by omega)]
      by_cases e1 : v / 262144 % 8 + 240 = 0xF0
      · exact ⟨0x90, 0xBF, if_pos e1, show 144 ≤ _ by omega, show _ ≤ 191 by omega⟩
      rw [if_neg e1]
      by_cases e2 : v / 262144 % 8 + 240 < 0xF4
      · exact ⟨0x80, 0xBF, if_pos e2, show 128 ≤ _ by omega, show _ ≤ 191 by omega⟩
      rw [if_neg e2, if_pos (by omega)]
      exact ⟨0x80, 0x8F, rfl, show 128 ≤ _ by omega, show _ ≤ 143 by omega⟩
    obtain ⟨low, high, hf, hlow, hhigh⟩ := hf
    refine (@pieces_of_followers _ [_, _, _] _ _ hf rfl ?_).trans ?_
    · rw [List.cons_append, List.cons_append, List.cons_append, agreeing_cons (by omega) hlow hhigh,
        agreeing_cons (by omega) (show 128 ≤ _ by omega) (show _ ≤ 191 by omega),
        agreeing_cons (by omega) (show 128 ≤ _ by omega) (show _ ≤ 191 by omega), agreeing_nil]
      rfl
    · show Piece.char (Char.ofNat
        ((((UInt8.ofNat _).toNat % 8 * 64 + (UInt8.ofNat _).toNat % 64) * 64
          + (UInt8.ofNat _).toNat % 64) * 64 + (UInt8.ofNat _).toNat % 64)) :: _ = _
      rw [toNat_ofNat_small (by omega), toNat_ofNat_small (by omega), toNat_ofNat_small (by omega),
        toNat_ofNat_small (by omega)]
      congr 3; omega

theorem pieces_encode (s : String) : pieces (encode s) = s.toList.map .char := by
  unfold encode
  induction s.toList with
  | nil => rw [List.flatMap_nil, pieces]; rfl
  | cons c rest ih => rw [List.flatMap_cons, pieces_encodeChar, ih, List.map_cons]

theorem strict_chars (index : Nat) (cs : List Char) : strict index (cs.map .char) = .ok cs := by
  induction cs generalizing index with
  | nil => rfl
  | cons c rest ih => rw [List.map_cons, strict, ih]; rfl

theorem decode_encode (s : String) : decode (encode s) = .ok s := by
  rw [decode, pieces_encode, strict_chars]
  exact congrArg Except.ok String.ofList_toList

/-- The lossy reading loses nothing of a written text. -/
theorem lossy_encode (s : String) : lossy (encode s) = s := by
  rw [lossy, pieces_encode, List.map_map]
  exact (congrArg String.ofList (List.map_id s.toList)).trans String.ofList_toList

/-! ## Writing what was read -/

theorem toNat_val_ofNat {v : Nat} (hv : v.isValidChar) : (Char.ofNat v).val.toNat = v := by
  unfold Char.ofNat
  rw [dif_pos hv]
  rfl

theorem eq_ofNat {b : UInt8} {n : Nat} (h : n = b.toNat) : UInt8.ofNat n = b := by
  subst h; exact UInt8.ofNat_toNat

theorem of_agreeing_cons {low high : UInt8} {ranges : List (UInt8 × UInt8)} {tail : Bytes}
    (ha : agreeing ((low, high) :: ranges) tail = ranges.length + 1) :
    ∃ b rest, tail = b :: rest ∧ low.toNat ≤ b.toNat ∧ b.toNat ≤ high.toNat ∧
      agreeing ranges rest = ranges.length := by
  cases tail with
  | nil => simp [agreeing] at ha
  | cons b rest =>
    rw [agreeing] at ha
    split at ha
    · next h =>
      exact ⟨b, rest, rfl, UInt8.le_iff_toNat_le.1 h.1, UInt8.le_iff_toNat_le.1 h.2, by omega⟩
    · omega

/-- The lead bytes of two, three and four bytes, and what they ask of the byte after them. -/
theorem followers?_cases {b : UInt8} {ranges : List (UInt8 × UInt8)}
    (hf : followers? b = some ranges) :
    (ranges = [] ∧ b.toNat < 0x80) ∨
    (ranges = [(0x80, 0xBF)] ∧ 0xC2 ≤ b.toNat ∧ b.toNat < 0xE0) ∨
    (∃ low high, ranges = [(low, high), (0x80, 0xBF)] ∧ 0xE0 ≤ b.toNat ∧ b.toNat < 0xF0 ∧
      0x80 ≤ low.toNat ∧ high.toNat ≤ 0xBF ∧ (b.toNat = 0xE0 → 0xA0 ≤ low.toNat) ∧
      (b.toNat = 0xED → high.toNat ≤ 0x9F)) ∨
    (∃ low high, ranges = [(low, high), (0x80, 0xBF), (0x80, 0xBF)] ∧ 0xF0 ≤ b.toNat ∧
      b.toNat ≤ 0xF4 ∧ 0x80 ≤ low.toNat ∧ high.toNat ≤ 0xBF ∧
      (b.toNat = 0xF0 → 0x90 ≤ low.toNat) ∧ (b.toNat = 0xF4 → high.toNat ≤ 0x8F)) := by
  have h80 : (0x80 : UInt8).toNat = 128 := rfl
  have hBF : (0xBF : UInt8).toNat = 191 := rfl
  have hA0 : (0xA0 : UInt8).toNat = 160 := rfl
  have h9F : (0x9F : UInt8).toNat = 159 := rfl
  have h90 : (0x90 : UInt8).toNat = 144 := rfl
  have h8F : (0x8F : UInt8).toNat = 143 := rfl
  have hC2 : (0xC2 : UInt8).toNat = 194 := rfl
  have hE0 : (0xE0 : UInt8).toNat = 224 := rfl
  have hED : (0xED : UInt8).toNat = 237 := rfl
  have hF0 : (0xF0 : UInt8).toNat = 240 := rfl
  have hF4 : (0xF4 : UInt8).toNat = 244 := rfl
  simp only [followers?, UInt8.lt_iff_toNat_lt, ← UInt8.toNat_inj] at hf
  repeat' split at hf
  all_goals try cases hf
  · exact .inl ⟨rfl, by omega⟩
  · exact .inr (.inl ⟨rfl, by omega, by omega⟩)
  · exact .inr (.inr (.inl ⟨_, _, rfl, by omega, by omega, by omega, by omega, by omega, by omega⟩))
  · exact .inr (.inr (.inl ⟨_, _, rfl, by omega, by omega, by omega, by omega, by omega, by omega⟩))
  · exact .inr (.inr (.inl ⟨_, _, rfl, by omega, by omega, by omega, by omega, by omega, by omega⟩))
  · exact .inr (.inr (.inr ⟨_, _, rfl, by omega, by omega, by omega, by omega, by omega, by omega⟩))
  · exact .inr (.inr (.inr ⟨_, _, rfl, by omega, by omega, by omega, by omega, by omega, by omega⟩))
  · exact .inr (.inr (.inr ⟨_, _, rfl, by omega, by omega, by omega, by omega, by omega, by omega⟩))

theorem encodeChar_assemble {b : UInt8} {tail : Bytes} {ranges : List (UInt8 × UInt8)}
    (hf : followers? b = some ranges) (ha : agreeing ranges tail = ranges.length)
    (hl : tail.length = ranges.length) : String.utf8EncodeChar (assemble b tail) = b :: tail := by
  have hb := b.toNat_lt
  rcases followers?_cases hf with ⟨rfl, h⟩ | ⟨rfl, h⟩ | ⟨low, high, rfl, h⟩ | ⟨low, high, rfl, h⟩
  · obtain rfl : tail = [] := List.eq_nil_of_length_eq_zero hl
    simp only [String.utf8EncodeChar]
    have hv : (assemble b []).val.toNat = b.toNat :=
      toNat_val_ofNat (.inl (show b.toNat < 55296 by omega))
    rw [hv, if_pos (by omega), eq_ofNat rfl]
  · obtain ⟨x, rest, rfl, hx⟩ := of_agreeing_cons ha
    obtain rfl : rest = [] := List.eq_nil_of_length_eq_zero (by simpa using hl)
    have h1 : 128 ≤ x.toNat := hx.1
    have h2 : x.toNat ≤ 191 := hx.2.1
    have hv : (assemble b [x]).val.toNat = b.toNat % 32 * 64 + x.toNat % 64 :=
      toNat_val_ofNat (.inl (show b.toNat % 32 * 64 + x.toNat % 64 < 55296 by omega))
    simp only [String.utf8EncodeChar, hv]
    rw [if_neg (by omega), if_pos (by omega), eq_ofNat (b := b) (by omega),
      eq_ofNat (b := x) (by omega)]
  · obtain ⟨x, rest, rfl, hx⟩ := of_agreeing_cons ha
    obtain ⟨y, rest, rfl, hy⟩ := of_agreeing_cons hx.2.2
    obtain rfl : rest = [] := List.eq_nil_of_length_eq_zero (by simpa using hl)
    have h1 : 128 ≤ y.toNat := hy.1
    have h2 : y.toNat ≤ 191 := hy.2.1
    have hv : (assemble b [x, y]).val.toNat
        = (b.toNat % 16 * 64 + x.toNat % 64) * 64 + y.toNat % 64 :=
      toNat_val_ofNat (show (b.toNat % 16 * 64 + x.toNat % 64) * 64 + y.toNat % 64 < 55296 ∨
        57343 < (b.toNat % 16 * 64 + x.toNat % 64) * 64 + y.toNat % 64 ∧
        (b.toNat % 16 * 64 + x.toNat % 64) * 64 + y.toNat % 64 < 1114112 by omega)
    simp only [String.utf8EncodeChar, hv]
    rw [if_neg (by omega), if_neg (by omega), if_pos (by omega), eq_ofNat (b := b) (by omega),
      eq_ofNat (b := x) (by omega), eq_ofNat (b := y) (by omega)]
  · obtain ⟨x, rest, rfl, hx⟩ := of_agreeing_cons ha
    obtain ⟨y, rest, rfl, hy⟩ := of_agreeing_cons hx.2.2
    obtain ⟨z, rest, rfl, hz⟩ := of_agreeing_cons hy.2.2
    obtain rfl : rest = [] := List.eq_nil_of_length_eq_zero (by simpa using hl)
    have h1 : 128 ≤ y.toNat := hy.1
    have h2 : y.toNat ≤ 191 := hy.2.1
    have h3 : 128 ≤ z.toNat := hz.1
    have h4 : z.toNat ≤ 191 := hz.2.1
    have hv : (assemble b [x, y, z]).val.toNat
        = ((b.toNat % 8 * 64 + x.toNat % 64) * 64 + y.toNat % 64) * 64 + z.toNat % 64 :=
      toNat_val_ofNat (show
        ((b.toNat % 8 * 64 + x.toNat % 64) * 64 + y.toNat % 64) * 64 + z.toNat % 64 < 55296 ∨
        57343 < ((b.toNat % 8 * 64 + x.toNat % 64) * 64 + y.toNat % 64) * 64 + z.toNat % 64 ∧
        ((b.toNat % 8 * 64 + x.toNat % 64) * 64 + y.toNat % 64) * 64 + z.toNat % 64 < 1114112
        by omega)
    simp only [String.utf8EncodeChar, hv]
    rw [if_neg (by omega), if_neg (by omega), if_neg (by omega), eq_ofNat (b := b) (by omega),
      eq_ofNat (b := x) (by omega), eq_ofNat (b := y) (by omega), eq_ofNat (b := z) (by omega)]

theorem length_take_agreeing {ranges : List (UInt8 × UInt8)} {rest : Bytes}
    (h : agreeing ranges rest = ranges.length) :
    (rest.take (agreeing ranges rest)).length = ranges.length := by
  rw [List.length_take, Nat.min_eq_left (agreeing_le_length ranges rest), h]

theorem agreeing_take (ranges : List (UInt8 × UInt8)) (rest : Bytes) :
    agreeing ranges (rest.take (agreeing ranges rest)) = agreeing ranges rest := by
  induction ranges generalizing rest with
  | nil => simp only [agreeing_nil]
  | cons r ranges ih =>
    cases rest with
    | nil => rfl
    | cons b rest =>
      by_cases h : r.1 ≤ b ∧ b ≤ r.2
      · simp only [agreeing, h, and_self, if_true, List.take_succ_cons, ih]
      · simp only [agreeing, h, if_false, List.take_zero]

/-- The pieces hold all bytes, in order. -/
theorem flatMap_bytes_pieces (bytes : Bytes) : (pieces bytes).flatMap Piece.bytes = bytes := by
  fun_induction pieces bytes with
  | case1 => rfl
  | case2 b rest hf ih => rw [List.flatMap_cons, ih]; rfl
  | case3 b rest ranges hf n hn ih =>
    have hc : String.utf8EncodeChar (assemble b (rest.take n)) = b :: rest.take n :=
      encodeChar_assemble hf ((agreeing_take ranges rest).trans hn) (length_take_agreeing hn)
    rw [List.flatMap_cons, ih, Piece.bytes, hc, List.cons_append, List.take_append_drop]
  | case4 b rest ranges hf n hn ih =>
    rw [List.flatMap_cons, ih, Piece.bytes, List.cons_append, List.take_append_drop]

theorem eq_chars_of_strict {index : Nat} {ps : List Piece} {cs : List Char}
    (h : strict index ps = .ok cs) : ps = cs.map .char := by
  induction ps generalizing index cs with
  | nil => cases h; rfl
  | cons p ps ih =>
    cases p with
    | broken bytes cut => cases h
    | char c =>
      rw [strict] at h
      cases hr : strict (index + c.utf8Size) ps with
      | error e => rw [hr] at h; cases h
      | ok rest =>
        rw [hr] at h
        cases h
        rw [ih hr, List.map_cons]

/-- The strict reading accepts exactly what writing produces. -/
theorem decode_eq_ok_iff {bytes : Bytes} {s : String} :
    decode bytes = .ok s ↔ bytes = encode s := by
  refine ⟨fun h => ?_, fun h => h ▸ decode_encode s⟩
  rw [decode] at h
  cases hs : strict 0 (pieces bytes) with
  | error e => rw [hs] at h; cases h
  | ok cs =>
    rw [hs] at h
    cases h
    rw [← flatMap_bytes_pieces bytes, eq_chars_of_strict hs, List.flatMap_map, encode,
      String.toList_ofList]
    rfl

/-- The lossy reading of a byte string that is a text is that text. -/
theorem encode_lossy_of_decode {bytes : Bytes} {s : String} (h : decode bytes = .ok s) :
    encode (lossy bytes) = bytes := by
  rw [decode_eq_ok_iff.1 h, lossy_encode]

end ConfinedDb.Utf8
