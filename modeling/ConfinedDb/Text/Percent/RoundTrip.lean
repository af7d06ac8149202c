import ConfinedDb.Text.Percent
/-!
# Percent coding round trip

Reading undoes writing: `decode_encode`. The converse fails, since a byte has several written forms.
-/
namespace ConfinedDb.Percent

def writtenByte (b : UInt8) : Bytes := (encodeByte b).flatMap String.utf8EncodeChar

def hexByte (n : Nat) : UInt8 := UInt8.ofNat (hexChar n).toNat

theorem writtenByte_table : ∀ i : Fin 256,
    let b := UInt8.ofNat i.val
    (b ≠ sign ∧ writtenByte b = [b]) ∨
      (writtenByte b = [sign, hexByte (b.toNat / 16), hexByte (b.toNat % 16)] ∧
        escaped? (hexByte (b.toNat / 16)) (hexByte (b.toNat % 16)) = some b) := by
  decide +kernel

/-- A byte is written as itself, which is then not the sign, or as an escape that is read as it. -/
theorem writtenByte_cases (b : UInt8) :
    (b ≠ sign ∧ writtenByte b = [b]) ∨
      ∃ high low, writtenByte b = [sign, high, low] ∧ escaped? high low = some b := by
  have h := writtenByte_table ⟨b.toNat, b.toNat_lt⟩
  simp only [UInt8.ofNat_toNat] at h
  rcases h with h | h
  · exact .inl h
  · exact .inr ⟨_, _, h⟩

theorem decode_cons_of_ne {b : UInt8} (h : b ≠ sign) (rest : Bytes) :
    decode (b :: rest) = b :: decode rest := by
  match rest with
  | [] => rfl
  | [_] => rfl
  | _ :: _ :: _ => rw [decode, if_neg h]

theorem decode_escape {b high low : UInt8} (h : escaped? high low = some b) (rest : Bytes) :
    decode (sign :: high :: low :: rest) = b :: decode rest := by
  rw [decode, if_pos rfl, h]

theorem decode_writtenByte (b : UInt8) (rest : Bytes) :
    decode (writtenByte b ++ rest) = b :: decode rest := by
  rcases writtenByte_cases b with ⟨hb, hw⟩ | ⟨high, low, hw, he⟩
  · rw [hw]
    exact decode_cons_of_ne hb rest
  · rw [hw]
    exact decode_escape he rest

theorem decode_written (bytes : Bytes) : decode (bytes.flatMap writtenByte) = bytes := by
  induction bytes with
  | nil => rfl
  | cons b bytes ih => rw [List.flatMap_cons, decode_writtenByte, ih]

theorem decode_encode (s : String) : decode (Utf8.encode (encode s)) = Utf8.encode s := by
  have h : Utf8.encode (encode s) = (Utf8.encode s).flatMap writtenByte := by
    rw [encode, Utf8.encode, String.toList_ofList, List.flatMap_assoc]
    rfl
  rw [h, decode_written]

end ConfinedDb.Percent
