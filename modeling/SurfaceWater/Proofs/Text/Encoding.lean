import SurfaceWater.Text.Lines

/-!
# Texts in bytes

The bytes of a text are those of its characters, one after another. A byte below 128 stands for the
character of that code and for no part of any other, so a text can be cut at such a byte as it would be
cut at the character.
-/

namespace SurfaceWater.Text

/-! ### Round trip -/

theorem encode_eq (text : String) : encode text = text.toList.flatMap String.utf8EncodeChar := by
  rw [encode, String.toUTF8_eq_toByteArray, ← String.utf8Encode_toList, List.utf8Encode,
    List.data_toByteArray]

theorem encode_ofList (text : List Char) : encode (String.ofList text) = text.flatMap String.utf8EncodeChar := by
  rw [encode_eq, String.toList_ofList]

theorem decode?_encode (text : String) : decode? (encode text) = some text := by
  have hbytes : (encode text).toByteArray = text.toByteArray := by
    rw [encode_eq, ← List.utf8Encode, String.utf8Encode_toList]
  rw [decode?, hbytes, String.fromUTF8?, dif_pos text.isValidUTF8]
  rfl

/-! ### Characters of one byte -/

theorem utf8EncodeChar_of_lt {c : Char} (hc : c.toNat < 128) : String.utf8EncodeChar c = [UInt8.ofNat c.toNat] := by
  have hle : c.val.toNat ≤ 0x7f := Nat.le_of_lt_succ hc
  rw [String.utf8EncodeChar, if_pos hle]
  rfl

private theorem le_toNat_ofNat {n : Nat} (hn : 128 ≤ n ∧ n < 256) : 128 ≤ (UInt8.ofNat n).toNat := by
  rw [UInt8.toNat_ofNat']
  omega

theorem le_of_mem_utf8EncodeChar {c : Char} (hc : 128 ≤ c.toNat) : ∀ byte ∈ String.utf8EncodeChar c, 128 ≤ byte.toNat := by
  have hvalue : ¬ c.val.toNat ≤ 0x7f := Nat.not_le_of_lt hc
  rw [String.utf8EncodeChar, if_neg hvalue]
  split
  · simp only [List.forall_mem_cons]
    exact ⟨le_toNat_ofNat (by omega), le_toNat_ofNat (by omega), List.forall_mem_nil _⟩
  split
  · simp only [List.forall_mem_cons]
    exact ⟨le_toNat_ofNat (by omega), le_toNat_ofNat (by omega), le_toNat_ofNat (by omega), List.forall_mem_nil _⟩
  · simp only [List.forall_mem_cons]
    exact ⟨le_toNat_ofNat (by omega), le_toNat_ofNat (by omega), le_toNat_ofNat (by omega), le_toNat_ofNat (by omega),
      List.forall_mem_nil _⟩

theorem toNat_eq_of_mem_utf8EncodeChar {c : Char} {byte : UInt8} (h : byte ∈ String.utf8EncodeChar c)
    (hbyte : byte.toNat < 128) : c.toNat = byte.toNat := by
  have hc : c.toNat < 128 := Nat.lt_of_not_le fun hle => Nat.not_le_of_lt hbyte (le_of_mem_utf8EncodeChar hle byte h)
  rw [utf8EncodeChar_of_lt hc, List.mem_singleton] at h
  rw [h, UInt8.toNat_ofNat']
  omega

end SurfaceWater.Text
