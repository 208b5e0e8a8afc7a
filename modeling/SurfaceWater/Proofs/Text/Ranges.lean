import SurfaceWater.GeoReference
import SurfaceWater.Proofs.Metadata.TimestampBytes

/-!
# Parts of a text by their bytes

What stands in a text between two offsets into its bytes. No text is the beginning of the bytes of another one without
being the beginning of its characters, and of the bytes of a character only the first looks as if a character began
there. So a part can be taken out exactly where both offsets are between characters, and a look at two bytes tells.
-/

namespace SurfaceWater.Text

/-- A part stands in a text between two offsets into the bytes. -/
def StandsAt (text part : String) (start stop : Nat) : Prop :=
  ∃ before after, text = before ++ part ++ after ∧ (encode before).length = start ∧
    (encode (before ++ part)).length = stop

/-! ### Bytes of texts -/

theorem encode_append (text more : String) : encode (text ++ more) = encode text ++ encode more := by
  rw [encode_eq, encode_eq, encode_eq, String.toList_append, List.flatMap_append]

theorem decode?_eq_some_iff {bytes : List UInt8} {text : String} : decode? bytes = some text ↔ bytes = encode text := by
  constructor
  · intro h
    unfold decode? String.fromUTF8? at h
    split at h
    case isTrue hvalid =>
      obtain rfl := Option.some.inj h
      rw [encode, String.toUTF8_eq_toByteArray]
      exact List.data_toByteArray ▸ (List.toList_toArray).symm
    case isFalse => cases h
  · intro h
    rw [h, decode?_encode]

theorem eq_of_utf8EncodeChar_append {c d : Char} {bytes more : List UInt8}
    (h : String.utf8EncodeChar c ++ bytes = String.utf8EncodeChar d ++ more) : c = d := by
  have hfirst := congrArg (fun bytes : List UInt8 => bytes.toByteArray.utf8DecodeChar? 0) h
  simp only [List.toByteArray_append, ByteArray.utf8DecodeChar?_utf8EncodeChar_append] at hfirst
  exact Option.some.inj hfirst

/-- Bytes of characters that begin with those of other characters go on with bytes of characters. -/
theorem exists_append_of_flatMap {text part : List Char} {rest : List UInt8}
    (h : text.flatMap String.utf8EncodeChar = part.flatMap String.utf8EncodeChar ++ rest) :
    ∃ after, text = part ++ after ∧ rest = after.flatMap String.utf8EncodeChar := by
  induction part generalizing text with
  | nil => exact ⟨text, rfl, h.symm⟩
  | cons c part ih =>
    rw [List.flatMap_cons, List.append_assoc] at h
    cases text with
    | nil =>
      -- a character has at least one byte
      have hlength := congrArg List.length h
      rw [List.flatMap_nil, List.length_append, String.length_utf8EncodeChar] at hlength
      exact absurd hlength (Nat.ne_of_lt (Nat.add_pos_left c.utf8Size_pos _))
    | cons d text =>
      rw [List.flatMap_cons] at h
      obtain rfl := eq_of_utf8EncodeChar_append h
      obtain ⟨after, rfl, hrest⟩ := ih (List.append_cancel_left h)
      exact ⟨after, rfl, hrest⟩

theorem exists_append_of_encode {text part : String} {rest : List UInt8} (h : encode text = encode part ++ rest) :
    ∃ after, text = part ++ after ∧ rest = encode after := by
  rw [encode_eq, encode_eq] at h
  obtain ⟨after, htext, hrest⟩ := exists_append_of_flatMap h
  refine ⟨String.ofList after, ?_, ?_⟩
  · rw [← String.toList_inj, String.toList_append, String.toList_ofList, htext]
  · rw [encode_ofList, hrest]

/-! ### Parts between two offsets -/

theorem StandsAt.le {text part : String} {start stop : Nat} (h : StandsAt text part start stop) :
    start ≤ stop ∧ stop ≤ (encode text).length := by
  obtain ⟨before, after, rfl, rfl, rfl⟩ := h
  simp only [encode_append, List.length_append]
  omega

theorem StandsAt.take_eq {text part : String} {start stop : Nat} (h : StandsAt text part start stop) :
    (∃ before, (encode text).take start = encode before) ∧ ((encode text).take stop).drop start = encode part := by
  obtain ⟨before, after, rfl, rfl, rfl⟩ := h
  refine ⟨⟨before, ?_⟩, ?_⟩
  · rw [encode_append, encode_append, List.append_assoc, List.take_left]
  · rw [encode_append (before ++ part) after, List.take_left, encode_append, List.drop_left]

/-- What is taken out between two offsets stands there. -/
theorem byteRange?_eq_some_iff {text part : String} {start stop : Nat} :
    GeoReference.byteRange? text start stop = some part ↔ StandsAt text part start stop := by
  unfold GeoReference.byteRange?
  dsimp only
  constructor
  · intro h
    split at h
    case isFalse => cases h
    case isTrue hrange =>
      simp only [Bool.and_eq_true, decide_eq_true_eq] at hrange
      split at h
      case h_2 => cases h
      case h_1 before found hbefore hfound =>
        cases h
        rw [decode?_eq_some_iff] at hbefore hfound
        have hstart : (encode text).take start = ((encode text).take stop).take start := by
          rw [List.take_take, Nat.min_eq_left hrange.1]
        have hstop : (encode text).take stop = encode (before ++ part) := by
          rw [encode_append, ← hbefore, ← hfound, hstart, List.take_append_drop]
        obtain ⟨after, htext, -⟩ := exists_append_of_encode (hstop ▸ (List.take_append_drop stop (encode text)).symm)
        refine ⟨before, after, htext, ?_, ?_⟩
        · rw [← hbefore, List.length_take, Nat.min_eq_left (hrange.1.trans hrange.2)]
        · rw [← hstop, List.length_take, Nat.min_eq_left hrange.2]
  · intro h
    obtain ⟨⟨before, hbefore⟩, hpart⟩ := h.take_eq
    rw [if_pos (by simpa using h.le), hbefore, hpart, decode?_encode, decode?_encode]

/-! ### Between characters -/

/-- A byte that begins a character: it stands for one by itself, or it is not one of those that go on. -/
def Begins (byte : UInt8) : Prop := byte.toNat < 0x80 ∨ 0xC0 ≤ byte.toNat

theorem exists_utf8EncodeChar_eq (c : Char) :
    ∃ first rest, String.utf8EncodeChar c = first :: rest ∧ Begins first ∧ ∀ byte ∈ rest, ¬ Begins byte := by
  have hgoesOn (n : Nat) : ¬ Begins (UInt8.ofNat (n % 64 + 128)) := by
    rw [Begins, UInt8.toNat_ofNat']
    omega
  unfold String.utf8EncodeChar
  dsimp only
  split
  case isTrue hone =>
    refine ⟨_, _, rfl, .inl ?_, List.forall_mem_nil _⟩
    rw [UInt8.toNat_ofNat']
    omega
  split
  case isTrue =>
    refine ⟨_, _, rfl, .inr ?_, by simp only [List.forall_mem_cons, hgoesOn]; simp⟩
    rw [UInt8.toNat_ofNat']
    omega
  split
  case isTrue =>
    refine ⟨_, _, rfl, .inr ?_, by simp only [List.forall_mem_cons, hgoesOn]; simp⟩
    rw [UInt8.toNat_ofNat']
    omega
  case isFalse =>
    refine ⟨_, _, rfl, .inr ?_, by simp only [List.forall_mem_cons, hgoesOn]; simp⟩
    rw [UInt8.toNat_ofNat']
    omega

theorem isBoundary_iff_begins {bytes : List UInt8} {offset : Nat} :
    Instant.isBoundary bytes offset = true ↔ offset = bytes.length ∨ ∃ byte, bytes[offset]? = some byte ∧ Begins byte := by
  rw [Instant.isBoundary, Bool.or_eq_true, decide_eq_true_eq, Option.any_eq_true]
  simp only [Bool.or_eq_true, decide_eq_true_eq, Begins]

/-- An offset looks like one between characters exactly if so many bytes are those of characters. -/
theorem isBoundary_flatMap_iff {text : List Char} {offset : Nat} :
    Instant.isBoundary (text.flatMap String.utf8EncodeChar) offset = true ↔
      ∃ before after, text = before ++ after ∧ (before.flatMap String.utf8EncodeChar).length = offset := by
  rw [isBoundary_iff_begins]
  induction text generalizing offset with
  | nil => simp [eq_comm]
  | cons c text ih =>
    obtain ⟨first, rest, hbytes, hfirst, hrest⟩ := exists_utf8EncodeChar_eq c
    rw [List.flatMap_cons, hbytes, List.cons_append]
    cases offset with
    | zero => exact iff_of_true (.inr ⟨first, rfl, hfirst⟩) ⟨[], c :: text, rfl, rfl⟩
    | succ k =>
      rw [List.getElem?_cons_succ, List.length_cons, List.length_append, Nat.add_right_cancel_iff]
      rcases Nat.lt_or_ge k rest.length with hinside | hbehind
      · -- inside the first character
        refine iff_of_false ?_ ?_
        · intro h
          rcases h with hend | ⟨byte, hbyte, hbegins⟩
          · omega
          · rw [List.getElem?_append_left hinside] at hbyte
            exact hrest byte (List.mem_of_getElem? hbyte) hbegins
        · intro h
          obtain ⟨before, after, htext, hlength⟩ := h
          cases before with
          | nil => cases hlength
          | cons d before =>
            obtain ⟨rfl, -⟩ := List.cons.inj htext
            rw [List.flatMap_cons, hbytes, List.length_append, List.length_cons] at hlength
            omega
      · have hshift : k = rest.length + (text.flatMap String.utf8EncodeChar).length ↔
            k - rest.length = (text.flatMap String.utf8EncodeChar).length := by omega
        rw [List.getElem?_append_right hbehind, hshift, ih]
        constructor
        · intro h
          obtain ⟨before, after, rfl, hlength⟩ := h
          refine ⟨c :: before, after, rfl, ?_⟩
          rw [List.flatMap_cons, hbytes, List.length_append, List.length_cons]
          omega
        · intro h
          obtain ⟨before, after, htext, hlength⟩ := h
          cases before with
          | nil => cases hlength
          | cons d before =>
            obtain ⟨rfl, rfl⟩ := List.cons.inj htext
            rw [List.flatMap_cons, hbytes, List.length_append, List.length_cons] at hlength
            exact ⟨before, after, rfl, by omega⟩

theorem isBoundary_iff {text : String} {offset : Nat} :
    Instant.isBoundary (encode text) offset = true ↔ ∃ before after, text = before ++ after ∧ (encode before).length = offset := by
  rw [encode_eq, isBoundary_flatMap_iff]
  constructor
  · intro h
    obtain ⟨before, after, htext, hlength⟩ := h
    refine ⟨String.ofList before, String.ofList after, ?_, ?_⟩
    · rw [← String.toList_inj, String.toList_append, String.toList_ofList, String.toList_ofList, htext]
    · rw [encode_ofList, hlength]
  · intro h
    obtain ⟨before, after, rfl, hlength⟩ := h
    exact ⟨before.toList, after.toList, String.toList_append, by rw [← encode_eq, hlength]⟩

/-- A part stands between two offsets exactly if both are between characters, the second not before the first. -/
theorem exists_standsAt_iff {text : String} {start stop : Nat} : (∃ part, StandsAt text part start stop) ↔
    start ≤ stop ∧ Instant.isBoundary (encode text) start = true ∧ Instant.isBoundary (encode text) stop = true := by
  rw [isBoundary_iff, isBoundary_iff]
  constructor
  · intro h
    obtain ⟨part, h⟩ := h
    refine ⟨h.le.1, ?_⟩
    obtain ⟨before, after, rfl, hstart, hstop⟩ := h
    exact ⟨⟨before, part ++ after, String.append_assoc, hstart⟩, ⟨before ++ part, after, rfl, hstop⟩⟩
  · intro h
    obtain ⟨hle, ⟨before, rest, htext, hstart⟩, ⟨upto, after, htext', hstop⟩⟩ := h
    -- the shorter beginning of the text is a beginning of the longer one
    have hbytes : encode upto = encode before ++ (encode upto).drop start := by
      have htake := congrArg (fun t => (encode t).take start) (htext.symm.trans htext')
      simp only [encode_append] at htake
      rw [List.take_left' hstart, List.take_append_of_le_length (hstop ▸ hle)] at htake
      rw [htake, List.take_append_drop]
    obtain ⟨part, rfl, -⟩ := exists_append_of_encode hbytes
    exact ⟨part, before, after, htext', hstart, hstop⟩

end SurfaceWater.Text
