import SurfaceWater.Proofs.Metadata.Timestamp
import SurfaceWater.Proofs.Text.Encoding

/-!
# Timestamps in bytes

A timestamp as a machine reads it. It counts bytes, takes one at an offset for a mark, and takes the part between two
offsets for a group of digits. There is no byte behind the end, and no part that begins or ends inside a character; and
a number must fit a word of 32 bits. The reader comes to neither, whatever the text: it looks at an offset only when
all bytes are characters of their own, and there are 27 of them.
-/

namespace SurfaceWater.Instant

/-- Reading may end in a fault. Where it asks for what is not there it has no end at all. -/
abbrev ByteReading := ExceptT TimestampFault Option

/-- A step that must have a result. -/
def ByteReading.required {α : Type} (result : Option α) : ByteReading α := ExceptT.lift result

/-- No character goes on at an offset: it is the end of the bytes, or the byte there begins a character. -/
def isBoundary (bytes : List UInt8) (offset : Nat) : Bool :=
  offset = bytes.length || bytes[offset]?.any fun byte => byte.toNat < 0x80 || 0xC0 ≤ byte.toNat

/-- The text between two offsets. -/
def slice? (bytes : List UInt8) (start stop : Nat) : Option String :=
  if start ≤ stop ∧ stop ≤ bytes.length ∧ isBoundary bytes start = true ∧ isBoundary bytes stop = true then
    Text.decode? ((bytes.drop start).take (stop - start))
  else none

def byteMark (bytes : List UInt8) (place : Nat × Char) : ByteReading Unit := do
  let byte ← ByteReading.required bytes[place.1]?
  if byte.toNat ≠ place.2.toNat then throw (.missingMark place.2 place.1)

/-- The number in the digits between two offsets. -/
def byteField (bytes : List UInt8) (start stop : Nat) : ByteReading Nat := do
  let digits ← ByteReading.required (slice? bytes start stop)
  match naturalOfDigits? digits.toList with
  | none => throw (.notDigits digits.toList)
  | some n => ByteReading.required (if n < UInt32.size then some n else none)

/-- `ofLayout` for the bytes of a text. -/
def ofBytes (bytes : List UInt8) : ByteReading Instant := do
  if bytes.length ≠ 27 || bytes.any (fun byte => 128 ≤ byte.toNat) then throw .wrongLength
  marks.forM (byteMark bytes)
  let year ← byteField bytes 0 4
  let month ← byteField bytes 5 7
  let day ← byteField bytes 8 10
  let hour ← byteField bytes 11 13
  let minute ← byteField bytes 14 16
  let second ← byteField bytes 17 19
  let microsecond ← byteField bytes 20 26
  let date : Date := ⟨year, month, day⟩
  let instant : Instant := ⟨date, hour, minute, second, microsecond⟩
  if !date.exists? then throw .noSuchDate
  if !instant.hasTimeOfDay then throw .noSuchTime
  return instant

/-! ### Steps that come to an end -/

namespace ByteReading

variable {α β : Type}

/-- A step comes to an end, and this is its result. -/
def Gives (step : ByteReading α) (result : Except TimestampFault α) : Prop := step.run = some result

variable {step : ByteReading α} {next : α → ByteReading β}

theorem Gives.error_bind {fault : TimestampFault} (h : Gives step (.error fault)) : Gives (step >>= next) (.error fault) := by
  rw [Gives, ExceptT.run_bind, h]
  rfl

theorem Gives.ok_bind {a : α} {result : Except TimestampFault β} (h : Gives step (.ok a)) (hnext : Gives (next a) result) :
    Gives (step >>= next) result := by
  rw [Gives, ExceptT.run_bind, h]
  exact hnext

theorem Gives.bind {result : Except TimestampFault α} {after : α → Except TimestampFault β} (h : Gives step result)
    (hnext : ∀ a, Gives (next a) (after a)) : Gives (step >>= next) (result >>= after) := by
  cases result with
  | error fault => exact h.error_bind
  | ok a => exact h.ok_bind (hnext a)

theorem Gives.guard {c d : Prop} [Decidable c] [Decidable d] {fault : TimestampFault} {rest : PUnit → ByteReading β}
    {after : PUnit → Except TimestampFault β} (h : c ↔ d) (hrest : ¬ d → Gives (rest ⟨⟩) (after ⟨⟩)) :
    Gives (if c then (throw fault >>= rest) else rest ⟨⟩) (if d then (throw fault >>= after) else after ⟨⟩) := by
  by_cases hd : d
  · rw [if_pos (h.mpr hd), if_pos hd]
    rfl
  · rw [if_neg (mt h.mp hd), if_neg hd]
    exact hrest hd

end ByteReading

/-! ### Characters of one byte -/

section

variable {text : List Char}

theorem encode_of_ascii (hascii : ∀ c ∈ text, c.toNat < 128) :
    Text.encode (String.ofList text) = text.map fun c => UInt8.ofNat c.toNat := by
  rw [Text.encode_ofList, List.map_eq_flatMap]
  exact List.flatMap_congr fun c hc => Text.utf8EncodeChar_of_lt (hascii c hc)

theorem toNat_ofNat_of_lt {n : Nat} (hn : n < 128) : (UInt8.ofNat n).toNat = n := by
  rw [UInt8.toNat_ofNat']
  omega

/-- A byte of 128 or more is part of a character of 128 or more, and there is one in each. -/
theorem exists_large_byte_iff :
    (∃ byte ∈ Text.encode (String.ofList text), 128 ≤ byte.toNat) ↔ ∃ c ∈ text, 128 ≤ c.toNat := by
  constructor
  · intro hbyte
    by_contra hnone
    push Not at hnone
    obtain ⟨byte, hmem, hlarge⟩ := hbyte
    rw [encode_of_ascii hnone] at hmem
    obtain ⟨c, hc, rfl⟩ := List.mem_map.mp hmem
    rw [toNat_ofNat_of_lt (hnone c hc)] at hlarge
    exact Nat.not_le_of_lt (hnone c hc) hlarge
  · rintro ⟨c, hc, hlarge⟩
    obtain ⟨byte, hbyte⟩ := List.exists_mem_of_length_pos (String.length_utf8EncodeChar c ▸ c.utf8Size_pos)
    refine ⟨byte, ?_, Text.le_of_mem_utf8EncodeChar hlarge byte hbyte⟩
    rw [Text.encode_ofList]
    exact List.mem_flatMap.mpr ⟨c, hc, hbyte⟩

/-- Counting bytes comes to the same as counting characters, since only characters of one byte are let through. -/
theorem guard_encode_iff : ((Text.encode (String.ofList text)).length ≠ 27 ||
        (Text.encode (String.ofList text)).any fun byte => 128 ≤ byte.toNat) = true ↔
      (text.length ≠ 27 || text.any fun c => 128 ≤ c.toNat) = true := by
  simp only [Bool.or_eq_true, decide_eq_true_eq, List.any_eq_true, exists_large_byte_iff]
  by_cases hascii : ∃ c ∈ text, 128 ≤ c.toNat
  · simp only [hascii, or_true]
  · push Not at hascii
    rw [encode_of_ascii hascii, List.length_map]

end

/-! ### Reading a text of such characters -/

section

variable {text : List Char} (hascii : ∀ c ∈ text, c.toNat < 128)

include hascii

theorem isBoundary_encode {offset : Nat} (hoffset : offset ≤ text.length) :
    isBoundary (Text.encode (String.ofList text)) offset = true := by
  rw [isBoundary, encode_of_ascii hascii, List.length_map, Bool.or_eq_true, decide_eq_true_eq]
  rcases Nat.eq_or_lt_of_le hoffset with hend | hlt
  · exact .inl hend
  · refine .inr ?_
    rw [List.getElem?_map, List.getElem?_eq_getElem hlt, Option.map_some, Option.any_some,
      toNat_ofNat_of_lt (hascii _ (List.getElem_mem hlt))]
    simp [hascii _ (List.getElem_mem hlt)]

theorem slice?_encode {start width : Nat} (hend : start + width ≤ text.length) :
    slice? (Text.encode (String.ofList text)) start (start + width) =
      some (String.ofList ((text.drop start).take width)) := by
  have hpart : ∀ c ∈ (text.drop start).take width, c.toNat < 128 := fun c hc =>
    hascii c (List.mem_of_mem_drop (List.mem_of_mem_take hc))
  rw [slice?, if_pos, Nat.add_sub_cancel_left, encode_of_ascii hascii, ← List.map_drop, ← List.map_take,
    ← encode_of_ascii hpart, Text.decode?_encode]
  refine ⟨Nat.le_add_right _ _, ?_, isBoundary_encode hascii (by omega), isBoundary_encode hascii hend⟩
  rwa [encode_of_ascii hascii, List.length_map]

theorem gives_byteField {start width : Nat} (hwidth : width ≤ 6) (hend : start + width ≤ text.length) :
    (byteField (Text.encode (String.ofList text)) start (start + width)).Gives (field text start width) := by
  rw [byteField, slice?_encode hascii hend, field]
  simp only [ByteReading.Gives, ByteReading.required, ExceptT.run_bind, ExceptT.run_lift]
  cases hread : naturalOfDigits? ((text.drop start).take width) with
  | none => simp [hread]
  | some n =>
    obtain ⟨-, hdigits, rfl⟩ := naturalOfDigits?_eq_some_iff.mp hread
    have hword : digitsValue ((text.drop start).take width) < UInt32.size := by
      refine (digitsValue_lt hdigits).trans (lt_of_le_of_lt ?_ (show 10 ^ 6 < UInt32.size by decide))
      exact Nat.pow_le_pow_right (by decide) ((List.length_take_le _ _).trans hwidth)
    simp [hread, hword]

theorem gives_byteMark {place : Nat × Char} (hroom : place.1 < text.length) :
    (byteMark (Text.encode (String.ofList text)) place).Gives
      (if text[place.1]? ≠ some place.2 then .error (.missingMark place.2 place.1) else .ok ()) := by
  obtain ⟨byte, hbyte, hvalue⟩ : ∃ byte, (Text.encode (String.ofList text))[place.1]? = some byte ∧
      byte.toNat = text[place.1].toNat := by
    refine ⟨_, ?_, toNat_ofNat_of_lt (hascii _ (List.getElem_mem hroom))⟩
    rw [encode_of_ascii hascii, List.getElem?_map, List.getElem?_eq_getElem hroom, Option.map_some]
  rw [byteMark, hbyte, List.getElem?_eq_getElem hroom]
  by_cases h : text[place.1] = place.2
  · simp [ByteReading.Gives, ByteReading.required, hvalue, h]
  · simp [ByteReading.Gives, ByteReading.required, hvalue, h, Char.toNat_inj]

/-- The bytes are gone through for the first mark that is missing. -/
theorem gives_byteMarks {places : List (Nat × Char)} (hroom : ∀ place ∈ places, place.1 < text.length) :
    (places.forM (byteMark (Text.encode (String.ofList text)))).Gives
      (match places.find? fun (offset, mark) => text[offset]? ≠ some mark with
        | some (offset, mark) => .error (.missingMark mark offset)
        | none => .ok ()) := by
  induction places with
  | nil => rfl
  | cons place places ih =>
    rw [List.forall_mem_cons] at hroom
    have hstep := gives_byteMark hascii hroom.1
    show ByteReading.Gives (byteMark _ place >>= fun _ => places.forM _) _
    by_cases h : text[place.1]? = some place.2
    · rw [if_neg (not_not.mpr h)] at hstep
      rw [List.find?_cons_of_neg (by simpa using h)]
      exact hstep.ok_bind (ih hroom.2)
    · rw [if_pos h] at hstep
      rw [List.find?_cons_of_pos (by simpa using h)]
      exact hstep.error_bind

end

/-- For every text the bytes are read to the end, with the result that its characters give. -/
theorem gives_ofBytes (text : List Char) : (ofBytes (Text.encode (String.ofList text))).Gives (ofLayout text) := by
  unfold ofBytes ofLayout
  refine ByteReading.Gives.guard guard_encode_iff fun hguard => ?_
  obtain ⟨hlength, hascii⟩ : text.length = 27 ∧ ∀ c ∈ text, c.toNat < 128 := by simpa using hguard
  have hmarks := gives_byteMarks hascii (show ∀ place ∈ marks, place.1 < text.length by rw [hlength]; decide)
  have hfield (start width : Nat) (hwidth : width ≤ 6) (hend : start + width ≤ 27) :=
    gives_byteField hascii hwidth (hlength ▸ hend)
  dsimp only
  split
  case h_1 offset mark hfind =>
    rw [hfind] at hmarks
    exact hmarks.error_bind
  case h_2 hfind =>
    rw [Option.eq_none_iff_forall_ne_some.mpr fun (found : Nat × Char) => hfind found.1 found.2] at hmarks
    refine hmarks.ok_bind ?_
    refine (hfield 0 4 (by decide) (by decide)).bind fun year => ?_
    refine (hfield 5 2 (by decide) (by decide)).bind fun month => ?_
    refine (hfield 8 2 (by decide) (by decide)).bind fun day => ?_
    refine (hfield 11 2 (by decide) (by decide)).bind fun hour => ?_
    refine (hfield 14 2 (by decide) (by decide)).bind fun minute => ?_
    refine (hfield 17 2 (by decide) (by decide)).bind fun second => ?_
    refine (hfield 20 6 (by decide) (by decide)).bind fun microsecond => ?_
    exact ByteReading.Gives.guard Iff.rfl fun _ => ByteReading.Gives.guard Iff.rfl fun _ => rfl

/-! ### Timestamps -/

/-- A text is read exactly if it states an instant, with blanks around the statement and semicolons behind it, and what
is read is what it states. Only one text of 27 ASCII characters states an instant, its layout, so that writing and
reading undo each other both ways. All other texts have a fault. A machine finds the same in the bytes of the cleaned
text, and all bytes and parts that it asks for are there. -/
theorem read_eq_ok_iff_states (text : List Char) :
    (∀ t, read text = .ok t ↔ ∃ core, Surrounds text core ∧ States core t) ∧
    (∀ core t, States core t → core.length = 27 ∧ (∀ c ∈ core, c.toNat < 128) ∧ t.layout = core) ∧
    (∀ t, t.Statable → States t.layout t ∧ read t.layout = .ok t) ∧
    ((¬ ∃ core t, Surrounds text core ∧ States core t) → ∃ fault, read text = .error fault) ∧
    (ofBytes (Text.encode (String.ofList (clean text)))).run = some (read text) := by
  refine ⟨fun t => read_eq_ok_iff, fun core t h => ?_, fun t h => ?_, fun hnone => ?_, gives_ofBytes (clean text)⟩
  · exact ⟨h.length_eq, h.isPlain.isAscii, (states_iff.mp h).2.symm⟩
  · have hstates : States t.layout t := states_iff.mpr ⟨h, rfl⟩
    exact ⟨hstates, read_eq_ok_iff.mpr ⟨t.layout, surrounds_self _, hstates⟩⟩
  · cases hread : read text with
    | error fault => exact ⟨fault, rfl⟩
    | ok t =>
      obtain ⟨core, htext, hcore⟩ := read_eq_ok_iff.mp hread
      exact absurd ⟨core, t, htext, hcore⟩ hnone

end SurfaceWater.Instant
