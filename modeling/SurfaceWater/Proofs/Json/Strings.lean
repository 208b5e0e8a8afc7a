import SurfaceWater.Json.Printer
import SurfaceWater.Json.Reader

/-!
# Strings in JSON

A written string reads back to its characters. Every character is written in one of three ways, as itself, as
a backslash with a letter, or as a backslash with the number of a code unit, and each of them reads back to the
character and leaves what comes after it.
-/

namespace SurfaceWater

theorem Json.hexDigit?_digitChar {d : Nat} (hd : d < 16) : Json.hexDigit? (Nat.digitChar d) = some d := by
  have hall : ∀ d : Fin 16, Json.hexDigit? (Nat.digitChar d) = some d.val := by decide
  exact hall ⟨d, hd⟩

/-- The number of a code unit reads back. -/
theorem Json.codeUnit?_write {unit : Nat} (hunit : unit < 65536) (rest : List Char) :
    Json.codeUnit? (([4096, 256, 16, 1].map fun weight => Nat.digitChar (unit / weight % 16)) ++ rest) =
      some (unit, rest) := by
  have hdigit (weight : Nat) : Json.hexDigit? (Nat.digitChar (unit / weight % 16)) = some (unit / weight % 16) :=
    Json.hexDigit?_digitChar (Nat.mod_lt _ (by decide))
  have hvalue : ((unit / 4096 % 16 * 16 + unit / 256 % 16) * 16 + unit / 16 % 16) * 16 + unit / 1 % 16 = unit := by
    omega
  simp only [List.map_cons, List.map_nil, List.cons_append, List.nil_append, Json.codeUnit?, hdigit,
    Option.bind_eq_bind, Option.bind_some, hvalue]

/-- A character that is read from its escape or from itself comes before those that are read from the rest. -/
def JsonChar.before (c : Char) (read : Option (List JsonChar × List Char)) : Option (List JsonChar × List Char) :=
  read.map fun (chars, rest) => (.char c :: chars, rest)

theorem Json.stringTail?_letter {letter c : Char} (hletter : letterEscape? letter = some c) (fuel : Nat)
    (tail : List Char) : stringTail? (fuel + 1) ('\\' :: letter :: tail) = JsonChar.before c (stringTail? fuel tail) := by
  have hu : letter ≠ 'u' := by
    rintro rfl
    cases hletter
  rw [stringTail?, hletter]
  · cases stringTail? fuel tail <;> rfl
  · exact hu

theorem Json.stringTail?_unit {c : Char} (hc : c.toNat < 0x20) (fuel : Nat) (tail : List Char) :
    stringTail? (fuel + 1) (JsonChar.unitEscape c.toNat ++ tail) = JsonChar.before c (stringTail? fuel tail) := by
  have hunit : unitChar c.toNat tail = (.char c, tail) := by
    have hlead : isLead c.toNat = false := by simp [isLead]; omega
    have htrail : isTrail c.toNat = false := by simp [isTrail]; omega
    unfold unitChar
    rw [if_neg (by simp [hlead]), if_neg (by simp [htrail]), Char.ofNat_toNat]
  show stringTail? (fuel + 1) ('\\' :: 'u' :: (_ ++ tail)) = _
  rw [stringTail?, codeUnit?_write (by omega)]
  simp only [Option.bind_eq_bind, Option.bind_some, hunit]
  cases stringTail? fuel tail <;> rfl

theorem Json.stringTail?_plain {c : Char} (hquote : c ≠ '"') (hslash : c ≠ '\\') (hc : ¬ c.toNat < 0x20) (fuel : Nat)
    (tail : List Char) : stringTail? (fuel + 1) (c :: tail) = JsonChar.before c (stringTail? fuel tail) := by
  rw [stringTail?]
  · rw [if_neg (by simp [hslash]; omega)]
    cases stringTail? fuel tail <;> rfl
  · exact hquote
  · exact fun _ h _ => hslash h
  · exact fun _ _ h _ => hslash h

/-- A written character is read as one. -/
theorem Json.stringTail?_write (fuel : Nat) (c : Char) (tail : List Char) :
    stringTail? (fuel + 1) ((JsonChar.char c).write ++ tail) = JsonChar.before c (stringTail? fuel tail) := by
  unfold JsonChar.write
  split
  case h_8 d hquote hslash _ _ _ _ _ hchar =>
    obtain rfl := JsonChar.char.inj hchar
    split
    case isTrue hc => exact stringTail?_unit hc fuel tail
    case isFalse hc => exact stringTail?_plain hquote hslash hc fuel tail
  case h_9 => contradiction
  all_goals
    rename_i hchar
    obtain rfl := JsonChar.char.inj hchar
    exact stringTail?_letter rfl fuel tail

/-- The characters of a text up to the quote that closes it. -/
theorem Json.stringTail?_text {chars : List Char} {fuel : Nat} (hfuel : chars.length < fuel) (rest : List Char) :
    stringTail? fuel ((chars.map JsonChar.char).flatMap JsonChar.write ++ '"' :: rest) =
      some (chars.map JsonChar.char, rest) := by
  induction chars generalizing fuel with
  | nil =>
    obtain ⟨fuel, rfl⟩ : ∃ n, fuel = n + 1 := ⟨fuel - 1, by omega⟩
    rfl
  | cons c chars ih =>
    rw [List.length_cons] at hfuel
    obtain ⟨fuel, rfl⟩ : ∃ n, fuel = n + 1 := ⟨fuel - 1, by omega⟩
    rw [List.map_cons, List.flatMap_cons, List.append_assoc, stringTail?_write, ih (by omega)]
    rfl

theorem JsonChar.write_ne_nil (c : JsonChar) : c.write ≠ [] := by
  unfold write
  split
  all_goals try split
  all_goals exact List.cons_ne_nil _ _

/-- No character is written with nothing. -/
theorem JsonChar.length_le_write (chars : List JsonChar) : chars.length ≤ (chars.flatMap write).length := by
  induction chars with
  | nil => exact Nat.le_refl _
  | cons c chars ih =>
    have hpos : 0 < c.write.length := List.length_pos_iff.mpr c.write_ne_nil
    rw [List.length_cons, List.flatMap_cons, List.length_append]
    omega

/-- A written text reads back to its characters, and what comes after it is left. -/
theorem Json.string?_writeString (chars rest : List Char) :
    string? (writeString (chars.map JsonChar.char) ++ rest) = some (chars.map JsonChar.char, rest) := by
  have hlength := JsonChar.length_le_write (chars.map JsonChar.char)
  rw [List.length_map] at hlength
  have htext : writeString (chars.map JsonChar.char) ++ rest =
      '"' :: ((chars.map JsonChar.char).flatMap JsonChar.write ++ '"' :: rest) := by
    simp only [writeString, List.cons_append, List.append_assoc, List.nil_append]
  rw [htext, string?]
  apply stringTail?_text
  rw [List.length_append, List.length_cons]
  omega

end SurfaceWater
