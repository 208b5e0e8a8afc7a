import SurfaceWater.Image.Layout
import SurfaceWater.Image.Uncompressed
import SurfaceWater.Proofs.Numeric.Numeral
import SurfaceWater.Proofs.Text.Blank

/-!
# Declared values of missing data

An image declares the value of its missing pixels as a text. A natural number written in digits is read as
that number, and one of 16 bits marks exactly the samples that are equal to it.
-/

namespace SurfaceWater

/-- A text writes a natural number in decimal digits, which a plus sign may precede. -/
def WritesNatural (text : String) (n : Nat) : Prop :=
  ∃ digits, naturalOfDigits? digits = some n ∧ (text.toList = digits ∨ text.toList = '+' :: digits)

/-- The number that a text writes. -/
def naturalOfText? (text : String) : Option Nat :=
  match text.toList with
  | '+' :: digits => naturalOfDigits? digits
  | digits => naturalOfDigits? digits

theorem writesNatural_of_naturalOfText? {text : String} {n : Nat} (h : naturalOfText? text = some n) :
    WritesNatural text n := by
  unfold naturalOfText? at h
  split at h
  · rename_i digits htext
    exact ⟨digits, h, .inr htext⟩
  · exact ⟨text.toList, h, .inl rfl⟩

theorem writesNatural_toString (n : Nat) : WritesNatural (toString n) n :=
  ⟨Nat.toDigits 10 n, naturalOfDigits?_toDigits n, .inl Nat.toList_repr⟩

namespace WritesNatural

variable {text : String} {n : Nat} (h : WritesNatural text n)

include h

theorem bounds {c : Char} (hc : c ∈ text.toList) : 43 ≤ c.toNat ∧ c.toNat ≤ 57 := by
  obtain ⟨digits, hdigits, htext⟩ := h
  obtain ⟨-, hall, -⟩ := naturalOfDigits?_eq_some_iff.mp hdigits
  rcases htext with htext | htext <;> rw [htext] at hc
  · have := Char.bounds_of_isDigit (hall c hc)
    omega
  · rcases List.mem_cons.mp hc with rfl | hc
    · decide
    · have := Char.bounds_of_isDigit (hall c hc)
      omega

theorem isTagText : SurfaceWater.isTagText text = true := by
  refine List.all_eq_true.mpr fun c hc => ?_
  have := h.bounds hc
  rw [Bool.and_eq_true, decide_eq_true_eq, decide_eq_true_eq]
  omega

theorem isBlank_eq_false {c : Char} (hc : c ∈ text.toList) : Text.isBlank c = false := by
  have := h.bounds hc
  simp only [Text.isBlank, Text.blankRanges, List.any_cons, List.any_nil, Bool.or_false, Bool.or_eq_false_iff,
    Bool.and_eq_false_iff, decide_eq_false_iff_not]
  omega

theorem read?_eq {f : Format} : Binary.read? text = some (Binary.ofNat n : Binary f) := by
  obtain ⟨digits, hdigits, htext⟩ := h
  obtain ⟨hne, hall, hvalue⟩ := naturalOfDigits?_eq_some_iff.mp hdigits
  have hmagnitude : Numeral.magnitude? digits = some ⟨n, 0⟩ := by
    have hwhole := Numeral.magnitude?_whole hall hne (rfl : Numeral.exponentPart? [] = some 0) (by simp)
    rwa [List.append_nil, hvalue] at hwhole
  obtain ⟨first, rest, rfl⟩ := List.exists_cons_of_ne_nil hne
  have hfirst := hall first List.mem_cons_self
  have hunsigned : Numeral.read? (first :: rest) = some (.decimal false ⟨n, 0⟩) := by
    rw [Numeral.read?_of_isDigit hfirst, hmagnitude, Option.map_some]
  have hread : Numeral.read? text.toList = some (.decimal false ⟨n, 0⟩) := by
    rcases htext with htext | htext <;> rw [htext]
    · exact hunsigned
    · rw [← hunsigned, Numeral.read?, Numeral.read?, Numeral.splitSign_of_isDigit hfirst]
      rfl
  rw [Binary.read?, hread, Option.map_some, Numeral.toBinary_natural]

/-- Neither blanks nor nulls surround the number. -/
theorem trimmed_eq : String.ofList (Text.dropTrailing (· = '\x00') (Text.trim text.toList)) = text := by
  have htrim : Text.trim text.toList = text.toList :=
    Text.trim_eq_self (fun c hc => h.isBlank_eq_false (List.mem_of_head? hc))
      fun c hc => h.isBlank_eq_false (List.mem_of_getLast? hc)
  have hnull : Text.dropTrailing (· = '\x00') text.toList = text.toList := by
    apply Text.dropTrailing_eq_self
    intro c hc
    have hbounds := h.bounds (List.mem_of_getLast? hc)
    apply decide_eq_false
    rintro rfl
    exact absurd hbounds.1 (by decide)
  rw [htrim, hnull, String.ofList_toList]

end WritesNatural

namespace ImageLayout

variable {l : ImageLayout} {n : Nat}

theorem maskValue_eq {value : Binary64} (hdeclared : l.noData = some value) (hsign : value.isNegative = false)
    (hmagnitude : value.magnitude? = some (n * 2 ^ Format.double.scale)) (hn : n < UInt16.size) :
    l.maskValue = some (UInt16.ofNat n) := by
  have hpos : 0 < 2 ^ Format.double.scale := Nat.two_pow_pos _
  rw [maskValue, hdeclared]
  dsimp only
  rw [hmagnitude, hsign]
  dsimp only
  generalize 2 ^ Format.double.scale = one at hpos
  rw [Nat.mul_mod_left, Nat.mul_div_cancel _ hpos, if_pos ⟨rfl, hn, .inl rfl⟩]

theorem maskValue_ofNat (hdeclared : l.noData = some (Binary.ofNat n)) (hn : n < UInt16.size) :
    l.maskValue = some (UInt16.ofNat n) :=
  maskValue_eq hdeclared rfl (Binary.magnitude?_ofNat (Nat.lt_trans hn (by decide)) (by decide) (by decide)) hn

end ImageLayout

end SurfaceWater
