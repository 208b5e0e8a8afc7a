import Mathlib.Tactic.Ring
import SurfaceWater.Numeric.Binary

/-!
# Rounding to nearest

A word has a shift and a mantissa: it stands for its mantissa times a power of two, and the word after
it for the next mantissa. Every number between the midpoints of a word with its neighbours is rounded to
that word, and a midpoint itself when the word is even. Just below a power of two the shift that the
rounding chooses is one less than that of the word; then it carries.
-/

namespace SurfaceWater

/-- The number nearest to a quotient is recognized by the midpoints around it. -/
theorem roundQuotient_eq {num den q : Nat} (hden : 0 < den)
    (hbelow : 2 * q * den < 2 * num + den ∨ 2 * q * den = 2 * num + den ∧ q % 2 = 0)
    (habove : 2 * num < 2 * q * den + den ∨ 2 * num = 2 * q * den + den ∧ q % 2 = 0) : roundQuotient num den = q := by
  have hnum := Nat.div_add_mod num den
  have hmod := Nat.mod_lt num hden
  have hmul : 2 * q * den = 2 * (den * q) := by rw [Nat.mul_assoc, Nat.mul_comm q]
  rw [hmul] at hbelow habove
  have hquotient : q = num / den ∨ q = num / den + 1 := by
    rcases Nat.lt_or_ge q (num / den) with hlt | hge
    · have hle := Nat.mul_le_mul_left den hlt
      rw [Nat.mul_succ] at hle
      omega
    rcases Nat.lt_or_ge (num / den + 1) q with hgt | hle
    · have hle := Nat.mul_le_mul_left den hgt
      rw [Nat.mul_succ, Nat.mul_succ] at hle
      omega
    · omega
  have hnext : den * (num / den + 1) = den * (num / den) + den := Nat.mul_succ ..
  rw [roundQuotient]
  split
  case h_1 h =>
    rw [Nat.compare_eq_lt] at h
    rcases hquotient with rfl | rfl <;> omega
  case h_2 h =>
    rw [Nat.compare_eq_gt] at h
    rcases hquotient with rfl | rfl <;> omega
  case h_3 h =>
    rw [Nat.compare_eq_eq] at h
    rcases hquotient with rfl | rfl <;> split <;> omega

theorem le_roundQuotient (num den : Nat) : num / den ≤ roundQuotient num den := by
  rw [roundQuotient]
  split
  case h_3 => split <;> omega
  all_goals omega

theorem roundQuotient_le (num den : Nat) : roundQuotient num den ≤ num / den + 1 := by
  rw [roundQuotient]
  split
  case h_3 => split <;> omega
  all_goals omega

namespace Format

variable {f : Format}

/-! ### Shift and mantissa -/

/-- A shift and a mantissa make a word. Only words without a shift have a mantissa below `2 ^ fractionBits`. -/
structure Parts (f : Format) (shift mantissa : Nat) : Prop where
  lt : mantissa < 2 * 2 ^ f.fractionBits
  normal : shift = 0 ∨ 2 ^ f.fractionBits ≤ mantissa

theorem exists_parts (f : Format) (word : Nat) :
    ∃ shift mantissa, f.Parts shift mantissa ∧ word = shift * 2 ^ f.fractionBits + mantissa := by
  have hpos : 0 < 2 ^ f.fractionBits := Nat.two_pow_pos _
  have hword := Nat.div_add_mod' word (2 ^ f.fractionBits)
  have hmod := Nat.mod_lt word hpos
  cases hdiv : word / 2 ^ f.fractionBits with
  | zero =>
    rw [hdiv] at hword
    exact ⟨0, word, ⟨by omega, .inl rfl⟩, by omega⟩
  | succ shift =>
    rw [hdiv, Nat.succ_mul] at hword
    exact ⟨shift, 2 ^ f.fractionBits + word % 2 ^ f.fractionBits, ⟨by omega, .inr (by omega)⟩, by omega⟩

section

variable {shift mantissa : Nat} (h : f.Parts shift mantissa)

include h

theorem Parts.units_eq : f.units (shift * 2 ^ f.fractionBits + mantissa) = mantissa * 2 ^ shift := by
  have hpos : 0 < 2 ^ f.fractionBits := Nat.two_pow_pos _
  have hshift : (shift * 2 ^ f.fractionBits + mantissa) / 2 ^ f.fractionBits - 1 = shift := by
    rw [Nat.mul_comm, Nat.mul_add_div hpos]
    rcases h.normal with rfl | hnormal
    · have : mantissa / 2 ^ f.fractionBits < 2 := (Nat.div_lt_iff_lt_mul hpos).mpr h.lt
      omega
    · have : mantissa / 2 ^ f.fractionBits = 1 := Nat.div_eq_of_lt_le (by omega) (by have := h.lt; omega)
      omega
  rw [units, hshift, Nat.add_sub_cancel_left]

theorem Parts.units_succ : f.units (shift * 2 ^ f.fractionBits + mantissa + 1) = (mantissa + 1) * 2 ^ shift := by
  by_cases hcarry : mantissa + 1 < 2 * 2 ^ f.fractionBits
  · refine Parts.units_eq ⟨hcarry, ?_⟩
    rcases h.normal with hzero | hnormal
    · exact .inl hzero
    · exact .inr (Nat.le_succ_of_le hnormal)
  · have hmantissa : mantissa + 1 = 2 * 2 ^ f.fractionBits := by have := h.lt; omega
    have hpos : 0 < 2 ^ f.fractionBits := Nat.two_pow_pos _
    have hparts : f.Parts (shift + 1) (2 ^ f.fractionBits) := ⟨by omega, .inr (Nat.le_refl _)⟩
    have hword : shift * 2 ^ f.fractionBits + mantissa + 1 = (shift + 1) * 2 ^ f.fractionBits + 2 ^ f.fractionBits := by
      rw [Nat.succ_mul]
      omega
    rw [hword, hparts.units_eq, hmantissa, Nat.pow_succ, Nat.mul_comm (2 ^ shift), ← Nat.mul_assoc,
      Nat.mul_comm (2 ^ f.fractionBits)]

/-- The word before, unless a power of two lies between. -/
theorem Parts.units_pred (hstep : shift = 0 ∧ 0 < mantissa ∨ 2 ^ f.fractionBits < mantissa) :
    f.units (shift * 2 ^ f.fractionBits + mantissa - 1) + 2 ^ shift = mantissa * 2 ^ shift := by
  have hpos : 0 < 2 ^ f.fractionBits := Nat.two_pow_pos _
  obtain ⟨before, rfl⟩ : ∃ before, mantissa = before + 1 := ⟨mantissa - 1, by omega⟩
  have hlt := h.lt
  have hparts : f.Parts shift before := by
    refine ⟨by omega, ?_⟩
    rcases hstep with ⟨hzero, -⟩ | hgt
    · exact .inl hzero
    · exact .inr (Nat.le_of_lt_succ hgt)
  rw [← Nat.add_assoc, Nat.add_sub_cancel, hparts.units_eq, Nat.succ_mul]

end

theorem units_lt_succ (f : Format) (word : Nat) : f.units word < f.units (word + 1) := by
  obtain ⟨shift, mantissa, hparts, rfl⟩ := f.exists_parts word
  rw [hparts.units_eq, hparts.units_succ]
  exact Nat.mul_lt_mul_of_pos_right (Nat.lt_succ_self _) (Nat.two_pow_pos _)

theorem units_pred_lt {word : Nat} (hpos : 0 < word) : f.units (word - 1) < f.units word := by
  have hlt := f.units_lt_succ (word - 1)
  rwa [Nat.sub_add_cancel hpos] at hlt

/-- The word before a power of two. -/
theorem units_pred_power (f : Format) (shift : Nat) :
    f.units ((shift + 1) * 2 ^ f.fractionBits + 2 ^ f.fractionBits - 1) + 2 ^ shift =
      2 * 2 ^ f.fractionBits * 2 ^ shift := by
  have hpos : 0 < 2 ^ f.fractionBits := Nat.two_pow_pos _
  have hparts : f.Parts shift (2 * 2 ^ f.fractionBits - 1) := ⟨by omega, .inr (by omega)⟩
  have hword : (shift + 1) * 2 ^ f.fractionBits + 2 ^ f.fractionBits - 1 =
      shift * 2 ^ f.fractionBits + (2 * 2 ^ f.fractionBits - 1) := by
    rw [Nat.succ_mul]
    omega
  rw [hword, hparts.units_eq, ← Nat.succ_mul]
  congr 1
  omega

/-! ### Words of quotients -/

/-- The shift that the rounding chooses for a quotient. -/
theorem log2_sub_eq {quotient shift : Nat} (hlt : quotient < 2 * 2 ^ f.fractionBits * 2 ^ shift)
    (hle : shift = 0 ∨ 2 ^ f.fractionBits * 2 ^ shift ≤ quotient) : quotient.log2 - f.fractionBits = shift := by
  rw [Nat.mul_comm 2, ← Nat.pow_succ, ← Nat.pow_add, Nat.succ_add] at hlt
  rcases hle with rfl | hle
  · rcases Nat.eq_zero_or_pos quotient with rfl | hpos
    · simp
    · have := (Nat.log2_lt (Nat.ne_of_gt hpos)).mpr hlt
      omega
  · rw [← Nat.pow_add] at hle
    have hpos : quotient ≠ 0 := Nat.ne_of_gt (Nat.lt_of_lt_of_le (Nat.two_pow_pos _) hle)
    have hlog : quotient.log2 = f.fractionBits + shift :=
      (Nat.log2_eq_iff hpos).mpr ⟨hle, hlt⟩
    omega

theorem roundWord_eq_min {num den shift mantissa : Nat} (hden : 0 < den)
    (hlt : num / den < 2 * 2 ^ f.fractionBits * 2 ^ shift)
    (hle : shift = 0 ∨ 2 ^ f.fractionBits * 2 ^ shift ≤ num / den)
    (hbelow : 2 * mantissa * (den * 2 ^ shift) < 2 * num + den * 2 ^ shift ∨
      2 * mantissa * (den * 2 ^ shift) = 2 * num + den * 2 ^ shift ∧ mantissa % 2 = 0)
    (habove : 2 * num < 2 * mantissa * (den * 2 ^ shift) + den * 2 ^ shift ∨
      2 * num = 2 * mantissa * (den * 2 ^ shift) + den * 2 ^ shift ∧ mantissa % 2 = 0) :
    f.roundWord num den = min (shift * 2 ^ f.fractionBits + mantissa) f.infinityWord := by
  rw [roundWord, log2_sub_eq hlt hle,
    roundQuotient_eq (Nat.mul_pos hden (Nat.two_pow_pos shift)) hbelow habove]

section

variable {num den shift mantissa : Nat} (h : f.Parts shift mantissa)

include h

theorem Parts.lt_of_above (hden : 0 < den)
    (habove : 2 * num ≤ 2 * mantissa * (den * 2 ^ shift) + den * 2 ^ shift) :
    num < 2 * 2 ^ f.fractionBits * 2 ^ shift * den := by
  have hstep : 0 < den * 2 ^ shift := Nat.mul_pos hden (Nat.two_pow_pos _)
  have hle : 2 * (mantissa + 1) * (den * 2 ^ shift) ≤ 2 * (2 * 2 ^ f.fractionBits) * (den * 2 ^ shift) :=
    Nat.mul_le_mul_right _ (Nat.mul_le_mul_left 2 h.lt)
  have hleft : 2 * (mantissa + 1) * (den * 2 ^ shift) = 2 * mantissa * (den * 2 ^ shift) + 2 * (den * 2 ^ shift) := by
    ring
  have hright : 2 * (2 * 2 ^ f.fractionBits) * (den * 2 ^ shift) = 2 * (2 * 2 ^ f.fractionBits * 2 ^ shift * den) := by
    ring
  omega

/-- Away from a power of two the midpoint below is half a step away. -/
theorem Parts.midpoint_below (hstep : shift = 0 ∧ 0 < mantissa ∨ 2 ^ f.fractionBits < mantissa) (den : Nat) :
    (f.units (shift * 2 ^ f.fractionBits + mantissa - 1) + mantissa * 2 ^ shift) * den + den * 2 ^ shift =
      2 * mantissa * (den * 2 ^ shift) := by
  calc (f.units (shift * 2 ^ f.fractionBits + mantissa - 1) + mantissa * 2 ^ shift) * den + den * 2 ^ shift
      = (f.units (shift * 2 ^ f.fractionBits + mantissa - 1) + 2 ^ shift) * den + mantissa * 2 ^ shift * den := by ring
    _ = mantissa * 2 ^ shift * den + mantissa * 2 ^ shift * den := by rw [h.units_pred hstep]
    _ = 2 * mantissa * (den * 2 ^ shift) := by ring

end

/-- Just below a power of two the rounding carries. -/
theorem roundWord_eq_carry {num den shift : Nat} (hden : 0 < den)
    (hbelow : (f.units ((shift + 1) * 2 ^ f.fractionBits + 2 ^ f.fractionBits - 1) +
      2 ^ f.fractionBits * 2 ^ (shift + 1)) * den ≤ 2 * num)
    (hlt : num < 2 ^ f.fractionBits * 2 ^ (shift + 1) * den) (heven : 2 ^ f.fractionBits % 2 = 0) :
    f.roundWord num den = min ((shift + 1) * 2 ^ f.fractionBits + 2 ^ f.fractionBits) f.infinityWord := by
  have hpos : 0 < 2 ^ f.fractionBits := Nat.two_pow_pos _
  -- in steps of the smaller shift the midpoint below is at `4 * 2 ^ fractionBits - 1` halves
  have hmidpoint : (f.units ((shift + 1) * 2 ^ f.fractionBits + 2 ^ f.fractionBits - 1) +
        2 ^ f.fractionBits * 2 ^ (shift + 1)) * den + den * 2 ^ shift =
      2 * (2 * 2 ^ f.fractionBits) * (den * 2 ^ shift) := by
    calc (f.units ((shift + 1) * 2 ^ f.fractionBits + 2 ^ f.fractionBits - 1) +
          2 ^ f.fractionBits * 2 ^ (shift + 1)) * den + den * 2 ^ shift
        = (f.units ((shift + 1) * 2 ^ f.fractionBits + 2 ^ f.fractionBits - 1) + 2 ^ shift) * den +
          2 ^ f.fractionBits * 2 ^ (shift + 1) * den := by ring
      _ = 2 * 2 ^ f.fractionBits * 2 ^ shift * den + 2 ^ f.fractionBits * 2 ^ (shift + 1) * den := by
        rw [f.units_pred_power]
      _ = 2 * (2 * 2 ^ f.fractionBits) * (den * 2 ^ shift) := by ring
  have hquarter : 2 * (2 * 2 ^ f.fractionBits) * (den * 2 ^ shift) = 4 * (2 ^ f.fractionBits * (den * 2 ^ shift)) := by ring
  have hlow : 2 ^ f.fractionBits * 2 ^ shift * den = 2 ^ f.fractionBits * (den * 2 ^ shift) := by ring
  have hhigh : 2 ^ f.fractionBits * 2 ^ (shift + 1) * den = 2 * (2 ^ f.fractionBits * (den * 2 ^ shift)) := by ring
  have hstep : den * 2 ^ shift ≤ 2 ^ f.fractionBits * (den * 2 ^ shift) := Nat.le_mul_of_pos_left _ hpos
  have hround : f.roundWord num den = min (shift * 2 ^ f.fractionBits + 2 * 2 ^ f.fractionBits) f.infinityWord := by
    refine roundWord_eq_min hden ?_ (.inr ?_) (by omega) (.inl (by omega))
    · rw [Nat.div_lt_iff_lt_mul hden]
      calc num < 2 ^ f.fractionBits * 2 ^ (shift + 1) * den := hlt
        _ = 2 * 2 ^ f.fractionBits * 2 ^ shift * den := by ring
    · rw [Nat.le_div_iff_mul_le hden]
      omega
  have hword : shift * 2 ^ f.fractionBits + 2 * 2 ^ f.fractionBits =
      (shift + 1) * 2 ^ f.fractionBits + 2 ^ f.fractionBits := by ring
  rw [hround, hword]

/-- What lies between the midpoints of a word with its neighbours is rounded to the word. -/
theorem roundWord_eq {num den word : Nat} (hfraction : 0 < f.fractionBits) (hden : 0 < den) (hpos : 0 < word)
    (hword : word ≤ f.infinityWord)
    (hbelow : (f.units (word - 1) + f.units word) * den < 2 * num ∨
      (f.units (word - 1) + f.units word) * den = 2 * num ∧ word % 2 = 0)
    (habove : 2 * num < (f.units word + f.units (word + 1)) * den ∨
      2 * num = (f.units word + f.units (word + 1)) * den ∧ word % 2 = 0) :
    f.roundWord num den = word := by
  obtain ⟨shift, mantissa, hparts, rfl⟩ := f.exists_parts word
  have heven : 2 ^ f.fractionBits % 2 = 0 := by
    obtain ⟨k, hk⟩ : ∃ k, f.fractionBits = k + 1 := ⟨f.fractionBits - 1, by omega⟩
    rw [hk, Nat.pow_succ, Nat.mul_mod_left]
  have hparity : (shift * 2 ^ f.fractionBits + mantissa) % 2 = mantissa % 2 := by
    rw [Nat.add_mod, Nat.mul_mod, heven, Nat.mul_zero, Nat.zero_mod, Nat.zero_add, Nat.mod_mod]
  have hmidpoint : (mantissa * 2 ^ shift + (mantissa + 1) * 2 ^ shift) * den =
      2 * mantissa * (den * 2 ^ shift) + den * 2 ^ shift := by ring
  rw [hparts.units_succ, hparts.units_eq, hparity, hmidpoint] at habove
  rw [hparts.units_eq, hparity] at hbelow
  have hlt := hparts.lt_of_above hden (by omega : 2 * num ≤ 2 * mantissa * (den * 2 ^ shift) + den * 2 ^ shift)
  have hstep (h : shift = 0 ∧ 0 < mantissa ∨ 2 ^ f.fractionBits < mantissa) :
      2 * mantissa * (den * 2 ^ shift) < 2 * num + den * 2 ^ shift ∨
        2 * mantissa * (den * 2 ^ shift) = 2 * num + den * 2 ^ shift ∧ mantissa % 2 = 0 := by
    have := hparts.midpoint_below h den
    omega
  have hscale : 2 * (2 ^ f.fractionBits * 2 ^ shift * den) = 2 * 2 ^ f.fractionBits * (den * 2 ^ shift) := by ring
  by_cases hshift : shift = 0 ∨ 2 ^ f.fractionBits * 2 ^ shift ≤ num / den
  case pos =>
    refine (roundWord_eq_min hden ((Nat.div_lt_iff_lt_mul hden).mpr hlt) hshift ?_ habove).trans (Nat.min_eq_left hword)
    rcases Nat.eq_zero_or_pos shift with rfl | hshiftPos
    · exact hstep (.inl ⟨rfl, by omega⟩)
    rcases Nat.lt_or_ge (2 ^ f.fractionBits) mantissa with hgt | hle
    · exact hstep (.inr hgt)
    · obtain rfl : mantissa = 2 ^ f.fractionBits :=
        Nat.le_antisymm hle (hparts.normal.resolve_left (Nat.ne_of_gt hshiftPos))
      have hnum := (Nat.le_div_iff_mul_le hden).mp (hshift.resolve_left (Nat.ne_of_gt hshiftPos))
      have : 0 < den * 2 ^ shift := Nat.mul_pos hden (Nat.two_pow_pos _)
      omega
  case neg =>
    obtain ⟨before, rfl⟩ : ∃ before, shift = before + 1 := ⟨shift - 1, by omega⟩
    have hnum : num < 2 ^ f.fractionBits * 2 ^ (before + 1) * den :=
      (Nat.div_lt_iff_lt_mul hden).mp (Nat.lt_of_not_le fun hle => hshift (.inr hle))
    have hnormal := hparts.normal.resolve_left (Nat.succ_ne_zero before)
    rcases Nat.lt_or_ge (2 ^ f.fractionBits) mantissa with hgt | hle
    · have hmul : 2 * (2 ^ f.fractionBits + 1) * (den * 2 ^ (before + 1)) ≤ 2 * mantissa * (den * 2 ^ (before + 1)) :=
        Nat.mul_le_mul_right _ (Nat.mul_le_mul_left 2 hgt)
      have hsplit : 2 * (2 ^ f.fractionBits + 1) * (den * 2 ^ (before + 1)) =
          2 * 2 ^ f.fractionBits * (den * 2 ^ (before + 1)) + 2 * (den * 2 ^ (before + 1)) := by ring
      have := hstep (.inr hgt)
      omega
    · obtain rfl : mantissa = 2 ^ f.fractionBits := Nat.le_antisymm hle hnormal
      exact (roundWord_eq_carry hden (by omega) hnum heven).trans (Nat.min_eq_left hword)

/-- A whole number of units that a word stands for is rounded to the word. -/
theorem Parts.roundWord_units {shift mantissa : Nat} (h : f.Parts shift mantissa)
    (hword : shift * 2 ^ f.fractionBits + mantissa ≤ f.infinityWord) {den : Nat} (hden : 0 < den) :
    f.roundWord (mantissa * 2 ^ shift * den) den = shift * 2 ^ f.fractionBits + mantissa := by
  have hquotient : mantissa * 2 ^ shift * den / den = mantissa * 2 ^ shift := Nat.mul_div_cancel _ hden
  have hstep : 0 < den * 2 ^ shift := Nat.mul_pos hden (Nat.two_pow_pos _)
  have htwice : 2 * (mantissa * 2 ^ shift * den) = 2 * mantissa * (den * 2 ^ shift) := by ring
  refine (roundWord_eq_min hden ?_ ?_ (.inl (by omega)) (.inl (by omega))).trans (Nat.min_eq_left hword)
  · rw [hquotient]
    exact Nat.mul_lt_mul_of_pos_right h.lt (Nat.two_pow_pos _)
  · rw [hquotient]
    exact h.normal.imp_right fun hle => Nat.mul_le_mul_right _ hle

theorem roundWord_zero (f : Format) {den : Nat} (hden : 0 < den) : f.roundWord 0 den = 0 := by
  have hparts : f.Parts 0 0 := ⟨Nat.mul_pos Nat.two_pos (Nat.two_pow_pos _), .inl rfl⟩
  have hzero := hparts.roundWord_units (by rw [Nat.zero_mul]; exact Nat.zero_le _) hden
  rwa [Nat.zero_mul, Nat.zero_mul, Nat.zero_mul] at hzero

end Format

end SurfaceWater
