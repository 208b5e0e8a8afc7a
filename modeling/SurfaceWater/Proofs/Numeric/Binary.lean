import SurfaceWater.Proofs.Numeric.Rounding

/-!
# Numbers kept exactly

A number survives as its bit pattern, and a whole number that fits the significand of a format is a
number of the format.
-/

namespace SurfaceWater.Binary

variable {f : Format}

/-! ### Bit patterns -/

theorem infinityWord_add (f : Format) :
    f.infinityWord + 2 ^ f.fractionBits = 2 ^ (f.exponentBits + f.fractionBits) := by
  have hpos : 0 < 2 ^ f.exponentBits := Nat.two_pow_pos _
  rw [Format.infinityWord, ← Nat.succ_mul, Nat.pow_add, Nat.succ_eq_add_one, Nat.sub_add_cancel hpos]

theorem toBits_lt (hfraction : 0 < f.fractionBits) (x : Binary f) : x.toBits < 2 * 2 ^ (f.exponentBits + f.fractionBits) := by
  have hsum := infinityWord_add f
  have hquiet : 2 ^ (f.fractionBits - 1) < 2 ^ f.fractionBits := Nat.pow_lt_pow_right Nat.one_lt_two (by omega)
  cases x with
  | nan =>
    rw [toBits]
    omega
  | signed negative word =>
    have hword := word.isLt
    have hone : 0 < 2 ^ (f.fractionBits - 1) := Nat.two_pow_pos _
    rw [toBits]
    split <;> omega

theorem ofBits_toBits (hfraction : 0 < f.fractionBits) (x : Binary f) : ofBits x.toBits = x := by
  have hsum := infinityWord_add f
  have hquiet : 2 ^ (f.fractionBits - 1) < 2 ^ f.fractionBits := Nat.pow_lt_pow_right Nat.one_lt_two (by omega)
  have hone : 0 < 2 ^ (f.fractionBits - 1) := Nat.two_pow_pos _
  cases x with
  | nan =>
    have hmod : (f.infinityWord + 2 ^ (f.fractionBits - 1)) % 2 ^ (f.exponentBits + f.fractionBits) =
        f.infinityWord + 2 ^ (f.fractionBits - 1) := Nat.mod_eq_of_lt (by omega)
    rw [toBits, ofBits, dif_neg (by rw [hmod]; omega)]
  | signed negative word =>
    have hword : word.val < 2 ^ (f.exponentBits + f.fractionBits) := by
      have := word.isLt
      omega
    cases negative with
    | true =>
      have hmod : (2 ^ (f.exponentBits + f.fractionBits) + word.val) % 2 ^ (f.exponentBits + f.fractionBits) = word := by
        rw [Nat.add_mod_left, Nat.mod_eq_of_lt hword]
      have hdiv : (2 ^ (f.exponentBits + f.fractionBits) + word.val) / 2 ^ (f.exponentBits + f.fractionBits) = 1 := by
        rw [Nat.add_div_left _ (Nat.two_pow_pos _), Nat.div_eq_of_lt hword]
      simp only [toBits, ofBits, if_true, hmod, hdiv, word.isLt, dif_pos]
      rfl
    | false =>
      have hmod : (0 + word.val) % 2 ^ (f.exponentBits + f.fractionBits) = word := by
        rw [Nat.zero_add, Nat.mod_eq_of_lt hword]
      have hdiv : (0 + word.val) / 2 ^ (f.exponentBits + f.fractionBits) = 0 := by
        rw [Nat.zero_add, Nat.div_eq_of_lt hword]
      simp only [toBits, ofBits, Bool.false_eq_true, if_false, hmod, hdiv, word.isLt, dif_pos]
      rfl

/-! ### Whole numbers -/

theorem ofNat_zero : (ofNat 0 : Binary f) = zero false := by
  have hword : f.roundWord (0 * 2 ^ f.scale) 1 = 0 := by rw [Nat.zero_mul, Format.roundWord_zero f Nat.one_pos]
  rw [ofNat, ofRatio, ofUnits, zero]
  congr 1
  exact Fin.ext hword

theorem magnitude?_ofNat {n : Nat} (hn : n < 2 * 2 ^ f.fractionBits) (hscale : f.fractionBits ≤ f.scale)
    (hrange : f.scale + 2 < 2 ^ f.exponentBits) : (ofNat n : Binary f).magnitude? = some (n * 2 ^ f.scale) := by
  obtain ⟨shift, mantissa, hparts, hshift, hvalue⟩ : ∃ shift mantissa, f.Parts shift mantissa ∧ shift ≤ f.scale ∧
      mantissa * 2 ^ shift = n * 2 ^ f.scale := by
    rcases Nat.eq_zero_or_pos n with rfl | hpos
    · exact ⟨0, 0, ⟨Nat.mul_pos Nat.two_pos (Nat.two_pow_pos _), .inl rfl⟩, Nat.zero_le _, by rw [Nat.zero_mul, Nat.zero_mul]⟩
    · have hlog := (Nat.log2_lt (Nat.ne_of_gt hpos)).mpr (by rwa [Nat.mul_comm, ← Nat.pow_succ] at hn)
      have hself := Nat.log2_self_le (Nat.ne_of_gt hpos)
      have hnext : n < 2 ^ (n.log2 + 1) := Nat.lt_log2_self
      have hsum : 2 ^ n.log2 * 2 ^ (f.fractionBits - n.log2) = 2 ^ f.fractionBits := by
        rw [← Nat.pow_add, Nat.add_sub_cancel' (by omega)]
      refine ⟨n.log2 + f.scale - f.fractionBits, n * 2 ^ (f.fractionBits - n.log2), ⟨?_, .inr ?_⟩, by omega, ?_⟩
      · rw [← hsum, ← Nat.mul_assoc, Nat.mul_comm 2, ← Nat.pow_succ]
        exact Nat.mul_lt_mul_of_pos_right hnext (Nat.two_pow_pos _)
      · rw [← hsum]
        exact Nat.mul_le_mul_right _ hself
      · rw [Nat.mul_assoc, ← Nat.pow_add]
        congr 2
        omega
  have hfinite : shift * 2 ^ f.fractionBits + mantissa < f.infinityWord := by
    have hle : (shift + 2) * 2 ^ f.fractionBits ≤ (2 ^ f.exponentBits - 1) * 2 ^ f.fractionBits :=
      Nat.mul_le_mul_right _ (by omega)
    have hlt := hparts.lt
    rw [Nat.add_mul] at hle
    rw [Format.infinityWord]
    omega
  have hword : f.roundWord (n * 2 ^ f.scale) 1 = shift * 2 ^ f.fractionBits + mantissa := by
    rw [← hvalue, ← Nat.mul_one (mantissa * 2 ^ shift)]
    exact hparts.roundWord_units (Nat.le_of_lt hfinite) Nat.one_pos
  simp only [magnitude?, ofNat, ofRatio, ofUnits, hword, hfinite, if_true, hparts.units_eq, hvalue]

end SurfaceWater.Binary
