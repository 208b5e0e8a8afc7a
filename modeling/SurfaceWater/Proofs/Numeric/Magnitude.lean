import Mathlib.Order.Monotone.Basic
import SurfaceWater.Proofs.Numeric.Rounding

/-!
# Magnitudes below powers of two

How large the result of a computation can get. Rounding does not take a quotient past a power of two that it is
below, so that the sum, the product or the quotient of two numbers is bounded by what bounds the operands, with
one binary place to spare. A number that is bounded at all is finite, and a computation in double precision whose
bound stays below `2 ^ 1024` never overflows.
-/

namespace SurfaceWater

theorem Format.units_strictMono (f : Format) : StrictMono f.units := strictMono_nat_of_lt_succ f.units_lt_succ

/-- A quotient below a power of two is rounded to a word that is not past the word of the power. -/
theorem Format.roundWord_le (f : Format) {num den shift : Nat} (hden : 0 < den)
    (hlt : num < 2 ^ (f.fractionBits + shift) * den) : f.roundWord num den ≤ (shift + 1) * 2 ^ f.fractionBits := by
  have hquotient : num / den < 2 ^ (f.fractionBits + shift) := (Nat.div_lt_iff_lt_mul hden).mpr hlt
  generalize hs : (num / den).log2 - f.fractionBits = s
  have hround : roundQuotient num (den * 2 ^ s) ≤ num / den / 2 ^ s + 1 := by
    rw [Nat.div_div_eq_div_mul]
    exact roundQuotient_le num (den * 2 ^ s)
  have hrest : num / den / 2 ^ s < 2 * 2 ^ f.fractionBits := by
    rw [← Nat.pow_succ', Nat.div_lt_iff_lt_mul (Nat.two_pow_pos s), ← Nat.pow_add]
    exact Nat.lt_log2_self.trans_le (Nat.pow_le_pow_right Nat.two_pos (by omega))
  have hshift : s = 0 ∨ s < shift := by
    by_cases hzero : num / den = 0
    · rw [hzero, Nat.log2_zero] at hs
      omega
    · have hlog := (Nat.log2_lt hzero).mpr hquotient
      omega
  have hword : s * 2 ^ f.fractionBits + (num / den / 2 ^ s + 1) ≤ (shift + 1) * 2 ^ f.fractionBits := by
    rcases Nat.eq_zero_or_pos shift with rfl | hpos
    · obtain rfl : s = 0 := by omega
      rw [Nat.add_zero] at hquotient
      omega
    · have hstep : (s + 2) * 2 ^ f.fractionBits ≤ (shift + 1) * 2 ^ f.fractionBits := Nat.mul_le_mul_right _ (by omega)
      rw [Nat.add_mul] at hstep
      omega
  rw [roundWord, hs]
  exact (Nat.min_le_left _ _).trans ((Nat.add_le_add_left hround _).trans hword)

namespace Binary

variable {f : Format}

/-! ### Operations on finite numbers -/

section

variable {x y : Binary f} {a b : Nat}

/-- The units of a sum are at most those of both operands together, since signs can only take from them. -/
theorem add_of_magnitude? (ha : x.magnitude? = some a) (hb : y.magnitude? = some b) :
    ∃ negative, x + y = zero negative ∨ ∃ sum ≤ a + b, x + y = ofUnits negative sum 1 := by
  cases x with
  | nan => cases ha
  | signed s v =>
    cases y with
    | nan => cases hb
    | signed t w =>
      have hsigned (negative : Bool) (units : Nat) : (if negative then -(units : Int) else units).natAbs = units := by
        cases negative with
        | true => exact Int.natAbs_neg units
        | false => rfl
      have hbound : Int.natAbs (_ + _) ≤ a + b :=
        (Int.natAbs_add_le _ _).trans_eq (congrArg₂ (· + ·) (hsigned s a) (hsigned t b))
      show ∃ negative, Binary.add _ _ = _ ∨ ∃ sum ≤ a + b, Binary.add _ _ = _
      simp only [Binary.add, ha, hb]
      split
      case isTrue => exact ⟨s && t, .inl rfl⟩
      case isFalse => exact ⟨_, .inr ⟨_, hbound, rfl⟩⟩

theorem mul_of_magnitude? (ha : x.magnitude? = some a) (hb : y.magnitude? = some b) :
    ∃ negative, x * y = ofUnits negative (a * b) (2 ^ f.scale) := by
  cases x with
  | nan => cases ha
  | signed s v =>
    cases y with
    | nan => cases hb
    | signed t w =>
      show ∃ negative, Binary.mul _ _ = _
      simp only [Binary.mul, ha, hb]
      exact ⟨_, rfl⟩

theorem div_of_magnitude? (ha : x.magnitude? = some a) (hb : y.magnitude? = some b) (hpos : 0 < b) :
    ∃ negative, x / y = ofUnits negative (a * 2 ^ f.scale) b := by
  cases x with
  | nan => cases ha
  | signed s v =>
    cases y with
    | nan => cases hb
    | signed t w =>
      show ∃ negative, Binary.div _ _ = _
      simp only [Binary.div, ha, hb, Nat.ne_of_gt hpos, if_false]
      exact ⟨_, rfl⟩

end

/-! ### Bounds -/

/-- A finite number whose magnitude is below a power of two. -/
def Below (x : Binary f) (n : Nat) : Prop := ∃ units ∈ x.magnitude?, units < 2 ^ (f.scale + n)

instance (x : Binary f) (n : Nat) : Decidable (x.Below n) :=
  inferInstanceAs (Decidable (∃ units ∈ x.magnitude?, units < 2 ^ (f.scale + n)))

theorem Below.isFinite {x : Binary f} {n : Nat} (h : x.Below n) : x.isFinite = true := by
  obtain ⟨units, hunits, -⟩ := h
  exact Option.isSome_of_mem hunits

theorem Below.mono {x : Binary f} {n m : Nat} (h : x.Below n) (hle : n ≤ m) : x.Below m := by
  obtain ⟨units, hunits, hlt⟩ := h
  exact ⟨units, hunits, hlt.trans_le (Nat.pow_le_pow_right Nat.two_pos (Nat.add_le_add_left hle _))⟩

theorem Below.neg {x : Binary f} {n : Nat} (h : x.Below n) : x.neg.Below n := by
  cases x with
  | nan => exact h
  | signed negative word => exact h

/-! ### Double precision -/

/-- A quotient below a power of two becomes a number that is at most the power. -/
theorem below_ofUnits (negative : Bool) {num den n : Nat} (hden : 0 < den)
    (hlt : num < 2 ^ (Format.double.scale + n) * den) (hn : n < 1024) :
    (ofUnits negative num den : Binary64).Below (n + 1) := by
  have hscale : Format.double.scale + n = Format.double.fractionBits + (1022 + n) := by
    have hscale : Format.double.scale = Format.double.fractionBits + 1022 := by decide
    omega
  have hround := Format.double.roundWord_le hden (hscale ▸ hlt)
  have hparts : Format.double.Parts (1022 + n) (2 ^ Format.double.fractionBits) := ⟨by decide, .inr (Nat.le_refl _)⟩
  have hword : Format.double.roundWord num den < Format.double.infinityWord := by
    have hstep : (1022 + n + 1) * 2 ^ Format.double.fractionBits ≤ 2046 * 2 ^ Format.double.fractionBits :=
      Nat.mul_le_mul_right _ (by omega)
    have hinfinity : 2046 * 2 ^ Format.double.fractionBits < Format.double.infinityWord := by decide
    omega
  refine ⟨Format.double.units (Format.double.roundWord num den), ?_, ?_⟩
  · exact if_pos hword
  · calc Format.double.units (Format.double.roundWord num den)
        ≤ Format.double.units ((1022 + n) * 2 ^ Format.double.fractionBits + 2 ^ Format.double.fractionBits) :=
          Format.double.units_strictMono.monotone (by rwa [Nat.succ_mul] at hround)
      _ = 2 ^ (Format.double.scale + n) := by rw [hparts.units_eq, ← Nat.pow_add, hscale]
      _ < 2 ^ (Format.double.scale + (n + 1)) := Nat.pow_lt_pow_right (by decide) (by omega)

theorem below_intCast {i : Int} {n : Nat} (hi : i.natAbs < 2 ^ n) (hn : n < 1024) : (i : Binary64).Below (n + 1) := by
  apply below_ofUnits _ Nat.one_pos _ hn
  rw [Nat.mul_one, Nat.pow_add, Nat.mul_comm]
  exact Nat.mul_lt_mul_of_pos_left hi (Nat.two_pow_pos _)

theorem below_zero (negative : Bool) (n : Nat) : (zero negative : Binary64).Below n :=
  ⟨0, by cases negative <;> decide, Nat.two_pow_pos _⟩

variable {x y : Binary64} {n m : Nat}

theorem Below.add (hx : x.Below n) (hy : y.Below n) (hn : n < 1023) : (x + y).Below (n + 2) := by
  obtain ⟨a, ha, halt⟩ := hx
  obtain ⟨b, hb, hblt⟩ := hy
  obtain ⟨negative, heq | ⟨sum, hsum, heq⟩⟩ := add_of_magnitude? ha hb
  · rw [heq]
    exact below_zero _ _
  · rw [heq]
    apply below_ofUnits _ Nat.one_pos _ (Nat.succ_lt_succ hn)
    rw [Nat.mul_one, Nat.add_succ, Nat.pow_succ]
    omega

theorem Below.sub (hx : x.Below n) (hy : y.Below n) (hn : n < 1023) : (x - y).Below (n + 2) := hx.add hy.neg hn

theorem Below.mul (hx : x.Below n) (hy : y.Below m) (hn : n + m < 1024) : (x * y).Below (n + m + 1) := by
  obtain ⟨a, ha, halt⟩ := hx
  obtain ⟨b, hb, hblt⟩ := hy
  obtain ⟨negative, heq⟩ := mul_of_magnitude? ha hb
  rw [heq]
  apply below_ofUnits _ (Nat.two_pow_pos _) _ hn
  calc a * b < 2 ^ (Format.double.scale + n) * 2 ^ (Format.double.scale + m) := Nat.mul_lt_mul'' halt hblt
    _ = 2 ^ (Format.double.scale + (n + m)) * 2 ^ Format.double.scale := by
      rw [← Nat.pow_add, ← Nat.pow_add]
      congr 1
      omega

/-- A quotient is no larger than the dividend if the divisor is at least one. -/
theorem Below.div (hx : x.Below n) (hy : ∃ units ∈ y.magnitude?, 2 ^ Format.double.scale ≤ units) (hn : n < 1024) :
    (x / y).Below (n + 1) := by
  obtain ⟨a, ha, halt⟩ := hx
  obtain ⟨b, hb, hble⟩ := hy
  have hpos : 0 < b := (Nat.two_pow_pos _).trans_le hble
  obtain ⟨negative, heq⟩ := div_of_magnitude? ha hb hpos
  rw [heq]
  apply below_ofUnits _ hpos _ hn
  exact Nat.mul_lt_mul_of_lt_of_le halt hble hpos

end Binary

end SurfaceWater
