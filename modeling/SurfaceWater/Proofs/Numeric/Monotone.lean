import Mathlib.Data.Nat.Log
import SurfaceWater.Proofs.Numeric.Binary
import SurfaceWater.Proofs.Numeric.Magnitude

/-!
# Monotone arithmetic

Rounding keeps the order of what it rounds. So a product with a larger factor or a quotient of a larger dividend is at
least as large, and finite numbers stay finite wherever the largest of them do. Signs are exact: numbers without a
minus sign are not given one by a product, a quotient or a conversion, and their difference is no larger than the
larger of them.
-/

namespace SurfaceWater

/-! ### Rounding -/

theorem roundQuotient_mono {num num' : Nat} (den : Nat) (h : num ≤ num') :
    roundQuotient num den ≤ roundQuotient num' den := by
  rcases (Nat.div_le_div_right h : num / den ≤ num' / den).eq_or_lt with heq | hlt
  · -- of two numbers with one quotient the larger has the larger rest
    have hrest : num % den ≤ num' % den := by
      have hnum := Nat.div_add_mod num den
      have hnum' := Nat.div_add_mod num' den
      rw [← heq] at hnum'
      omega
    simp only [roundQuotient, ← heq]
    rcases h : compare (2 * (num % den)) den with _ | _ | _ <;>
      rcases h' : compare (2 * (num' % den)) den with _ | _ | _ <;>
      simp only [Nat.compare_eq_lt, Nat.compare_eq_eq, Nat.compare_eq_gt] at h h' ⊢ <;>
      first | omega | (split <;> omega)
  · exact (roundQuotient_le num den).trans (Nat.le_trans hlt (le_roundQuotient num' den))

namespace Format

variable {f : Format}

theorem units_zero (f : Format) : f.units 0 = 0 := by
  rw [units, Nat.zero_sub, Nat.zero_mul]

theorem roundWord_mono (f : Format) {num num' : Nat} (den : Nat) (h : num ≤ num') :
    f.roundWord num den ≤ f.roundWord num' den := by
  have hquotient : num / den ≤ num' / den := Nat.div_le_div_right h
  generalize hs : (num / den).log2 - f.fractionBits = s
  generalize hs' : (num' / den).log2 - f.fractionBits = s'
  have hshift : s ≤ s' := by
    rw [← hs, ← hs', Nat.log2_eq_log_two, Nat.log2_eq_log_two]
    exact Nat.sub_le_sub_right (Nat.log_mono_right hquotient) _
  rw [roundWord, roundWord, hs, hs']
  refine min_le_min_right _ ?_
  rcases hshift.eq_or_lt with rfl | hlt
  · exact Nat.add_le_add_left (roundQuotient_mono _ h) _
  · -- the two mantissas lie on both sides of a power of two
    have hlow : roundQuotient num (den * 2 ^ s) ≤ 2 * 2 ^ f.fractionBits := by
      refine (roundQuotient_le num (den * 2 ^ s)).trans ?_
      rw [← Nat.div_div_eq_div_mul, Nat.succ_le_iff, Nat.div_lt_iff_lt_mul (Nat.two_pow_pos s), ← Nat.pow_succ',
        ← Nat.pow_add]
      exact Nat.lt_log2_self.trans_le (Nat.pow_le_pow_right Nat.two_pos (by omega))
    have hhigh : 2 ^ f.fractionBits ≤ roundQuotient num' (den * 2 ^ s') := by
      refine le_trans ?_ (le_roundQuotient num' (den * 2 ^ s'))
      have hlog : f.fractionBits + s' = (num' / den).log2 := by omega
      have hpos : num' / den ≠ 0 := by
        intro hzero
        rw [hzero, Nat.log2_zero] at hlog
        omega
      rw [← Nat.div_div_eq_div_mul, Nat.le_div_iff_mul_le (Nat.two_pow_pos s'), ← Nat.pow_add, hlog]
      exact Nat.log2_self_le hpos
    have hstep : (s + 1) * 2 ^ f.fractionBits ≤ s' * 2 ^ f.fractionBits := Nat.mul_le_mul_right _ hlt
    rw [Nat.succ_mul] at hstep
    omega

/-- What a word stands for is rounded to the word. -/
theorem roundWord_units {word den : Nat} (hword : word ≤ f.infinityWord) (hden : 0 < den) :
    f.roundWord (f.units word * den) den = word := by
  obtain ⟨shift, mantissa, hparts, rfl⟩ := f.exists_parts word
  rw [hparts.units_eq]
  exact hparts.roundWord_units hword hden

end Format

namespace Binary

variable {f : Format} {x y z : Binary f}

/-! ### Finite numbers -/

theorem magnitude?_infinity (negative : Bool) : (infinity negative : Binary f).magnitude? = none :=
  if_neg (Nat.lt_irrefl _)

theorem not_isFinite_infinity (negative : Bool) : (infinity negative : Binary f).isFinite = false := by
  rw [isFinite, magnitude?_infinity]
  rfl

theorem ofUnits_zero (negative : Bool) {den : Nat} (hden : 0 < den) :
    (ofUnits negative 0 den : Binary f) = zero negative := by
  rw [ofUnits, zero]
  congr 1
  exact Fin.ext (f.roundWord_zero hden)

theorem exists_magnitude? (h : x.isFinite = true) : ∃ a, x.magnitude? = some a := Option.isSome_iff_exists.mp h

theorem isFinite_ofUnits_iff {negative : Bool} {num den : Nat} :
    (ofUnits negative num den : Binary f).isFinite = true ↔ f.roundWord num den < f.infinityWord := by
  unfold isFinite ofUnits magnitude?
  dsimp only
  split <;> simp_all

theorem convert_of_magnitude? {a : Nat} (ha : x.magnitude? = some a) (g : Format) :
    ∃ negative, x.convert g = ofUnits negative (a * 2 ^ g.scale) (2 ^ f.scale) := by
  cases x with
  | nan => cases ha
  | signed s v =>
    simp only [convert, ha]
    exact ⟨s, rfl⟩

/-- Both factors of a finite product are finite. -/
theorem isFinite_of_mul (h : (x * y).isFinite = true) : x.isFinite = true ∧ y.isFinite = true := by
  cases x with
  | nan => cases h
  | signed s v =>
    cases y with
    | nan => cases h
    | signed t w =>
      rw [isFinite, isFinite]
      change (Binary.mul _ _).isFinite = true at h
      unfold Binary.mul at h
      dsimp only at h
      split at h
      case h_1 a b ha hb => exact ⟨Option.isSome_of_eq_some ha, Option.isSome_of_eq_some hb⟩
      case h_2 =>
        split at h
        · cases h
        · rw [not_isFinite_infinity] at h
          cases h

theorem isFinite_of_div (h : (x / y).isFinite = true) : x.isFinite = true := by
  cases x with
  | nan => cases h
  | signed s v =>
    cases y with
    | nan => cases h
    | signed t w =>
      rw [isFinite]
      change (Binary.div _ _).isFinite = true at h
      unfold Binary.div at h
      dsimp only at h
      split at h
      case h_1 a b ha hb => exact Option.isSome_of_eq_some ha
      case h_2 a ha hb => exact Option.isSome_of_eq_some ha
      case h_3 =>
        rw [not_isFinite_infinity] at h
        cases h
      case h_4 => cases h

theorem exists_magnitude?_pos (hfinite : x.isFinite = true) (h : x.isZero = false) : ∃ a ∈ x.magnitude?, 0 < a := by
  obtain ⟨a, ha⟩ := exists_magnitude? hfinite
  cases x with
  | nan => cases ha
  | signed s v =>
    have hword : 0 < v.val := Nat.pos_of_ne_zero (of_decide_eq_false h)
    have hunits := f.units_strictMono hword
    rw [f.units_zero, Option.some.inj (Option.ite_none_right_eq_some.mp ha).2] at hunits
    exact ⟨a, ha, hunits⟩

theorem div_of_not_isFinite (hx : x.isFinite = true) (hy : y.isFinite = false) (hnumber : y.isNaN = false) :
    ∃ negative, x / y = zero negative := by
  obtain ⟨a, ha⟩ := exists_magnitude? hx
  cases x with
  | nan => cases ha
  | signed s v =>
    cases y with
    | nan => cases hnumber
    | signed t w =>
      change ∃ negative, Binary.div _ _ = _
      simp only [Binary.div, ha, Option.isNone_iff_eq_none.mp (Option.isSome_eq_false_iff.mp hy)]
      exact ⟨_, rfl⟩

/-! ### Magnitudes in order -/

/-- Two finite numbers, the magnitude of the first no larger than that of the second. -/
def AtMost (x y : Binary f) : Prop := ∃ a ∈ x.magnitude?, ∃ b ∈ y.magnitude?, a ≤ b

instance (x y : Binary f) : Decidable (x.AtMost y) :=
  inferInstanceAs (Decidable (∃ a ∈ x.magnitude?, ∃ b ∈ y.magnitude?, a ≤ b))

theorem AtMost.isFinite_left (h : x.AtMost y) : x.isFinite = true := by
  obtain ⟨a, ha, -⟩ := h
  exact Option.isSome_of_mem ha

theorem atMost_of_word {negative negative' : Bool} {v w : Fin (f.infinityWord + 1)} (h : v ≤ w)
    (hfinite : w.val < f.infinityWord) : (signed negative v : Binary f).AtMost (signed negative' w) :=
  ⟨_, if_pos (lt_of_le_of_lt (Fin.le_def.mp h) hfinite), _, if_pos hfinite,
    f.units_strictMono.monotone (Fin.le_def.mp h)⟩

/-- A quotient of a smaller dividend. -/
theorem atMost_ofUnits {negative negative' : Bool} {num num' den : Nat} (h : num ≤ num')
    (hfinite : (ofUnits negative' num' den : Binary f).isFinite = true) :
    (ofUnits negative num den : Binary f).AtMost (ofUnits negative' num' den) :=
  atMost_of_word (Fin.le_def.mpr (f.roundWord_mono den h)) (isFinite_ofUnits_iff.mp hfinite)

/-- A quotient that is no larger than a number is rounded to one that is not either. -/
theorem ofUnits_atMost {negative : Bool} {num den b : Nat} (hden : 0 < den) (hb : y.magnitude? = some b)
    (h : num ≤ b * den) : (ofUnits negative num den : Binary f).AtMost y := by
  cases y with
  | nan => cases hb
  | signed t w =>
    rw [magnitude?] at hb
    split at hb
    case isTrue hw =>
      obtain rfl := Option.some.inj hb
      refine atMost_of_word (Fin.le_def.mpr ?_) hw
      exact (f.roundWord_mono den h).trans_eq (Format.roundWord_units (Nat.le_of_lt hw) hden)
    case isFalse => cases hb

theorem AtMost.mul (h : x.AtMost y) (hfinite : (y * z).isFinite = true) : (x * z).AtMost (y * z) := by
  obtain ⟨a, ha, b, hb, hab⟩ := h
  obtain ⟨c, hc⟩ := exists_magnitude? (isFinite_of_mul hfinite).2
  obtain ⟨s, hs⟩ := mul_of_magnitude? ha hc
  obtain ⟨t, ht⟩ := mul_of_magnitude? hb hc
  rw [ht] at hfinite ⊢
  rw [hs]
  exact atMost_ofUnits (Nat.mul_le_mul_right c hab) hfinite

theorem AtMost.div (h : x.AtMost y) (hz : ∃ c ∈ z.magnitude?, 0 < c) (hfinite : (y / z).isFinite = true) :
    (x / z).AtMost (y / z) := by
  obtain ⟨a, ha, b, hb, hab⟩ := h
  obtain ⟨c, hc, hpos⟩ := hz
  obtain ⟨s, hs⟩ := div_of_magnitude? ha hc hpos
  obtain ⟨t, ht⟩ := div_of_magnitude? hb hc hpos
  rw [ht] at hfinite ⊢
  rw [hs]
  exact atMost_ofUnits (Nat.mul_le_mul_right _ hab) hfinite

theorem atMost_ofNat {n k : Nat} (h : n ≤ k) (hfinite : (ofNat k : Binary f).isFinite = true) :
    (ofNat n : Binary f).AtMost (ofNat k) :=
  atMost_ofUnits (Nat.mul_le_mul_right _ h) hfinite

/-- A quotient of a dividend that is no larger than the divisor. -/
theorem AtMost.div_one (h : x.AtMost y) (hpos : ∃ b ∈ y.magnitude?, 0 < b) (hz : z.magnitude? = some (2 ^ f.scale)) :
    (x / y).AtMost z := by
  obtain ⟨a, ha, b, hb, hab⟩ := h
  obtain ⟨b', hb', hpos⟩ := hpos
  obtain rfl := Option.mem_unique hb hb'
  obtain ⟨s, hs⟩ := div_of_magnitude? ha hb hpos
  rw [hs]
  exact ofUnits_atMost hpos hz ((Nat.mul_le_mul_right _ hab).trans_eq (Nat.mul_comm _ _))

theorem AtMost.convert (h : x.AtMost y) (g : Format) (hfinite : (y.convert g).isFinite = true) :
    (x.convert g).AtMost (y.convert g) := by
  obtain ⟨a, ha, b, hb, hab⟩ := h
  obtain ⟨s, hs⟩ := convert_of_magnitude? ha g
  obtain ⟨t, ht⟩ := convert_of_magnitude? hb g
  rw [ht] at hfinite ⊢
  rw [hs]
  exact atMost_ofUnits (Nat.mul_le_mul_right _ hab) hfinite

theorem AtMost.le (h : x.AtMost y) (hy : y.isNegative = false) : -y ≤ x ∧ x ≤ y := by
  obtain ⟨a, ha, b, hb, hab⟩ := h
  cases x with
  | nan => cases ha
  | signed s v =>
    cases y with
    | nan => cases hb
    | signed t w =>
      obtain rfl : t = false := hy
      simp only [magnitude?, Option.mem_def, Option.ite_none_right_eq_some, Option.some.injEq] at ha hb
      obtain ⟨-, rfl⟩ := ha
      obtain ⟨-, rfl⟩ := hb
      have hword : v.val ≤ w.val := f.units_strictMono.le_iff_le.mp hab
      change Binary.le (signed true w) _ = true ∧ Binary.le _ _ = true
      cases s <;> simp [Binary.le, rank?] <;> omega

/-! ### Numbers without a minus sign -/

/-- A product has the sign of its factors, unless it is not a number. -/
theorem isNegative_mul_cases (x y : Binary f) :
    (x * y).isNegative = false ∨ (x * y).isNegative = (x.isNegative != y.isNegative) := by
  cases x with
  | nan => exact .inl rfl
  | signed s v =>
    cases y with
    | nan => exact .inl rfl
    | signed t w =>
      change (Binary.mul _ _).isNegative = false ∨ (Binary.mul _ _).isNegative = (s != t)
      unfold Binary.mul
      dsimp only
      split
      · exact .inr rfl
      · split
        · exact .inl rfl
        · exact .inr rfl

theorem isNegative_mul (hx : x.isNegative = false) (hy : y.isNegative = false) : (x * y).isNegative = false := by
  rcases isNegative_mul_cases x y with h | h
  · exact h
  · rw [h, hx, hy]
    rfl

theorem isNegative_mul_self (x : Binary f) : (x * x).isNegative = false := by
  rcases isNegative_mul_cases x x with h | h
  · exact h
  · rw [h, bne_self_eq_false]

theorem isNegative_div (hx : x.isNegative = false) (hy : y.isNegative = false) : (x / y).isNegative = false := by
  cases x with
  | nan => rfl
  | signed s v =>
    cases y with
    | nan => rfl
    | signed t w =>
      obtain rfl : s = false := hx
      obtain rfl : t = false := hy
      change (Binary.div _ _).isNegative = false
      unfold Binary.div
      dsimp only
      split
      · split
        · split <;> rfl
        · rfl
      all_goals rfl

theorem isNegative_convert {g : Format} (hx : x.isNegative = false) : (x.convert g).isNegative = false := by
  cases x with
  | nan => rfl
  | signed s v =>
    obtain rfl : s = false := hx
    unfold convert
    dsimp only
    split <;> rfl

theorem rank?_zero : (0 : Binary f).rank? = some 0 := by
  change (ofNat 0 : Binary f).rank? = _
  rw [ofNat_zero]
  rfl

theorem isNegative_of_pos (h : 0 < x) : x.isNegative = false := by
  cases x with
  | nan => rfl
  | signed s v =>
    cases s with
    | false => rfl
    | true =>
      change Binary.lt _ _ = true at h
      rw [Binary.lt, rank?_zero] at h
      simp only [rank?, if_true, decide_eq_true_eq] at h
      omega

theorem atMost_of_le (hx : x.isNegative = false) (h : x ≤ y) (hy : y.isFinite = true) : x.AtMost y := by
  cases x with
  | nan => cases h
  | signed s v =>
    obtain rfl : s = false := hx
    cases y with
    | nan => cases h
    | signed t w =>
      change Binary.le _ _ = true at h
      have hword : v ≤ w := by
        cases t <;> simp [Binary.le, rank?] at h <;> rw [Fin.le_def] <;> omega
      refine atMost_of_word hword ?_
      obtain ⟨b, hb⟩ := exists_magnitude? hy
      rw [magnitude?] at hb
      exact (Option.ite_none_right_eq_some.mp hb).1

theorem nonneg_of_isNegative (hx : x.isNegative = false) (hfinite : x.isFinite = true) : 0 ≤ x := by
  cases x with
  | nan => cases hfinite
  | signed s v =>
    obtain rfl : s = false := hx
    change Binary.le _ _ = true
    rw [Binary.le, rank?_zero]
    simp [rank?]

section

variable {a b : Nat} (hx : x.isNegative = false) (hy : y.isNegative = false) (ha : x.magnitude? = some a)
  (hb : y.magnitude? = some b)

include hx hy ha hb

theorem add_of_nonneg : x + y = ofUnits false (a + b) 1 := by
  cases x with
  | nan => cases ha
  | signed s v =>
    cases y with
    | nan => cases hb
    | signed t w =>
      obtain rfl : s = false := hx
      obtain rfl : t = false := hy
      change Binary.add _ _ = _
      simp only [Binary.add, ha, hb]
      split
      case isTrue hzero =>
        obtain ⟨rfl, rfl⟩ : a = 0 ∧ b = 0 := by
          change (a : Int) + (b : Int) = 0 at hzero
          omega
        exact (ofUnits_zero false Nat.one_pos).symm
      case isFalse => rfl

theorem sub_of_nonneg : x - y = ofUnits (decide (a < b)) (a - b + (b - a)) 1 := by
  cases x with
  | nan => cases ha
  | signed s v =>
    cases y with
    | nan => cases hb
    | signed t w =>
      obtain rfl : s = false := hx
      obtain rfl : t = false := hy
      have hb' : (signed (!false) w : Binary f).magnitude? = some b := hb
      change Binary.add (signed false v) (signed (!false) w) = _
      simp only [Binary.add, ha, hb']
      split
      case isTrue hzero =>
        obtain rfl : a = b := by
          change (a : Int) + -(b : Int) = 0 at hzero
          omega
        rw [decide_eq_false (Nat.lt_irrefl a), Nat.sub_self]
        exact (ofUnits_zero false Nat.one_pos).symm
      case isFalse =>
        change ofUnits (decide ((a : Int) + -(b : Int) < 0)) ((a : Int) + -(b : Int)).natAbs 1 = _
        congr 1
        · exact decide_eq_decide.mpr (by omega)
        · omega

/-- The difference is no larger than the larger number. -/
theorem sub_atMost_of_le (hle : b ≤ a) : (x - y).AtMost x ∧ (x - y).isNegative = false := by
  rw [sub_of_nonneg hx hy ha hb, decide_eq_false (Nat.not_lt.mpr hle)]
  exact ⟨ofUnits_atMost Nat.one_pos ha (by omega), rfl⟩

end

end Binary

end SurfaceWater
