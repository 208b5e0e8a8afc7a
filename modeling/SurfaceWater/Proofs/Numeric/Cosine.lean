import Mathlib.Algebra.Order.Floor.Semifield
import Mathlib.Analysis.Real.Pi.Bounds
import Mathlib.Analysis.SpecialFunctions.Trigonometric.Bounds
import Mathlib.Analysis.SpecialFunctions.Trigonometric.Series
import Mathlib.Analysis.SpecificLimits.Normed
import SurfaceWater.Ephemeris
import SurfaceWater.Proofs.Numeric.Monotone

/-!
# The cosine of an acute angle

The power series in fixed point against the cosine of real numbers. Every term is cut off to a whole number of units,
and an error in one term is at most doubled in the next, so that after 64 terms the errors together stay below
`2 ^ 102` units out of `2 ^ 384`. The right angle in double precision is less than the real one by `6e-17`. Its cosine
is far larger than all these errors, so that no angle up to it has a negative cosine.
-/

namespace SurfaceWater

namespace FixedPoint

/-! ### The power series -/

/-- A term of the power series of the cosine of `√y`, without its sign. -/
noncomputable def cosineTerm (y : ℝ) (k : ℕ) : ℝ := y ^ k / (2 * k).factorial

theorem cosineTerm_nonneg {y : ℝ} (hy : 0 ≤ y) (k : ℕ) : 0 ≤ cosineTerm y k :=
  div_nonneg (pow_nonneg hy k) (Nat.cast_nonneg _)

theorem cosineTerm_succ (y : ℝ) (k : ℕ) : cosineTerm y (k + 1) = cosineTerm y k * y / ((2 * k + 1) * (2 * k + 2)) := by
  have hfactorial : (2 * (k + 1)).factorial = (2 * k + 1) * (2 * k + 2) * (2 * k).factorial := by
    rw [Nat.mul_succ, Nat.factorial_succ, Nat.factorial_succ]
    ring
  have hpos : ((2 * k).factorial : ℝ) ≠ 0 := Nat.cast_ne_zero.mpr (Nat.factorial_ne_zero _)
  rw [cosineTerm, cosineTerm, hfactorial]
  push_cast
  field_simp
  ring

/-- From the second term on the terms of a small square become smaller. -/
theorem cosineTerm_antitone {y : ℝ} (hy : 0 ≤ y) (hle : y ≤ 12) : Antitone fun k => cosineTerm y (k + 1) := by
  refine antitone_nat_of_succ_le fun k => ?_
  have hden : (12 : ℝ) ≤ (2 * ((k + 1 : ℕ) : ℝ) + 1) * (2 * ((k + 1 : ℕ) : ℝ) + 2) := by
    have hk : (0 : ℝ) ≤ k := Nat.cast_nonneg k
    push_cast
    nlinarith only [hk]
  rw [cosineTerm_succ y (k + 1), div_le_iff₀ (by linarith only [hden])]
  exact mul_le_mul_of_nonneg_left (hle.trans hden) (cosineTerm_nonneg hy _)

theorem hasSum_cosineTerm {y : ℝ} (hy : 0 ≤ y) : HasSum (fun k => (-1) ^ k * cosineTerm y k) (Real.cos √y) := by
  have hterm : (fun k : ℕ => (-1) ^ k * cosineTerm y k) =
      fun k : ℕ => (-1) ^ k * √y ^ (2 * k) / ((2 * k).factorial : ℝ) := by
    funext k
    rw [cosineTerm, pow_mul, Real.sq_sqrt hy, mul_div_assoc]
  rw [hterm]
  exact Real.hasSum_cos √y

/-- An even number of terms misses no more than the next one. -/
theorem cos_sub_le_sum {y : ℝ} (hy : 0 ≤ y) (hle : y ≤ 12) (n : ℕ) :
    Real.cos √y - cosineTerm y (2 * n) ≤ ∑ k ∈ Finset.range (2 * n), (-1) ^ k * cosineTerm y k := by
  -- the first term is left out, because the second one may be larger
  have hsplit (m : ℕ) : ∑ k ∈ Finset.range m, (-1) ^ k * cosineTerm y (k + 1) =
      1 - ∑ k ∈ Finset.range (m + 1), (-1) ^ k * cosineTerm y k := by
    have hone : cosineTerm y 0 = 1 := by simp [cosineTerm]
    rw [Finset.sum_range_succ', hone, pow_zero, one_mul, sub_add_cancel_right, ← Finset.sum_neg_distrib]
    refine Finset.sum_congr rfl fun k _ => ?_
    ring
  have htendsto : Filter.Tendsto (fun m => ∑ k ∈ Finset.range m, (-1) ^ k * cosineTerm y (k + 1)) Filter.atTop
      (nhds (1 - Real.cos √y)) := by
    simp only [hsplit]
    exact ((hasSum_cosineTerm hy).tendsto_sum_nat.comp (Filter.tendsto_add_atTop_nat 1)).const_sub 1
  have hbound := (cosineTerm_antitone hy hle).alternating_series_le_tendsto htendsto n
  rw [hsplit, Finset.sum_range_succ, pow_mul, neg_one_sq, one_pow, one_mul] at hbound
  linarith only [hbound]

/-! ### Its evaluation -/

/-- How many units of the evaluation there are to one. -/
noncomputable def unit : ℝ := 2 ^ seriesPlaces

theorem unit_pos : 0 < unit := pow_pos two_pos _

theorem abs_floor_sub_le {z : ℝ} (hz : 0 ≤ z) : |(⌊z⌋₊ : ℝ) - z| ≤ 1 := by
  have hlow := Nat.lt_floor_add_one z
  have hhigh := Nat.floor_le hz
  rw [abs_le]
  constructor <;> linarith

section

variable {square : ℕ} {y : ℝ} (hy : y = square / unit) (hle : y ≤ 4) {index term : ℕ} {error : ℝ}
  (hterm : |term - unit * cosineTerm y index| ≤ error)

include hy hle hterm

/-- The next term doubles the error of a term at most, and is cut off by less than one unit. -/
theorem abs_next_sub_le :
    |((term * square / 2 ^ seriesPlaces / ((2 * index + 1) * (2 * index + 2)) : ℕ) : ℝ) -
      unit * cosineTerm y (index + 1)| ≤ 2 * error + 1 := by
  have hpos : 0 ≤ y := hy ▸ div_nonneg (Nat.cast_nonneg _) unit_pos.le
  have hindex : (0 : ℝ) ≤ index := Nat.cast_nonneg index
  obtain ⟨m, hm⟩ : ∃ m : ℝ, m = (2 * index + 1) * (2 * index + 2) := ⟨_, rfl⟩
  have hmpos : 2 ≤ m := by nlinarith only [hm, hindex]
  have hfloor : term * square / 2 ^ seriesPlaces / ((2 * index + 1) * (2 * index + 2)) = ⌊term * y / m⌋₊ := by
    rw [Nat.div_div_eq_div_mul, ← Nat.floor_div_eq_div (K := ℝ), hy, hm, unit]
    congr 1
    push_cast
    rw [mul_div_assoc', div_div]
  have hratio : y / m ≤ 2 := (div_le_iff₀ (by linarith only [hmpos])).mpr (by linarith only [hle, hmpos])
  have hnonneg : 0 ≤ y / m := div_nonneg hpos (by linarith only [hmpos])
  have hdouble : |term * y / m - unit * cosineTerm y (index + 1)| ≤ error * 2 := by
    have hdiff : term * y / m - unit * cosineTerm y (index + 1) = (term - unit * cosineTerm y index) * (y / m) := by
      rw [cosineTerm_succ, ← hm]
      ring
    rw [hdiff, abs_mul, abs_of_nonneg hnonneg]
    exact mul_le_mul hterm hratio hnonneg ((abs_nonneg _).trans hterm)
  have hcut := abs_floor_sub_le (mul_div_assoc (term : ℝ) y m ▸ mul_nonneg (Nat.cast_nonneg term) hnonneg)
  rw [hfloor]
  exact (abs_sub_le _ _ _).trans ((add_le_add hcut hdouble).trans_eq (by ring))

/-- The error after `fuel` terms, given the error of the current one. -/
theorem abs_cosineSeries_sub_le (fuel : ℕ) (sum : ℤ) :
    |cosineSeries square fuel index term sum -
      (sum + ∑ k ∈ Finset.range fuel, (-1) ^ (index + k) * (unit * cosineTerm y (index + k)))| ≤
      3 ^ fuel * (error + 1) := by
  -- the errors of the terms are `e`, `2 e + 1`, and so on, and three times `e + 1` covers a term and what follows it
  induction fuel generalizing index term sum error with
  | zero =>
    have herror := (abs_nonneg _).trans hterm
    rw [cosineSeries, Finset.sum_range_zero, add_zero, sub_self, abs_zero]
    linarith only [herror]
  | succ fuel ih =>
    have hrest := ih (abs_next_sub_le hy hle hterm) (if index % 2 = 0 then sum + term else sum - term)
    have hsum : ((if index % 2 = 0 then sum + term else sum - term : ℤ) : ℝ) = sum + (-1) ^ index * term := by
      split
      case isTrue heven =>
        rw [(Nat.even_iff.mpr heven).neg_one_pow, one_mul]
        push_cast
        rfl
      case isFalse hodd =>
        rw [(Nat.odd_iff.mpr (Nat.mod_two_ne_zero.mp hodd)).neg_one_pow, neg_one_mul]
        push_cast
        exact sub_eq_add_neg _ _
    have hfirst : |(-1) ^ index * (term - unit * cosineTerm y index)| ≤ error := by
      rwa [abs_mul, abs_neg_one_pow, one_mul]
    have hpower : error ≤ 3 ^ fuel * (error + 1) := by
      have hone : (1 : ℝ) ≤ 3 ^ fuel := one_le_pow₀ (by norm_num)
      nlinarith only [hone, (abs_nonneg _).trans hterm]
    rw [hsum] at hrest
    simp only [Nat.add_assoc, Nat.add_comm 1] at hrest
    rw [cosineSeries, Finset.sum_range_succ']
    calc _ ≤ _ := abs_sub_le _ (sum + (-1) ^ index * term +
            ∑ k ∈ Finset.range fuel, (-1) ^ (index + (k + 1)) * (unit * cosineTerm y (index + (k + 1)))) _
      _ ≤ 3 ^ fuel * (2 * error + 1 + 1) + error := by
        refine add_le_add hrest (le_of_eq_of_le (congrArg _ ?_) hfirst)
        rw [Nat.add_zero]
        ring
      _ ≤ 3 ^ (fuel + 1) * (error + 1) := by
        rw [pow_succ]
        linarith only [hpower]

end

/-- The square that the series is given is no larger than that of the angle. -/
theorem square_le {angle x : ℕ} {θ y : ℝ} (hθ : θ = angle / 2 ^ places) (hx : x = angle / 2 ^ (places - seriesPlaces))
    (hy : y = (x * x / 2 ^ seriesPlaces : ℕ) / unit) : y ≤ θ ^ 2 := by
  have hplaces : (2 : ℝ) ^ places = 2 ^ (places - seriesPlaces) * unit := by
    rw [unit, ← pow_add]
    rfl
  have hxle : (x : ℝ) ≤ θ * unit := by
    calc (x : ℝ) ≤ angle / (2 ^ (places - seriesPlaces) : ℕ) := hx ▸ Nat.cast_div_le
      _ = θ * unit := by
        rw [hθ, hplaces, Nat.cast_pow, Nat.cast_ofNat, div_mul_eq_mul_div, mul_div_mul_right _ _ unit_pos.ne']
  have hxnonneg : (0 : ℝ) ≤ x := Nat.cast_nonneg x
  calc y ≤ (x * x : ℕ) / (2 ^ seriesPlaces : ℕ) / unit := hy ▸ div_le_div_of_nonneg_right Nat.cast_div_le unit_pos.le
    _ = x * x / (unit * unit) := by rw [Nat.cast_mul, Nat.cast_pow, Nat.cast_ofNat, ← unit, div_div]
    _ ≤ θ * unit * (θ * unit) / (unit * unit) :=
      div_le_div_of_nonneg_right (mul_le_mul hxle hxle hxnonneg (hxnonneg.trans hxle)) (mul_pos unit_pos unit_pos).le
    _ = θ ^ 2 := by rw [mul_mul_mul_comm, mul_div_cancel_right₀ _ (mul_pos unit_pos unit_pos).ne', sq]

/-- After 64 terms the next one is less than a unit. -/
theorem unit_mul_cosineTerm_le {y : ℝ} (hy : 0 ≤ y) (hle : y ≤ 4) : unit * cosineTerm y 64 ≤ 1 := by
  have hnat : 2 ^ seriesPlaces * 4 ^ 64 ≤ (2 * 64).factorial := by decide +kernel
  have hfactorial : ((2 ^ seriesPlaces * 4 ^ 64 : ℕ) : ℝ) ≤ (2 * 64).factorial := Nat.cast_le.mpr hnat
  rw [Nat.cast_mul, Nat.cast_pow, Nat.cast_pow, Nat.cast_ofNat, Nat.cast_ofNat, ← unit] at hfactorial
  rw [cosineTerm, mul_div_assoc', div_le_one (Nat.cast_pos.mpr (Nat.factorial_pos _))]
  exact (mul_le_mul_of_nonneg_left (pow_le_pow_left₀ hy hle 64) unit_pos.le).trans hfactorial

/-- The cosine of an angle is evaluated at most `2 ^ -282` too small. -/
theorem le_cosineOfAcute {angle : ℕ} {θ : ℝ} (hθ : θ = angle / 2 ^ places) (hangle : θ ≤ 2) :
    unit * Real.cos θ - 2 ^ 102 ≤ cosineOfAcute angle := by
  obtain ⟨x, hx⟩ : ∃ x, x = angle / 2 ^ (places - seriesPlaces) := ⟨_, rfl⟩
  obtain ⟨y, hy⟩ : ∃ y : ℝ, y = (x * x / 2 ^ seriesPlaces : ℕ) / unit := ⟨_, rfl⟩
  have hnonneg : 0 ≤ θ := hθ ▸ div_nonneg (Nat.cast_nonneg _) (pow_pos two_pos _).le
  have hsquare := square_le hθ hx hy
  have hpos : 0 ≤ y := hy ▸ div_nonneg (Nat.cast_nonneg _) unit_pos.le
  have hle : y ≤ 4 := hsquare.trans (by nlinarith only [hnonneg, hangle])
  have hcos : Real.cos θ ≤ Real.cos √y :=
    Real.cos_le_cos_of_nonneg_of_le_pi (Real.sqrt_nonneg y) (hangle.trans (by linarith only [Real.pi_gt_three]))
      ((Real.sqrt_le_left hnonneg).mpr hsquare)
  have hlower : unit * Real.cos θ - 1 ≤ unit * ∑ k ∈ Finset.range 64, (-1) ^ k * cosineTerm y k := by
    have hseries := cos_sub_le_sum hpos (hle.trans (by norm_num)) 32
    have hscaled := mul_le_mul_of_nonneg_left ((sub_le_sub_right hcos _).trans hseries) unit_pos.le
    rw [mul_sub] at hscaled
    linarith only [hscaled, unit_mul_cosineTerm_le hpos hle]
  have hfirst : |((2 ^ seriesPlaces : ℕ) : ℝ) - unit * cosineTerm y 0| ≤ 0 := by simp [unit, cosineTerm]
  have herror := abs_cosineSeries_sub_le hy hle hfirst 64 0
  simp only [mul_left_comm _ unit, ← Finset.mul_sum, Int.cast_zero, zero_add, mul_one] at herror
  have hbelow := (abs_le.mp herror).1
  have hbudget : (3 : ℝ) ^ 64 + 1 ≤ 2 ^ 102 := by norm_num
  rw [cosineOfAcute, ← hx]
  linarith only [hlower, hbelow, hbudget]

/-! ### Angles up to a right angle -/

/-- The right angle in double precision, `884279719003555 / 2 ^ 49`. -/
def rightAngle : ℕ := 884279719003555 * 2 ^ (places - 49)

theorem le_cos {θ : ℝ} (hθ : 0 ≤ θ) (hle : θ ≤ 884279719003555 / 2 ^ 49) : 1 / 2 ^ 57 ≤ Real.cos θ := by
  have hpi := Real.pi_gt_d20
  have hfour := Real.pi_le_four
  norm_num at hle
  have hratio : 2 / Real.pi * θ ≤ 1 - 1 / 2 ^ 57 := by
    rw [div_mul_eq_mul_div, div_le_iff₀ Real.pi_pos]
    norm_num
    linarith only [hle, hpi, hfour]
  have hhalf : θ ≤ Real.pi / 2 := by linarith only [hle, hpi]
  linarith only [hratio, Real.one_sub_mul_le_cos hθ hhalf]

section

variable {angle : ℕ} (hangle : angle ≤ rightAngle)

include hangle

/-- An angle up to the right angle needs no reduction. -/
theorem cosine_eq : cosine angle = cosineOfAcute angle := by
  have hright : 2 * rightAngle ≤ pi := by decide +kernel
  have hpos : 0 < pi := by decide +kernel
  have hturn : angle % (2 * pi) = angle := Nat.mod_eq_of_lt (by omega)
  rw [cosine, hturn, if_neg (show ¬ pi < angle by omega), if_neg (by omega)]

theorem angle_le : (angle : ℝ) / 2 ^ places ≤ 884279719003555 / 2 ^ 49 := by
  have hplaces : (2 : ℝ) ^ places = 2 ^ (places - 49) * 2 ^ 49 := by
    rw [← pow_add]
    rfl
  have hcast := Nat.cast_le (α := ℝ).mpr hangle
  rw [rightAngle, Nat.cast_mul, Nat.cast_pow, Nat.cast_ofNat, Nat.cast_ofNat] at hcast
  rw [hplaces, div_mul_eq_div_div]
  exact div_le_div_of_nonneg_right ((div_le_iff₀ (by positivity)).mpr hcast) (by positivity)

theorem cosine_nonneg : 0 ≤ cosine angle := by
  obtain ⟨θ, hθ⟩ : ∃ θ : ℝ, θ = angle / 2 ^ places := ⟨_, rfl⟩
  have hle := hθ ▸ angle_le hangle
  have hnonneg : 0 ≤ θ := hθ ▸ div_nonneg (Nat.cast_nonneg _) (pow_pos two_pos _).le
  have hbound := le_cosineOfAcute hθ (hle.trans (by norm_num))
  have hcos : (2 : ℝ) ^ 102 ≤ unit * Real.cos θ := by
    have hunit : unit = 2 ^ 327 * 2 ^ 57 := by
      rw [unit, ← pow_add]
      rfl
    calc (2 : ℝ) ^ 102 ≤ 2 ^ 327 := pow_le_pow_right₀ one_le_two (by norm_num)
      _ = unit * (1 / 2 ^ 57) := by rw [hunit, mul_one_div, mul_div_cancel_right₀ _ (by positivity)]
      _ ≤ unit * Real.cos θ := mul_le_mul_of_nonneg_left (le_cos hnonneg hle) unit_pos.le
  rw [cosine_eq hangle]
  exact Int.cast_nonneg_iff.mp ((sub_nonneg.mpr hcos).trans hbound)

end

end FixedPoint

namespace Binary

/-- An angle up to the right angle has no negative cosine. -/
theorem isNegative_cos {x : Binary64} (hx : x.AtMost (Binary64.radians 90.0)) : x.cos.isNegative = false := by
  obtain ⟨a, ha, b, hb, hab⟩ := hx
  have hright : (Binary64.radians 90.0).magnitude? = some (884279719003555 * 2 ^ (Format.double.scale - 49)) := by
    decide +kernel
  rw [hright] at hb
  obtain rfl := Option.some.inj hb
  have hcosine : 0 ≤ FixedPoint.cosine (a * 2 ^ FixedPoint.places / 2 ^ Format.double.scale) := by
    refine FixedPoint.cosine_nonneg (Nat.div_le_of_le_mul ?_)
    have hpower : 2 ^ (Format.double.scale - 49) * 2 ^ FixedPoint.places =
        2 ^ Format.double.scale * 2 ^ (FixedPoint.places - 49) := by
      rw [← Nat.pow_add, ← Nat.pow_add]
      exact congrArg (2 ^ ·) (by decide)
    calc a * 2 ^ FixedPoint.places
        ≤ 884279719003555 * 2 ^ (Format.double.scale - 49) * 2 ^ FixedPoint.places := Nat.mul_le_mul_right _ hab
      _ = 2 ^ Format.double.scale * FixedPoint.rightAngle := by
        rw [Nat.mul_assoc, hpower, Nat.mul_left_comm, FixedPoint.rightAngle]
  simp only [cos, Option.mem_def.mp ha, decide_eq_false (not_lt.mpr hcosine)]
  rfl

end Binary

end SurfaceWater
