import SurfaceWater.Ephemeris
import SurfaceWater.Proofs.Instant
import SurfaceWater.Proofs.Numeric.Magnitude

/-!
# The distance of the Sun

The distance of the Sun is a finite number for every instant that a timestamp can state. A timestamp has few digits,
so that the day number, the anomaly and everything in between stay far below the largest double. The cosine
is computed in whole numbers that have no largest one; its power series has a fixed number of terms, and no
term is more than sixteen times the one before.
-/

namespace SurfaceWater

/-! ### The cosine -/

namespace FixedPoint

theorem pi_lt : pi < 2 ^ (places + 2) := by decide +kernel

/-- What the power series adds to a sum. -/
theorem natAbs_cosineSeries_le {square : Nat} (hsquare : square ≤ 2 ^ (seriesPlaces + 4)) (fuel index term : Nat)
    (sum : Int) : (cosineSeries square fuel index term sum).natAbs ≤ sum.natAbs + term * 2 ^ (5 * fuel) := by
  -- sixteen times a term bounds the next one, so 32 for each term covers it and those after it
  induction fuel generalizing index term sum with
  | zero => exact Nat.le_add_right _ _
  | succ fuel ih =>
    have hnext : term * square / 2 ^ seriesPlaces / ((2 * index + 1) * (2 * index + 2)) ≤ 16 * term := by
      calc term * square / 2 ^ seriesPlaces / ((2 * index + 1) * (2 * index + 2))
          ≤ term * square / 2 ^ seriesPlaces := Nat.div_le_self _ _
        _ ≤ term * 2 ^ (seriesPlaces + 4) / 2 ^ seriesPlaces := Nat.div_le_div_right (Nat.mul_le_mul_left _ hsquare)
        _ = 16 * term := by
          rw [Nat.pow_add, Nat.mul_comm (2 ^ seriesPlaces), ← Nat.mul_assoc, Nat.mul_div_cancel _ (Nat.two_pow_pos _),
            Nat.mul_comm]
    have hsum : (if index % 2 = 0 then sum + term else sum - term).natAbs ≤ sum.natAbs + term := by split <;> omega
    have hpower : term ≤ term * 2 ^ (5 * fuel) := Nat.le_mul_of_pos_right _ (Nat.two_pow_pos _)
    have hrest := Nat.mul_le_mul_right (2 ^ (5 * fuel)) hnext
    rw [Nat.mul_assoc 16] at hrest
    rw [cosineSeries]
    calc _ ≤ _ := ih (index + 1) _ _
      _ ≤ sum.natAbs + term + 16 * (term * 2 ^ (5 * fuel)) := Nat.add_le_add hsum hrest
      _ ≤ sum.natAbs + term * 2 ^ (5 * (fuel + 1)) := by
        rw [Nat.mul_succ, Nat.pow_add, ← Nat.mul_assoc term]
        omega

theorem natAbs_cosineOfAcute_le {angle : Nat} (hangle : angle ≤ pi) :
    (cosineOfAcute angle).natAbs ≤ 2 ^ (seriesPlaces + 320) := by
  have hplaces : places - seriesPlaces + (seriesPlaces + 2) = places + 2 := rfl
  have hx : angle / 2 ^ (places - seriesPlaces) ≤ 2 ^ (seriesPlaces + 2) := by
    apply Nat.div_le_of_le_mul
    rw [← Nat.pow_add, hplaces]
    exact Nat.le_of_lt (hangle.trans_lt pi_lt)
  have hsquare : angle / 2 ^ (places - seriesPlaces) * (angle / 2 ^ (places - seriesPlaces)) / 2 ^ seriesPlaces ≤
      2 ^ (seriesPlaces + 4) := by
    apply Nat.div_le_of_le_mul
    calc _ ≤ 2 ^ (seriesPlaces + 2) * 2 ^ (seriesPlaces + 2) := Nat.mul_le_mul hx hx
      _ = 2 ^ seriesPlaces * 2 ^ (seriesPlaces + 4) := by
        rw [← Nat.pow_add, ← Nat.pow_add]
        exact congrArg (2 ^ ·) (by omega)
  rw [cosineOfAcute]
  calc _ ≤ (0 : Int).natAbs + 2 ^ seriesPlaces * 2 ^ (5 * 64) := natAbs_cosineSeries_le hsquare 64 0 _ 0
    _ = 2 ^ (seriesPlaces + 320) := by rw [Int.natAbs_zero, Nat.zero_add, Nat.pow_add]

theorem natAbs_cosine_le (angle : Nat) : (cosine angle).natAbs ≤ 2 ^ (seriesPlaces + 320) := by
  unfold cosine
  dsimp only
  generalize (if pi < angle % (2 * pi) then 2 * pi - angle % (2 * pi) else angle % (2 * pi)) = half
  split
  case isTrue =>
    rw [Int.natAbs_neg]
    exact natAbs_cosineOfAcute_le (Nat.sub_le _ _)
  case isFalse hhalf =>
    exact natAbs_cosineOfAcute_le ((Nat.le_mul_of_pos_left half Nat.two_pos).trans (Nat.le_of_not_lt hhalf))

end FixedPoint

namespace Binary

theorem below_cos {x : Binary64} (hx : x.isFinite = true) : x.cos.Below 322 := by
  obtain ⟨units, hunits⟩ := Option.isSome_iff_exists.mp hx
  simp only [cos, hunits]
  apply below_ofUnits _ (Nat.two_pow_pos _) _ (by decide)
  have hcosine := FixedPoint.natAbs_cosine_le (units * 2 ^ FixedPoint.places / 2 ^ Format.double.scale)
  refine (Nat.mul_le_mul_right _ hcosine).trans_lt ?_
  rw [← Nat.pow_add, ← Nat.pow_add]
  exact Nat.pow_lt_pow_right (by decide) (by omega)

end Binary

/-! ### Instants of timestamps -/

namespace Date

theorem daysInMonth_le (year month : Nat) : daysInMonth year month ≤ 31 := by
  unfold daysInMonth
  split
  case h_2 => split <;> decide
  all_goals decide

theorem daysBeforeMonth_le (year month : Nat) : daysBeforeMonth year month ≤ 31 * month := by
  induction month using daysBeforeMonth.induct with
  | case1 => exact Nat.le_refl _
  | case2 => exact Nat.zero_le _
  | case3 month ih =>
    have hstep := daysInMonth_le year (month + 1)
    rw [daysBeforeMonth]
    omega

end Date

namespace Instant

/-- No field has more digits than the layout of a timestamp gives it. -/
structure InLayout (t : Instant) : Prop where
  year : t.date.year < 10 ^ 4
  month : t.date.month < 10 ^ 2
  day : t.date.day < 10 ^ 2
  hour : t.hour < 10 ^ 2
  minute : t.minute < 10 ^ 2
  second : t.second < 10 ^ 2
  microsecond : t.microsecond < 10 ^ 6

theorem field_lt {text : List Char} {start width n : Nat} (h : field text start width = .ok n) : n < 10 ^ width := by
  unfold field at h
  dsimp only at h
  split at h
  case h_1 _ hdigits =>
    obtain rfl := Except.ok.inj h
    obtain ⟨-, hall, rfl⟩ := naturalOfDigits?_eq_some_iff.mp hdigits
    exact (digitsValue_lt hall).trans_le (Nat.pow_le_pow_right (by decide) (List.length_take_le _ _))
  case h_2 => cases h

theorem inLayout_of_ofLayout {text : List Char} {t : Instant} (h : ofLayout text = .ok t) : t.InLayout := by
  obtain ⟨-, -, ⟨hyear, hmonth, hday, hhour, hminute, hsecond, hfraction⟩, -, -⟩ := ofLayout_eq_ok_iff_checks.mp h
  exact ⟨field_lt hyear, field_lt hmonth, field_lt hday, field_lt hhour, field_lt hminute, field_lt hsecond,
    field_lt hfraction⟩

theorem natAbs_dayNumber_lt {t : Instant} (h : t.InLayout) : t.date.dayNumber.natAbs < 2 ^ 22 := by
  have hyear := h.year
  have hday := h.day
  have hmonth := h.month
  have hbefore := Date.daysBeforeMonth_le t.date.year t.date.month
  unfold Date.dayNumber
  dsimp only
  omega

/-- The Julian day stays below `2 ^ 37`. -/
theorem below_julianDay {t : Instant} (h : t.InLayout) : (t.julianDay Binary64).Below 37 := by
  have hsecond : (t.secondOfDay : Int).natAbs < 2 ^ 19 := by
    have := h.hour
    have := h.minute
    have := h.second
    rw [Int.natAbs_natCast, secondOfDay]
    omega
  have hnanosecond : (t.nanosecond : Int).natAbs < 2 ^ 30 := by
    have := h.microsecond
    rw [Int.natAbs_natCast, nanosecond]
    omega
  have hnano : (1e-9 : Binary64).Below 0 := by decide +kernel
  have hepoch : (1721424.5 : Binary64).Below 23 := by decide +kernel
  have hdayLength : ∃ units ∈ (86400.0 : Binary64).magnitude?, 2 ^ Format.double.scale ≤ units := by decide +kernel
  have hfraction := (Binary.below_intCast hnanosecond (by decide)).mul hnano (by decide)
  have hseconds := ((Binary.below_intCast hsecond (by decide)).mono (by decide)).add hfraction (by decide)
  have hwhole := (Binary.below_intCast (natAbs_dayNumber_lt h) (by decide)).add hepoch (by decide)
  have hday := (hwhole.mono (show _ ≤ 35 by decide)).add (hseconds.div hdayLength (by decide)) (by decide)
  -- the bound is put together before the definition is opened, so that no numeral is compared by its value
  rw [julianDay]
  exact hday

/-- The mean anomaly in radians stays below `2 ^ 43`. -/
theorem below_anomaly {days : Binary64} (hdays : days.Below 39) :
    (Binary64.radians (357.529 + 0.98560028 * days)).Below 43 := by
  have hepoch : (357.529 : Binary64).Below 40 := by decide +kernel
  have hrate : (0.98560028 : Binary64).Below 0 := by decide +kernel
  have hdegree : (Binary64.pi / 180.0).Below 0 := by decide +kernel
  have hturned := hrate.mul hdays (by decide)
  have hdegrees := hepoch.add hturned (by decide)
  have hradians := hdegrees.mul hdegree (by decide)
  rw [Binary64.radians]
  exact hradians

theorem isFinite_earthSunDistance {t : Instant} (h : t.InLayout) : t.earthSunDistance.isFinite = true := by
  have hepoch : (2451545.0 : Binary64).Below 37 := by decide +kernel
  have hanomaly := below_anomaly ((below_julianDay h).sub hepoch (by decide))
  rw [earthSunDistance]
  generalize Binary64.radians (357.529 + 0.98560028 * (t.julianDay Binary64 - 2451545.0)) = anomaly at hanomaly ⊢
  have hmean : (1.00014 : Binary64).Below 323 := by decide +kernel
  have hfirst : (0.01671 : Binary64).Below 0 := by decide +kernel
  have hsecond : (0.00014 : Binary64).Below 2 := by decide +kernel
  have htwo : (2.0 : Binary64).Below 2 := by decide +kernel
  have hdouble := htwo.mul hanomaly (by decide)
  have hnear := hfirst.mul (Binary.below_cos hanomaly.isFinite) (by decide)
  have hnext := hsecond.mul (Binary.below_cos hdouble.isFinite) (by decide)
  have hleft := hmean.sub hnear (by decide)
  exact (hleft.sub hnext (by decide)).isFinite

end Instant

end SurfaceWater
