import Mathlib.Data.List.Induction
import SurfaceWater.Instant
import SurfaceWater.Proofs.Except
import SurfaceWater.Proofs.Numeric.Numeral

/-!
# Dates and digits

Which days are on the calendar, which number a group of digits names, and what has to be so for a timestamp to be read.
Whatever else is known of timestamps is known from these.
-/

namespace SurfaceWater

/-! ### The calendar -/

namespace Date

/-- Every fourth year is a leap year, but of the years that end a century only every fourth. -/
def IsLeap (year : Nat) : Prop := 4 ∣ year ∧ (100 ∣ year → 400 ∣ year)

/-- A day of the Gregorian calendar. -/
def OnCalendar (d : Date) : Prop :=
  1 ≤ d.day ∧
    (d.month ∈ [1, 3, 5, 7, 8, 10, 12] ∧ d.day ≤ 31 ∨ d.month ∈ [4, 6, 9, 11] ∧ d.day ≤ 30 ∨
      d.month = 2 ∧ (d.day ≤ 28 ∨ d.day = 29 ∧ IsLeap d.year))

theorem isLeapYear_iff {year : Nat} : isLeapYear year = true ↔ IsLeap year := by
  simp only [isLeapYear, Bool.and_eq_true, Bool.or_eq_true, decide_eq_true_eq, IsLeap]
  omega

theorem le_daysInMonth_iff {year month day : Nat} (hday : 1 ≤ day) : day ≤ daysInMonth year month ↔
    month ∈ [1, 3, 5, 7, 8, 10, 12] ∧ day ≤ 31 ∨ month ∈ [4, 6, 9, 11] ∧ day ≤ 30 ∨
      month = 2 ∧ (day ≤ 28 ∨ day = 29 ∧ IsLeap year) := by
  unfold daysInMonth
  split
  case h_2 =>
    by_cases hleap : IsLeap year
    · simp only [isLeapYear_iff.mpr hleap, if_true, hleap]
      simp
      omega
    · simp [hleap, mt isLeapYear_iff.mp hleap]
  case h_13 =>
    simp only [imp_false] at *
    refine iff_of_false (by omega) ?_
    simp [*]
  all_goals simp

theorem exists?_iff {d : Date} : d.exists? = true ↔ d.OnCalendar := by
  rw [exists?, Bool.and_eq_true, decide_eq_true_eq, decide_eq_true_eq, OnCalendar]
  exact and_congr_right le_daysInMonth_iff

end Date

/-! ### Groups of digits -/

theorem digitsValue_concat (digits : List Char) (c : Char) :
    digitsValue (digits ++ [c]) = 10 * digitsValue digits + (c.toNat - 48) := by
  rw [digitsValue, List.foldl_append]
  rfl

/-- A text of so many digits, and the number that they name. -/
structure DigitGroup (width : Nat) (text : List Char) (n : Nat) : Prop where
  length_eq : text.length = width
  isDigit : ∀ c ∈ text, c.isDigit = true
  value_eq : digitsValue text = n

namespace Instant

theorem fixedDigits_succ (width n : Nat) :
    fixedDigits (width + 1) n = fixedDigits width (n / 10) ++ [Nat.digitChar (n % 10)] := by
  have hplace (place : Nat) : n / 10 ^ (place + 1) = n / 10 / 10 ^ place := by
    rw [Nat.pow_succ, Nat.mul_comm, Nat.div_div_eq_div_mul]
  simp [fixedDigits, List.range_succ_eq_map, hplace]

theorem fixedDigits_digitsValue {digits : List Char} (h : ∀ c ∈ digits, c.isDigit = true) :
    fixedDigits digits.length (digitsValue digits) = digits := by
  induction digits using List.reverseRecOn with
  | nil => rfl
  | append_singleton digits c ih =>
    obtain ⟨hlow, hhigh⟩ := Char.bounds_of_isDigit (h c (by simp))
    have hlast : Nat.digitChar (c.toNat - 48) = c := by
      rw [← Char.toNat_inj, Nat.toNat_digitChar_of_lt_ten (by omega)]
      omega
    rw [List.length_append, List.length_singleton, fixedDigits_succ, digitsValue_concat,
      show (10 * digitsValue digits + (c.toNat - 48)) / 10 = digitsValue digits by omega,
      show (10 * digitsValue digits + (c.toNat - 48)) % 10 = c.toNat - 48 by omega, hlast,
      ih fun d hd => h d (List.mem_append_left _ hd)]

theorem digitGroup_fixedDigits (width : Nat) {n : Nat} (hn : n < 10 ^ width) :
    DigitGroup width (fixedDigits width n) n := by
  induction width generalizing n with
  | zero => exact ⟨rfl, fun c hc => absurd hc List.not_mem_nil, (Nat.lt_one_iff.mp hn).symm⟩
  | succ width ih =>
    have hmod : n % 10 < 10 := Nat.mod_lt _ (by decide)
    obtain ⟨hlength, hdigits, hvalue⟩ := ih (Nat.div_lt_of_lt_mul (by rwa [Nat.pow_succ, Nat.mul_comm] at hn))
    rw [fixedDigits_succ]
    refine ⟨by rw [List.length_append, hlength]; rfl, List.forall_mem_append.mpr ⟨hdigits, ?_⟩, ?_⟩
    · rw [List.forall_mem_singleton, Nat.isDigit_digitChar]
      exact decide_eq_true hmod
    · rw [digitsValue_concat, hvalue, Nat.toNat_digitChar_of_lt_ten hmod]
      omega

/-- A number is named by one group of digits of a width. -/
theorem digitGroup_iff {width n : Nat} {text : List Char} :
    DigitGroup width text n ↔ n < 10 ^ width ∧ text = fixedDigits width n := by
  constructor
  · rintro ⟨rfl, hdigits, rfl⟩
    exact ⟨digitsValue_lt hdigits, (fixedDigits_digitsValue hdigits).symm⟩
  · rintro ⟨hn, rfl⟩
    exact digitGroup_fixedDigits width hn

theorem field_eq_ok_iff {text : List Char} {start width n : Nat} (hwidth : 0 < width) (hroom : start + width ≤ text.length) :
    field text start width = .ok n ↔ DigitGroup width ((text.drop start).take width) n := by
  have hlength : ((text.drop start).take width).length = width := by
    rw [List.length_take, List.length_drop]
    omega
  have hread : field text start width = .ok n ↔ naturalOfDigits? ((text.drop start).take width) = some n := by
    rw [field]
    cases naturalOfDigits? ((text.drop start).take width) <;> simp
  rw [hread, naturalOfDigits?_eq_some_iff]
  constructor
  · rintro ⟨-, hdigits, hvalue⟩
    exact ⟨hlength, hdigits, hvalue⟩
  · rintro ⟨-, hdigits, hvalue⟩
    exact ⟨List.ne_nil_of_length_pos (hwidth.trans_eq hlength.symm), hdigits, hvalue⟩

/-! ### Reading -/

theorem hasTimeOfDay_iff {t : Instant} : t.hasTimeOfDay = true ↔ t.hour < 24 ∧ t.minute < 60 ∧ t.second < 60 := by
  simp only [hasTimeOfDay, Bool.and_eq_true, decide_eq_true_eq, and_assoc]

/-- A timestamp is read if it passes every check, and what is read are the numbers of its fields. -/
theorem ofLayout_eq_ok_iff_checks {text : List Char} {t : Instant} : ofLayout text = .ok t ↔
    (text.length = 27 ∧ ∀ c ∈ text, c.toNat < 128) ∧ (∀ place ∈ marks, text[place.1]? = some place.2) ∧
      (field text 0 4 = .ok t.date.year ∧ field text 5 2 = .ok t.date.month ∧ field text 8 2 = .ok t.date.day ∧
        field text 11 2 = .ok t.hour ∧ field text 14 2 = .ok t.minute ∧ field text 17 2 = .ok t.second ∧
        field text 20 6 = .ok t.microsecond) ∧ t.date.exists? = true ∧ t.hasTimeOfDay = true := by
  have hguard : ¬ (text.length ≠ 27 || text.any fun c => 128 ≤ c.toNat) = true ↔
      text.length = 27 ∧ ∀ c ∈ text, c.toNat < 128 := by
    simp
  unfold ofLayout
  dsimp only
  rw [guard_eq_ok_iff, hguard]
  refine and_congr_right fun _ => ?_
  split
  case h_1 offset mark hmark =>
    have hmissing : text[offset]? ≠ some mark := by simpa using List.find?_some hmark
    exact iff_of_false (by rintro ⟨⟩) fun h => hmissing (h.1 _ (List.mem_of_find?_eq_some hmark))
  case h_2 hnone =>
    have hmarks : ∀ place ∈ marks, text[place.1]? = some place.2 := by
      simpa [List.find?_eq_none] using
        Option.eq_none_iff_forall_ne_some.mpr fun (found : Nat × Char) => hnone found.1 found.2
    rw [and_iff_right hmarks]
    simp only [bind_eq_ok_iff, guard_eq_ok_iff, pure_eq_ok_iff, Bool.not_eq_true', Bool.not_eq_false]
    constructor
    · rintro ⟨year, hyear, month, hmonth, day, hday, hour, hhour, minute, hminute, second, hsecond, fraction, hfraction,
        hdate, htime, rfl⟩
      exact ⟨⟨hyear, hmonth, hday, hhour, hminute, hsecond, hfraction⟩, hdate, htime⟩
    · rintro ⟨⟨hyear, hmonth, hday, hhour, hminute, hsecond, hfraction⟩, hdate, htime⟩
      exact ⟨_, hyear, _, hmonth, _, hday, _, hhour, _, hminute, _, hsecond, _, hfraction, hdate, htime, rfl⟩

end Instant

end SurfaceWater
