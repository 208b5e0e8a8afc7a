import Mathlib.Algebra.Order.Field.Basic
import Mathlib.Algebra.Order.Field.Rat
import Mathlib.Tactic.NormNum
import Mathlib.Tactic.Ring
import SurfaceWater.Proofs.Calendar
import SurfaceWater.Proofs.Metadata.Timestamp

/-!
# Julian days in exact numbers

Over the rational numbers the Julian day is the number of the day with the time of day as its fraction, so it grows with
the instant. The layout of timestamps puts the fields in the same order, the largest first and each in a fixed number of
digits, so that timestamps are in the order of their texts.
-/

namespace SurfaceWater.Instant

variable {s t : Instant}

/-! ### The order of the instants -/

/-- The time of day in microseconds. -/
def microsecondOfDay (t : Instant) : Nat := 10 ^ 6 * t.secondOfDay + t.microsecond

/-- One instant comes before another. -/
def Before (s t : Instant) : Prop := s.date.Before t.date ∨ s.date = t.date ∧ s.microsecondOfDay < t.microsecondOfDay

theorem Statable.microsecondOfDay_lt (h : t.Statable) : t.microsecondOfDay < 86400000000 := by
  have hhour := h.hour_lt
  have hminute := h.minute_lt
  have hsecond := h.second_lt
  have hmicrosecond := h.microsecond_lt
  unfold microsecondOfDay secondOfDay
  omega

/-! ### The order of the texts -/

theorem digitChar_lt_iff {m n : Nat} (hm : m < 10) (hn : n < 10) : Nat.digitChar m < Nat.digitChar n ↔ m < n := by
  rw [Char.lt_def, UInt32.lt_iff_toNat_lt]
  show (Nat.digitChar m).toNat < (Nat.digitChar n).toNat ↔ m < n
  rw [Nat.toNat_digitChar_of_lt_ten hm, Nat.toNat_digitChar_of_lt_ten hn, Nat.add_lt_add_iff_left]

theorem fixedDigits_append_lt_iff {width m n : Nat} (hm : m < 10 ^ width) (hn : n < 10 ^ width) {a b : List Char} :
    fixedDigits width m ++ a < fixedDigits width n ++ b ↔ m < n ∨ m = n ∧ a < b := by
  induction width generalizing m n a b with
  | zero =>
    rw [Nat.pow_zero, Nat.lt_one_iff] at hm hn
    subst hm hn
    simp [fixedDigits]
  | succ width ih =>
    have hdiv {k : Nat} (hk : k < 10 ^ (width + 1)) : k / 10 < 10 ^ width :=
      Nat.div_lt_of_lt_mul (by rwa [Nat.pow_succ, Nat.mul_comm] at hk)
    have hmod (k : Nat) : k % 10 < 10 := Nat.mod_lt k (by decide)
    have hsame : Nat.digitChar (m % 10) = Nat.digitChar (n % 10) ↔ m % 10 = n % 10 := by
      constructor
      · intro h
        have hvalue := congrArg Char.toNat h
        rw [Nat.toNat_digitChar_of_lt_ten (hmod m), Nat.toNat_digitChar_of_lt_ten (hmod n)] at hvalue
        omega
      · exact congrArg Nat.digitChar
    rw [fixedDigits_succ, fixedDigits_succ, List.append_assoc, List.append_assoc, ih (hdiv hm) (hdiv hn),
      List.singleton_append, List.singleton_append, List.cons_lt_cons_iff, digitChar_lt_iff (hmod m) (hmod n), hsame]
    -- the last digit decides where the others are the same
    by_cases hrest : a < b
    · simp only [hrest, and_true]
      omega
    · simp only [hrest, and_false, or_false]
      omega

/-- A group of digits and the mark behind it leave the order to what follows, unless the groups differ. -/
theorem group_lt_iff {width m n : Nat} (hm : m < 10 ^ width) (hn : n < 10 ^ width) {mark : Char} {a b : List Char} :
    fixedDigits width m ++ mark :: a < fixedDigits width n ++ mark :: b ↔ m < n ∨ m = n ∧ a < b := by
  rw [fixedDigits_append_lt_iff hm hn, List.cons_lt_cons_iff]
  simp

theorem microsecondOfDay_lt_iff (hs : s.Statable) (ht : t.Statable) : s.microsecondOfDay < t.microsecondOfDay ↔
    s.hour < t.hour ∨ s.hour = t.hour ∧ (s.minute < t.minute ∨ s.minute = t.minute ∧
      (s.second < t.second ∨ s.second = t.second ∧ s.microsecond < t.microsecond)) := by
  have hminute := hs.minute_lt
  have hminute' := ht.minute_lt
  have hsecond := hs.second_lt
  have hsecond' := ht.second_lt
  have hmicrosecond := hs.microsecond_lt
  have hmicrosecond' := ht.microsecond_lt
  unfold microsecondOfDay secondOfDay
  omega

/-- Of two texts in the layout the one that is first in the order of texts states the earlier instant. -/
theorem layout_lt_iff (hs : s.Statable) (ht : t.Statable) : s.layout < t.layout ↔ s.Before t := by
  have hs' := hs.inLayout
  have ht' := ht.inLayout
  have hdate : s.date = t.date ↔
      s.date.year = t.date.year ∧ s.date.month = t.date.month ∧ s.date.day = t.date.day := by
    cases s.date
    cases t.date
    rw [Date.mk.injEq]
  rw [Before, Date.Before, hdate, microsecondOfDay_lt_iff hs ht]
  simp only [layout, List.append_assoc, List.cons_append, group_lt_iff hs'.year ht'.year, group_lt_iff hs'.month ht'.month,
    group_lt_iff hs'.day ht'.day, group_lt_iff hs'.hour ht'.hour, group_lt_iff hs'.minute ht'.minute,
    group_lt_iff hs'.second ht'.second, group_lt_iff hs'.microsecond ht'.microsecond, List.lt_irrefl, and_false, or_false]
  omega

/-! ### Julian days -/

/-- Microseconds from the beginning of the day before the first day of the year 1. -/
def microseconds (t : Instant) : Int := 86400000000 * t.date.dayNumber + t.microsecondOfDay

theorem julianDay_eq (t : Instant) : t.julianDay ℚ = t.microseconds / 86400000000 + 1721424.5 := by
  have hnano : (1e-9 : ℚ) = 1 / 10 ^ 9 := by norm_num
  have hdayLength : (86400.0 : ℚ) = 86400 := by norm_num
  simp only [julianDay, microseconds, microsecondOfDay, nanosecond, hnano, hdayLength]
  push_cast
  ring

theorem julianDay_sub (s t : Instant) :
    t.julianDay ℚ - s.julianDay ℚ = ((t.microseconds - s.microseconds : Int) : ℚ) / 86400000000 := by
  rw [julianDay_eq, julianDay_eq]
  push_cast
  ring

theorem julianDay_lt_iff (hs : s.Statable) (ht : t.Statable) : s.julianDay ℚ < t.julianDay ℚ ↔ s.Before t := by
  have hcount : s.microseconds < t.microseconds ↔ s.Before t := by
    have hclock := hs.microsecondOfDay_lt
    have hclock' := ht.microsecondOfDay_lt
    rw [Before, ← Date.dayNumber_lt_iff hs.onCalendar ht.onCalendar, ← Date.dayNumber_inj hs.onCalendar ht.onCalendar]
    unfold microseconds
    omega
  have hscale (n : Int) : 0 < (n : ℚ) / 86400000000 ↔ 0 < n := by
    rw [div_pos_iff_of_pos_right (by norm_num), Int.cast_pos]
  rw [← hcount, ← sub_pos, julianDay_sub, hscale, Int.sub_pos]

/-! ### Timestamps -/

/-- For any two timestamps that are read, the order of their texts of 27 characters is that of their Julian days. At the same
time of day the Julian days are one apart exactly if the dates are consecutive on the calendar, and on one date they are
as far apart as the times of day. -/
theorem julianDay_follows_text {first second : List Char} (hread : read first = .ok s) (hread' : read second = .ok t) :
    ((clean first).length = 27 ∧ (clean second).length = 27) ∧
    (clean first < clean second ↔ s.julianDay ℚ < t.julianDay ℚ) ∧
    (s.microsecondOfDay = t.microsecondOfDay → (s.date.Consecutive t.date ↔ t.julianDay ℚ - s.julianDay ℚ = 1)) ∧
    (s.date = t.date →
      t.julianDay ℚ - s.julianDay ℚ = ((t.microsecondOfDay : ℚ) - s.microsecondOfDay) / 86400000000) := by
  have hfirst : States (clean first) s := ofLayout_eq_ok_iff.mp hread
  have hsecond : States (clean second) t := ofLayout_eq_ok_iff.mp hread'
  obtain ⟨hs, hfirstText⟩ := states_iff.mp hfirst
  obtain ⟨ht, hsecondText⟩ := states_iff.mp hsecond
  refine ⟨⟨hfirst.length_eq, hsecond.length_eq⟩, ?_, fun hclock => ?_, fun hdate => ?_⟩
  · rw [hfirstText, hsecondText, layout_lt_iff hs ht, julianDay_lt_iff hs ht]
  · have hdays : t.microseconds - s.microseconds = 86400000000 * (t.date.dayNumber - s.date.dayNumber) := by
      unfold microseconds
      omega
    rw [julianDay_sub, hdays, Date.consecutive_iff hs.onCalendar ht.onCalendar, Int.cast_mul, Int.cast_ofNat,
      mul_div_cancel_left₀ _ (by norm_num)]
    norm_cast
    omega
  · have hclock : t.microseconds - s.microseconds = t.microsecondOfDay - s.microsecondOfDay := by
      unfold microseconds
      rw [hdate]
      omega
    rw [julianDay_sub, hclock]
    push_cast
    rfl

/-- The last day of February and the first of March of a year that ends a century without being a leap year, with noise
around one of the texts. -/
theorem julianDay_follows_text_century :
    ∃ s t, read " 1900-02-28T12:30:00.000001Z;".toList = .ok s ∧ read "1900-03-01T12:30:00.000001Z".toList = .ok t ∧
      s.date.Consecutive t.date ∧ t.julianDay ℚ - s.julianDay ℚ = 1 := by
  have hs : read " 1900-02-28T12:30:00.000001Z;".toList = .ok ⟨⟨1900, 2, 28⟩, 12, 30, 0, 1⟩ := by decide +kernel
  have ht : read "1900-03-01T12:30:00.000001Z".toList = .ok ⟨⟨1900, 3, 1⟩, 12, 30, 0, 1⟩ := by decide +kernel
  obtain ⟨-, -, hdays, -⟩ := julianDay_follows_text hs ht
  have hnext : Date.Consecutive ⟨1900, 2, 28⟩ ⟨1900, 3, 1⟩ :=
    (Date.consecutive_iff_eq_next (Date.exists?_iff.mp rfl) (Date.exists?_iff.mp rfl)).mpr rfl
  exact ⟨_, _, hs, ht, hnext, (hdays rfl).mp hnext⟩

end SurfaceWater.Instant
