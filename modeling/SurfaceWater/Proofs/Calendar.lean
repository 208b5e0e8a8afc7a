import SurfaceWater.Proofs.Instant

/-!
# Days of the calendar

Dates in their order, and the number of a day. Months follow one another without a gap, and so do years, so the number
of a day grows along the calendar by one from each date to the next. The rest of the theory reaches the number of a day
only through `dayNumber_lt_iff` and `consecutive_iff`.
-/

namespace SurfaceWater

/-- Stretches of days that follow one another: a later one begins where an earlier one ends, or after it. -/
theorem start_add_length_le {start : Nat → Int} {length : Nat → Nat} (h : ∀ n, start (n + 1) = start n + length n)
    {m n : Nat} (hmn : m < n) : start m + length m ≤ start n := by
  induction n, hmn using Nat.le_induction with
  | base => exact Int.le_of_eq (h m).symm
  | succ n _ ih =>
    have hstep := h n
    omega

namespace Date

/-- One date comes before another on the calendar. -/
def Before (d e : Date) : Prop :=
  d.year < e.year ∨ d.year = e.year ∧ (d.month < e.month ∨ d.month = e.month ∧ d.day < e.day)

theorem before_trichotomy (d e : Date) : d.Before e ∨ d = e ∨ e.Before d := by
  obtain ⟨year, month, day⟩ := d
  obtain ⟨year', month', day'⟩ := e
  simp only [Before, mk.injEq]
  omega

/-! ### Days before a month and before a year -/

theorem daysBeforeMonth_succ (year month : Nat) :
    daysBeforeMonth year (month + 1) = daysBeforeMonth year month + daysInMonth year month := by
  cases month with
  | zero => rfl
  | succ month => rfl

theorem daysBeforeMonth_add_le {year m n : Nat} (h : m < n) :
    daysBeforeMonth year m + daysInMonth year m ≤ daysBeforeMonth year n := by
  have hsucc (month : Nat) : (daysBeforeMonth year (month + 1) : Int) = daysBeforeMonth year month + daysInMonth year month :=
    congrArg Nat.cast (daysBeforeMonth_succ year month)
  exact Int.ofNat_le.mp (@start_add_length_le (fun month => daysBeforeMonth year month) (daysInMonth year) hsucc m n h)

def daysInYear (year : Nat) : Nat := if isLeapYear year then 366 else 365

/-- Months have all the days of a year. -/
theorem daysBeforeMonth_thirteen (year : Nat) : daysBeforeMonth year 13 = daysInYear year := by
  simp only [daysBeforeMonth, daysInMonth, daysInYear]
  split <;> rfl

/-- Days from the first day of the year 1 to the last day before a year, which is below zero for the year 0. -/
def daysBeforeYear (year : Nat) : Int :=
  let past : Int := year - 1
  365 * past + past / 4 - past / 100 + past / 400

theorem daysBeforeYear_succ (year : Nat) : daysBeforeYear (year + 1) = daysBeforeYear year + daysInYear year := by
  have hleap : isLeapYear year = true ↔ 4 ∣ year ∧ (100 ∣ year → 400 ∣ year) := isLeapYear_iff
  unfold daysBeforeYear daysInYear
  dsimp only
  split
  case isTrue h =>
    have hyear := hleap.mp h
    omega
  case isFalse h =>
    have hyear := mt hleap.mpr h
    omega

/-- The day of the year that a date is. -/
def dayOfYear (d : Date) : Nat := daysBeforeMonth d.year d.month + d.day

theorem dayNumber_eq (d : Date) : d.dayNumber = daysBeforeYear d.year + d.dayOfYear := by
  unfold dayNumber daysBeforeYear dayOfYear
  dsimp only
  omega

/-! ### The order of the days -/

section

variable {d e : Date}

theorem onCalendar_iff : d.OnCalendar ↔ 1 ≤ d.day ∧ d.day ≤ daysInMonth d.year d.month :=
  and_congr_right fun hday => (le_daysInMonth_iff hday).symm

theorem OnCalendar.le_daysInMonth (h : d.OnCalendar) : d.day ≤ daysInMonth d.year d.month := (onCalendar_iff.mp h).2

theorem OnCalendar.month_bounds (h : d.OnCalendar) : 1 ≤ d.month ∧ d.month ≤ 12 := by
  have hmonth := h.2
  simp only [List.mem_cons, List.not_mem_nil, or_false] at hmonth
  omega

theorem OnCalendar.dayOfYear_bounds (h : d.OnCalendar) : 1 ≤ d.dayOfYear ∧ d.dayOfYear ≤ daysInYear d.year := by
  have hmonth : daysBeforeMonth d.year d.month + daysInMonth d.year d.month ≤ daysBeforeMonth d.year 13 :=
    daysBeforeMonth_add_le (Nat.lt_succ_of_le h.month_bounds.2)
  have hyear := daysBeforeMonth_thirteen d.year
  have hday := h.le_daysInMonth
  have hfirst := h.1
  unfold dayOfYear
  omega

theorem dayOfYear_lt_of_before (hd : d.OnCalendar) (he : e.OnCalendar) (hyear : d.year = e.year)
    (h : d.month < e.month ∨ d.month = e.month ∧ d.day < e.day) : d.dayOfYear < e.dayOfYear := by
  have hday := hd.le_daysInMonth
  have hfirst := he.1
  unfold dayOfYear
  rw [hyear] at hday ⊢
  rcases h with hmonth | ⟨hmonth, hlt⟩
  · have hmonths : daysBeforeMonth e.year d.month + daysInMonth e.year d.month ≤ daysBeforeMonth e.year e.month :=
      daysBeforeMonth_add_le hmonth
    omega
  · rw [hmonth]
    omega

theorem dayNumber_lt_of_before (hd : d.OnCalendar) (he : e.OnCalendar) (h : d.Before e) : d.dayNumber < e.dayNumber := by
  rw [dayNumber_eq, dayNumber_eq]
  rcases h with hyear | ⟨hyear, h⟩
  · have hyears := start_add_length_le daysBeforeYear_succ hyear
    have hlast := hd.dayOfYear_bounds.2
    have hfirst := he.dayOfYear_bounds.1
    omega
  · have hday := dayOfYear_lt_of_before hd he hyear h
    rw [hyear]
    omega

/-- Days are numbered in the order of the calendar. -/
theorem dayNumber_lt_iff (hd : d.OnCalendar) (he : e.OnCalendar) : d.dayNumber < e.dayNumber ↔ d.Before e := by
  constructor
  · intro h
    rcases before_trichotomy d e with hbefore | rfl | hafter
    · exact hbefore
    · exact absurd h (Int.lt_irrefl _)
    · exact absurd h (Int.not_lt.mpr (Int.le_of_lt (dayNumber_lt_of_before he hd hafter)))
  · exact dayNumber_lt_of_before hd he

theorem dayNumber_inj (hd : d.OnCalendar) (he : e.OnCalendar) : d.dayNumber = e.dayNumber ↔ d = e := by
  constructor
  · intro h
    rcases before_trichotomy d e with hbefore | hsame | hafter
    · have hlt := (dayNumber_lt_iff hd he).mpr hbefore
      omega
    · exact hsame
    · have hlt := (dayNumber_lt_iff he hd).mpr hafter
      omega
  · exact congrArg dayNumber

/-! ### The next day -/

/-- The day after a date: in the same month, else the first of the next month, else the first of the next year. -/
def next (d : Date) : Date :=
  if d.day < daysInMonth d.year d.month then ⟨d.year, d.month, d.day + 1⟩
  else if d.month < 12 then ⟨d.year, d.month + 1, 1⟩
  else ⟨d.year + 1, 1, 1⟩

theorem daysInMonth_pos {year month : Nat} (hmonth : 1 ≤ month ∧ month ≤ 12) : 1 ≤ daysInMonth year month := by
  rw [le_daysInMonth_iff (Nat.le_refl 1)]
  simp only [List.mem_cons, List.not_mem_nil, or_false]
  omega

theorem onCalendar_next (h : d.OnCalendar) : d.next.OnCalendar := by
  have hmonth := h.month_bounds
  rw [onCalendar_iff]
  unfold next
  split
  case isTrue hday => exact ⟨Nat.le_add_left _ _, hday⟩
  case isFalse =>
    split
    case isTrue hbefore => exact ⟨Nat.le_refl 1, daysInMonth_pos ⟨Nat.le_add_left _ _, hbefore⟩⟩
    case isFalse => exact ⟨Nat.le_refl 1, daysInMonth_pos ⟨Nat.le_refl 1, Nat.le_add_left 1 11⟩⟩

theorem dayNumber_next (h : d.OnCalendar) : d.next.dayNumber = d.dayNumber + 1 := by
  have hday := h.le_daysInMonth
  have hmonth := h.month_bounds
  rw [dayNumber_eq, dayNumber_eq]
  unfold next dayOfYear
  split
  case isTrue => dsimp only; omega
  case isFalse hlast =>
    -- the last day of its month
    have hsucc := daysBeforeMonth_succ d.year d.month
    split
    case isTrue => dsimp only; omega
    case isFalse hdecember =>
      have hyear : daysBeforeMonth d.year (12 + 1) = daysInYear d.year := daysBeforeMonth_thirteen d.year
      have hmonth : d.month = 12 := by omega
      rw [hmonth] at hsucc hday hlast ⊢
      have hstart := daysBeforeYear_succ d.year
      have hfirst : daysBeforeMonth (d.year + 1) 1 = 0 := rfl
      dsimp only
      omega

/-- One date follows another on the calendar with no date between them. -/
def Consecutive (d e : Date) : Prop := d.Before e ∧ ∀ other : Date, other.OnCalendar → ¬ (d.Before other ∧ other.Before e)

theorem consecutive_iff (hd : d.OnCalendar) (he : e.OnCalendar) : d.Consecutive e ↔ e.dayNumber = d.dayNumber + 1 := by
  constructor
  · intro h
    obtain ⟨hbefore, hnone⟩ := h
    have hlt := (dayNumber_lt_iff hd he).mpr hbefore
    have hnext := dayNumber_next hd
    -- the next day would be between them
    have hnot := hnone d.next (onCalendar_next hd)
    rw [← dayNumber_lt_iff hd (onCalendar_next hd), ← dayNumber_lt_iff (onCalendar_next hd) he] at hnot
    omega
  · intro h
    refine ⟨(dayNumber_lt_iff hd he).mp (by omega), fun other hother hbetween => ?_⟩
    rw [← dayNumber_lt_iff hd hother, ← dayNumber_lt_iff hother he] at hbetween
    omega

theorem consecutive_iff_eq_next (hd : d.OnCalendar) (he : e.OnCalendar) : d.Consecutive e ↔ e = d.next := by
  rw [consecutive_iff hd he, ← dayNumber_next hd, dayNumber_inj he (onCalendar_next hd)]

end

end Date

end SurfaceWater
