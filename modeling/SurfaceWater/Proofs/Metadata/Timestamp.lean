import SurfaceWater.Proofs.Ephemeris
import SurfaceWater.Proofs.Metadata.AcquisitionTime

/-!
# What a timestamp can say

The layout of timestamps as a grammar: seven groups of digits with a mark behind each, which name a day of the calendar
and a time on the clock. An instant is written in one way only, and a text is read exactly if it is such a text with
blanks around it and semicolons behind it.
-/

namespace SurfaceWater

namespace Instant

open Text (isBlank)

/-! ### The layout -/

/-- An instant that a timestamp can state. -/
structure Statable (t : Instant) : Prop where
  onCalendar : t.date.OnCalendar
  year_lt : t.date.year < 10 ^ 4
  hour_lt : t.hour < 24
  minute_lt : t.minute < 60
  second_lt : t.second < 60
  microsecond_lt : t.microsecond < 10 ^ 6

/-- Seven groups of digits with a mark behind each. -/
def IsLaidOut (core : List Char) (t : Instant) : Prop :=
  ∃ year month day hour minute second fraction,
    core = year ++ '-' :: (month ++ '-' :: (day ++ 'T' :: (hour ++ ':' :: (minute ++ ':' :: (second ++ '.' ::
      (fraction ++ ['Z'])))))) ∧
    DigitGroup 4 year t.date.year ∧ DigitGroup 2 month t.date.month ∧ DigitGroup 2 day t.date.day ∧
    DigitGroup 2 hour t.hour ∧ DigitGroup 2 minute t.minute ∧ DigitGroup 2 second t.second ∧
    DigitGroup 6 fraction t.microsecond

/-- A text in the layout whose groups of digits name a day of the calendar and a time on the clock. -/
def States (core : List Char) (t : Instant) : Prop :=
  IsLaidOut core t ∧ t.date.OnCalendar ∧ t.hour < 24 ∧ t.minute < 60 ∧ t.second < 60

/-- A text at a place is a part with a mark behind it and then the rest. -/
theorem drop_eq_append_cons_iff {text part rest : List Char} {start width : Nat} {mark : Char}
    (hwidth : part.length = width) : text.drop start = part ++ mark :: rest ↔
      (text.drop start).take width = part ∧ text[start + width]? = some mark ∧ text.drop (start + width + 1) = rest := by
  rw [← List.getElem?_drop, Nat.add_assoc, ← List.drop_drop]
  generalize text.drop start = text
  subst hwidth
  constructor
  · rintro rfl
    simp
  · rintro ⟨hpart, hmark, hrest⟩
    obtain ⟨hlt, hmark⟩ := List.getElem?_eq_some_iff.mp hmark
    rw [← List.take_append_drop part.length text, List.drop_eq_getElem_cons hlt, hpart, hmark, hrest]

theorem isLaidOut_iff {core : List Char} {t : Instant} : IsLaidOut core t ↔
    core.length = 27 ∧ (∀ place ∈ marks, core[place.1]? = some place.2) ∧
      DigitGroup 4 ((core.drop 0).take 4) t.date.year ∧ DigitGroup 2 ((core.drop 5).take 2) t.date.month ∧
      DigitGroup 2 ((core.drop 8).take 2) t.date.day ∧ DigitGroup 2 ((core.drop 11).take 2) t.hour ∧
      DigitGroup 2 ((core.drop 14).take 2) t.minute ∧ DigitGroup 2 ((core.drop 17).take 2) t.second ∧
      DigitGroup 6 ((core.drop 20).take 6) t.microsecond := by
  simp only [marks, List.forall_mem_cons]
  constructor
  · rintro ⟨year, month, day, hour, minute, second, fraction, hcore, hyear, hmonth, hday, hhour, hminute, hsecond,
      hfraction⟩
    have hlength : core.length = 27 := by
      simp only [hcore, List.length_append, List.length_cons, List.length_nil, hyear.length_eq, hmonth.length_eq,
        hday.length_eq, hhour.length_eq, hminute.length_eq, hsecond.length_eq, hfraction.length_eq]
    change core.drop 0 = _ at hcore
    obtain ⟨hyearPart, hmark4, hcore⟩ := (drop_eq_append_cons_iff hyear.length_eq).mp hcore
    obtain ⟨hmonthPart, hmark7, hcore⟩ := (drop_eq_append_cons_iff hmonth.length_eq).mp hcore
    obtain ⟨hdayPart, hmark10, hcore⟩ := (drop_eq_append_cons_iff hday.length_eq).mp hcore
    obtain ⟨hhourPart, hmark13, hcore⟩ := (drop_eq_append_cons_iff hhour.length_eq).mp hcore
    obtain ⟨hminutePart, hmark16, hcore⟩ := (drop_eq_append_cons_iff hminute.length_eq).mp hcore
    obtain ⟨hsecondPart, hmark19, hcore⟩ := (drop_eq_append_cons_iff hsecond.length_eq).mp hcore
    obtain ⟨hfractionPart, hmark26, -⟩ := (drop_eq_append_cons_iff hfraction.length_eq).mp hcore
    rw [hyearPart, hmonthPart, hdayPart, hhourPart, hminutePart, hsecondPart, hfractionPart]
    exact ⟨hlength, ⟨hmark4, hmark7, hmark10, hmark13, hmark16, hmark19, hmark26, List.forall_mem_nil _⟩, hyear, hmonth,
      hday, hhour, hminute, hsecond, hfraction⟩
  · rintro ⟨hlength, ⟨hmark4, hmark7, hmark10, hmark13, hmark16, hmark19, hmark26, -⟩, hyear, hmonth, hday, hhour,
      hminute, hsecond, hfraction⟩
    refine ⟨_, _, _, _, _, _, _, ?_, hyear, hmonth, hday, hhour, hminute, hsecond, hfraction⟩
    refine (drop_eq_append_cons_iff hyear.length_eq).mpr ⟨rfl, hmark4, ?_⟩
    refine (drop_eq_append_cons_iff hmonth.length_eq).mpr ⟨rfl, hmark7, ?_⟩
    refine (drop_eq_append_cons_iff hday.length_eq).mpr ⟨rfl, hmark10, ?_⟩
    refine (drop_eq_append_cons_iff hhour.length_eq).mpr ⟨rfl, hmark13, ?_⟩
    refine (drop_eq_append_cons_iff hminute.length_eq).mpr ⟨rfl, hmark16, ?_⟩
    refine (drop_eq_append_cons_iff hsecond.length_eq).mpr ⟨rfl, hmark19, ?_⟩
    refine (drop_eq_append_cons_iff hfraction.length_eq).mpr ⟨rfl, hmark26, ?_⟩
    exact List.drop_eq_nil_of_le (Nat.le_of_eq hlength)

/-- A text in the layout is that of its instant, and no group has room for more than it says. -/
theorem isLaidOut_iff_eq_layout {core : List Char} {t : Instant} : IsLaidOut core t ↔ t.InLayout ∧ core = t.layout := by
  simp only [IsLaidOut, digitGroup_iff, layout]
  constructor
  · rintro ⟨year, month, day, hour, minute, second, fraction, rfl, ⟨hyear, rfl⟩, ⟨hmonth, rfl⟩, ⟨hday, rfl⟩, ⟨hhour, rfl⟩,
      ⟨hminute, rfl⟩, ⟨hsecond, rfl⟩, ⟨hfraction, rfl⟩⟩
    exact ⟨⟨hyear, hmonth, hday, hhour, hminute, hsecond, hfraction⟩, by simp⟩
  · rintro ⟨⟨hyear, hmonth, hday, hhour, hminute, hsecond, hfraction⟩, rfl⟩
    exact ⟨_, _, _, _, _, _, _, by simp, ⟨hyear, rfl⟩, ⟨hmonth, rfl⟩, ⟨hday, rfl⟩, ⟨hhour, rfl⟩, ⟨hminute, rfl⟩,
      ⟨hsecond, rfl⟩, ⟨hfraction, rfl⟩⟩

theorem Statable.inLayout {t : Instant} (h : t.Statable) : t.InLayout := by
  have hday : t.date.month ≤ 12 ∧ t.date.day ≤ 31 := by
    have hcalendar := h.onCalendar.2
    simp only [List.mem_cons, List.not_mem_nil, or_false] at hcalendar
    omega
  refine ⟨h.year_lt, by omega, by omega, h.hour_lt.trans (by decide), h.minute_lt.trans (by decide),
    h.second_lt.trans (by decide), h.microsecond_lt⟩

/-- Each instant that can be stated is stated by one text. -/
theorem states_iff {core : List Char} {t : Instant} : States core t ↔ t.Statable ∧ core = t.layout := by
  rw [States, isLaidOut_iff_eq_layout]
  constructor
  · rintro ⟨⟨hlayout, hcore⟩, hcalendar, hhour, hminute, hsecond⟩
    exact ⟨⟨hcalendar, hlayout.year, hhour, hminute, hsecond, hlayout.microsecond⟩, hcore⟩
  · rintro ⟨h, hcore⟩
    exact ⟨⟨h.inLayout, hcore⟩, h.onCalendar, h.hour_lt, h.minute_lt, h.second_lt⟩

theorem IsLaidOut.isPlain {core : List Char} {t : Instant} (h : IsLaidOut core t) : IsPlain core := by
  obtain ⟨year, month, day, hour, minute, second, fraction, rfl, hyear, hmonth, hday, hhour, hminute, hsecond,
    hfraction⟩ := h
  have hgroup {width n : Nat} {group rest : List Char} {mark : Char} (hdigits : DigitGroup width group n)
      (hmark : mark ∈ plainChars) (hrest : IsPlain rest) : IsPlain (group ++ mark :: rest) :=
    (IsPlain.of_isDigit hdigits.isDigit).append (hrest.cons hmark)
  refine hgroup hyear (by decide) (hgroup hmonth (by decide) (hgroup hday (by decide) (hgroup hhour (by decide) ?_)))
  refine hgroup hminute (by decide) (hgroup hsecond (by decide) (hgroup hfraction (by decide) ?_))
  exact fun c hc => absurd hc List.not_mem_nil

theorem isLaidOut_iff_fields {text : List Char} {t : Instant} (hlength : text.length = 27) : IsLaidOut text t ↔
    (∀ place ∈ marks, text[place.1]? = some place.2) ∧ field text 0 4 = .ok t.date.year ∧
      field text 5 2 = .ok t.date.month ∧ field text 8 2 = .ok t.date.day ∧ field text 11 2 = .ok t.hour ∧
      field text 14 2 = .ok t.minute ∧ field text 17 2 = .ok t.second ∧ field text 20 6 = .ok t.microsecond := by
  have hroom {start width : Nat} (hwidth : 0 < width) (hend : start + width ≤ 27) (n : Nat) :=
    field_eq_ok_iff (n := n) hwidth (hlength ▸ hend)
  rw [isLaidOut_iff, hroom (by decide) (by decide), hroom (by decide) (by decide), hroom (by decide) (by decide),
    hroom (by decide) (by decide), hroom (by decide) (by decide), hroom (by decide) (by decide),
    hroom (by decide) (by decide)]
  exact and_iff_right hlength

theorem ofLayout_eq_ok_iff {text : List Char} {t : Instant} : ofLayout text = .ok t ↔ States text t := by
  rw [ofLayout_eq_ok_iff_checks, Date.exists?_iff, hasTimeOfDay_iff]
  constructor
  · rintro ⟨⟨hlength, -⟩, hmarks, hfields, hcalendar, hclock⟩
    exact ⟨(isLaidOut_iff_fields hlength).mpr ⟨hmarks, hfields⟩, hcalendar, hclock⟩
  · rintro ⟨hlaidOut, hcalendar, hclock⟩
    have hlength := (isLaidOut_iff.mp hlaidOut).1
    obtain ⟨hmarks, hfields⟩ := (isLaidOut_iff_fields hlength).mp hlaidOut
    exact ⟨⟨hlength, hlaidOut.isPlain.isAscii⟩, hmarks, hfields, hcalendar, hclock⟩

/-! ### What may stand around it -/

/-- A text is a core with blanks around it and semicolons behind it. -/
def Surrounds (text core : List Char) : Prop :=
  ∃ lead gap semicolons tail, text = lead ++ core ++ gap ++ semicolons ++ tail ∧ (∀ c ∈ lead, isBlank c = true) ∧
    (∀ c ∈ gap, isBlank c = true) ∧ (∀ c ∈ semicolons, c = ';') ∧ ∀ c ∈ tail, isBlank c = true

theorem surrounds_clean (text : List Char) : Surrounds text (clean text) := by
  obtain ⟨lead, gap, semicolons, tail, h⟩ := exists_drops text
  exact ⟨lead, gap, semicolons, tail, by simpa using h.value_eq, h.lead_blank, h.gap_blank, h.marks_eq, h.tail_blank⟩

theorem surrounds_self (core : List Char) : Surrounds core core :=
  ⟨[], [], [], [], by simp, by simp, by simp, by simp, by simp⟩

/-- A core of plain characters is what cleaning leaves. -/
theorem clean_eq_of_surrounds {text core : List Char} (h : Surrounds text core) (hplain : IsPlain core)
    (hne : core ≠ []) : clean text = core := by
  obtain ⟨lead, gap, semicolons, tail, rfl, hlead, hgap, hsemicolons, htail⟩ := h
  have hblank : ∀ c ∈ core, isBlank c = false := fun c hc => isBlank_of_mem_plainChars (hplain c hc)
  have hlast : ∀ c ∈ core.getLast?, isBlank c = false := fun c hc => hblank c (List.mem_of_getLast? hc)
  have hfront (rest : List Char) : (lead ++ (core ++ rest)).dropWhile isBlank = core ++ rest := by
    rw [List.dropWhile_append_of_pos hlead, Text.dropWhile_eq_self]
    intro c hc
    rw [List.head?_append_of_ne_nil _ hne] at hc
    exact hblank c (List.mem_of_head? hc)
  simp only [clean, Text.trim, Text.trimEnd]
  rw [List.append_assoc, List.append_assoc, List.append_assoc, hfront]
  rcases List.eq_nil_or_concat semicolons with rfl | ⟨others, last, rfl⟩
  · -- without a semicolon all blanks behind the core are one run
    have hnot : ∀ c ∈ core.getLast?, decide (c = ';') = false := fun c hc =>
      ne_semicolon_of_mem_plainChars (hplain c (List.mem_of_getLast? hc))
    rw [List.nil_append, Text.dropTrailing_append hlast (List.forall_mem_append.mpr ⟨hgap, htail⟩),
      Text.dropTrailing_eq_self hnot, Text.dropTrailing_eq_self hlast]
  · have hend : ∀ c ∈ (core ++ gap ++ others.concat last).getLast?, isBlank c = false := by
      obtain rfl : last = ';' := hsemicolons last (by simp)
      simp
      decide
    have hnot : ∀ c ∈ (core ++ gap).getLast?, decide (c = ';') = false := by
      intro c hc
      rcases List.mem_append.mp (List.mem_of_getLast? hc) with hcore | hblankGap
      · exact ne_semicolon_of_mem_plainChars (hplain c hcore)
      · refine decide_eq_false ?_
        rintro rfl
        cases hgap _ hblankGap
    rw [← List.append_assoc, ← List.append_assoc, Text.dropTrailing_append hend htail,
      Text.dropTrailing_append hnot fun c hc => decide_eq_true (hsemicolons c hc), Text.dropTrailing_append hlast hgap]

theorem States.isPlain {core : List Char} {t : Instant} (h : States core t) : IsPlain core := h.1.isPlain

theorem States.length_eq {core : List Char} {t : Instant} (h : States core t) : core.length = 27 := (isLaidOut_iff.mp h.1).1

theorem States.clean_eq {text core : List Char} {t : Instant} (h : States core t) (htext : Surrounds text core) :
    clean text = core :=
  clean_eq_of_surrounds htext h.isPlain (List.ne_nil_of_length_pos (h.length_eq ▸ by decide))

theorem read_eq_ok_iff {text : List Char} {t : Instant} :
    read text = .ok t ↔ ∃ core, Surrounds text core ∧ States core t := by
  rw [read, ofLayout_eq_ok_iff]
  constructor
  · exact fun h => ⟨clean text, surrounds_clean text, h⟩
  · rintro ⟨core, htext, hcore⟩
    rwa [hcore.clean_eq htext]

-- A blank between semicolons, and a character of two bytes in a text of 27.
example : read "2016-10-23T18:44:52.145617Z; ;".toList = .error .wrongLength := by decide +kernel

example : read "2016-10-23T18:44:52.14561é".toList = .error .wrongLength := by decide +kernel

end Instant

end SurfaceWater
