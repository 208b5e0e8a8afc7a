import SurfaceWater.Numeric.Numeral
import SurfaceWater.Text.Blank

/-!
# Acquisition instants

A calendar date with a time of day, as metadata states it in the fixed layout
`YYYY-MM-DDThh:mm:ss.ffffffZ`. Dates are those of the Gregorian calendar, extended to all years
before it was in use.
-/

namespace SurfaceWater

structure Date where
  year : Nat
  month : Nat
  day : Nat
  deriving DecidableEq, Repr

namespace Date

def isLeapYear (year : Nat) : Bool := year % 4 = 0 && (year % 100 ≠ 0 || year % 400 = 0)

/-- The number of days in a month, and none in a month that does not exist. -/
def daysInMonth (year : Nat) : Nat → Nat
  | 1 => 31
  | 2 => if isLeapYear year then 29 else 28
  | 3 => 31
  | 4 => 30
  | 5 => 31
  | 6 => 30
  | 7 => 31
  | 8 => 31
  | 9 => 30
  | 10 => 31
  | 11 => 30
  | 12 => 31
  | _ => 0

/-- The date is on the calendar. -/
def exists? (d : Date) : Bool := 1 ≤ d.day && d.day ≤ daysInMonth d.year d.month

/-- Days of the year before a month begins. -/
def daysBeforeMonth (year : Nat) : Nat → Nat
  | 0 => 0
  | 1 => 0
  | month + 2 => daysBeforeMonth year (month + 1) + daysInMonth year (month + 1)

/-- Days from the first day of the year 1, which is day 1. -/
def dayNumber (d : Date) : Int :=
  let past : Int := d.year - 1
  365 * past + past / 4 - past / 100 + past / 400 + daysBeforeMonth d.year d.month + d.day

end Date

structure Instant where
  date : Date
  hour : Nat
  minute : Nat
  second : Nat
  microsecond : Nat
  deriving DecidableEq, Repr

inductive TimestampFault where
  | wrongLength
  | missingMark (mark : Char) (offset : Nat)
  | notDigits (field : List Char)
  | noSuchDate
  | noSuchTime
  deriving DecidableEq, Repr

namespace Instant

def secondOfDay (t : Instant) : Nat := 3600 * t.hour + 60 * t.minute + t.second

def nanosecond (t : Instant) : Nat := 1000 * t.microsecond

/-- The time of day is on the clock. -/
def hasTimeOfDay (t : Instant) : Bool := t.hour < 24 && t.minute < 60 && t.second < 60

/-- A timestamp as it stands in a metadata field: without the blanks around it, and without the
semicolons that end the field. -/
def clean (text : List Char) : List Char := Text.trimEnd (Text.dropTrailing (· = ';') (Text.trim text))

/-- The characters of the layout that are not digits. -/
def marks : List (Nat × Char) := [(4, '-'), (7, '-'), (10, 'T'), (13, ':'), (16, ':'), (19, '.'), (26, 'Z')]

/-- The number in a field of the layout. -/
def field (text : List Char) (start width : Nat) : Except TimestampFault Nat :=
  let digits := (text.drop start).take width
  match naturalOfDigits? digits with
  | some n => .ok n
  | none => .error (.notDigits digits)

/-- Reads a timestamp that has been cleaned. -/
def ofLayout (text : List Char) : Except TimestampFault Instant := do
  if text.length ≠ 27 || text.any (fun c => 128 ≤ c.toNat) then throw .wrongLength
  if let some (offset, mark) := marks.find? fun (offset, mark) => text[offset]? ≠ some mark then
    throw (.missingMark mark offset)
  let year ← field text 0 4
  let month ← field text 5 2
  let day ← field text 8 2
  let hour ← field text 11 2
  let minute ← field text 14 2
  let second ← field text 17 2
  let microsecond ← field text 20 6
  let date : Date := ⟨year, month, day⟩
  let instant : Instant := ⟨date, hour, minute, second, microsecond⟩
  if !date.exists? then throw .noSuchDate
  if !instant.hasTimeOfDay then throw .noSuchTime
  return instant

def read (text : List Char) : Except TimestampFault Instant := ofLayout (clean text)

/-- A number in exactly `width` digits, if it fits. -/
def fixedDigits (width n : Nat) : List Char :=
  (List.range width).reverse.map fun place => Nat.digitChar (n / 10 ^ place % 10)

/-- The instant in the fixed layout. -/
def layout (t : Instant) : List Char :=
  fixedDigits 4 t.date.year ++ '-' :: fixedDigits 2 t.date.month ++ '-' :: fixedDigits 2 t.date.day ++
    'T' :: fixedDigits 2 t.hour ++ ':' :: fixedDigits 2 t.minute ++ ':' :: fixedDigits 2 t.second ++
    '.' :: fixedDigits 6 t.microsecond ++ ['Z']

end Instant

end SurfaceWater
