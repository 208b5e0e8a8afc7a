import SurfaceWater.Numeric.Numeral

/-!
# Shortest decimals

Which digits a number is written with: the fewest that read back to it, and of those the nearest to
it. The reals that read back to a word are those between its midpoints with the words below and
above, the midpoints included exactly when the word is even. A coarser decimal grid has a point in
that interval only if one of the two grid points around the number is in it, so only these are
tried, grid after grid.
-/

namespace SurfaceWater

/-- Which of two equally near decimals is written. -/
inductive Tie where
  | even
  | up
  deriving DecidableEq, Repr

/-- Compares `digits * 10 ^ exponent` with `num / den`. -/
def Decimal.compareRatio (d : Decimal) (num den : Nat) : Ordering :=
  compare (d.digits * 10 ^ d.exponent.toNat * den) (num * 10 ^ (-d.exponent).toNat)

/-- Moves trailing zeros of the digits into the exponent. -/
def Decimal.stripZeros : Nat → Decimal → Decimal
  | 0, d => d
  | fuel + 1, d =>
    if d.digits ≠ 0 ∧ d.digits % 10 = 0 then stripZeros fuel ⟨d.digits / 10, d.exponent + 1⟩ else d

namespace Format

/-- A decimal lies among the reals that round to a word. -/
def readsBack (f : Format) (word : Nat) (d : Decimal) : Bool :=
  let unitsBelow := f.units (word - 1)
  let unitsHere := f.units word
  let unitsAbove := f.units (word + 1)
  let den := 2 ^ (f.scale + 1)
  match d.compareRatio (unitsBelow + unitsHere) den, d.compareRatio (unitsHere + unitsAbove) den with
  | .gt, .lt => true
  | .eq, _ => word % 2 = 0
  | _, .eq => word % 2 = 0
  | _, _ => false

/-- How many digits a positive number of units has before the point; for a number below one, minus
the zeros after it. -/
def decimalPoint (f : Format) (units : Nat) : Int :=
  let one := 2 ^ f.scale
  if one ≤ units then (Nat.toDigits 10 (units / one)).length
  else 1 - ((Nat.toDigits 10 ((one - 1) / units)).length : Int)

/-- The grid point below the number and the one above, each only if it reads back; of two the
nearer. -/
def nearestOnGrid (f : Format) (tie : Tie) (word : Nat) (exponent : Int) : Option Decimal :=
  let num := f.units word * 10 ^ (-exponent).toNat
  let den := 2 ^ f.scale * 10 ^ exponent.toNat
  let below : Decimal := ⟨num / den, exponent⟩
  let above : Decimal := ⟨num / den + 1, exponent⟩
  match f.readsBack word below, f.readsBack word above with
  | true, false => some below
  | false, true => some above
  | false, false => none
  | true, true =>
    match compare (2 * (num % den)) den with
    | .lt => some below
    | .gt => some above
    | .eq => some (if tie = .even ∧ below.digits % 2 = 0 then below else above)

/-- The shortest decimal of the positive number of a word. Seventeen digits identify a number of
either format; were none found, the number is written exactly. -/
def shortest (f : Format) (tie : Tie) (word : Nat) : Decimal :=
  let point := f.decimalPoint (f.units word)
  let found := (List.range 17).findSome? fun (n : Nat) => f.nearestOnGrid tie word (point - (n + 1 : Nat))
  (found.getD ⟨f.units word * 5 ^ f.scale, -f.scale⟩).stripZeros 1100

end Format

end SurfaceWater
