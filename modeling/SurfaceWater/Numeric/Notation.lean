import SurfaceWater.Numeric.Shortest

/-!
# Written numbers

How the digits of a number are laid out. A *notation* collects what the places that write numbers
decide: which magnitudes are written positionally, whether a whole number keeps a zero after its
point, the sign of an exponent, and the names of the values that have no digits. Numbers with a set
number of places are rounded from their exact value, ties to even.
-/

namespace SurfaceWater

/-- The decisions of a number format. A magnitude whose leading digit has the decimal exponent `e`
is positional when `e` is at least `positionalFrom` and below `positionalBelow`, where given. -/
structure NumberStyle where
  positionalFrom : Option Int
  positionalBelow : Option Int
  pointZero : Bool
  plusExponent : Bool
  tie : Tie
  nanText : String
  infinityText : String
  negativeInfinityText : String

namespace NumberStyle

/-- Digits alone, as messages and reports quote a number. -/
def plain : NumberStyle where
  positionalFrom := none
  positionalBelow := none
  pointZero := false
  plusExponent := false
  tie := .up
  nanText := "NaN"
  infinityText := "inf"
  negativeInfinityText := "-inf"

/-- Always with a point or an exponent, as structured values are described. -/
def described : NumberStyle where
  positionalFrom := some (-4)
  positionalBelow := some 16
  pointZero := true
  plusExponent := false
  tie := .up
  nanText := "NaN"
  infinityText := "inf"
  negativeInfinityText := "-inf"

/-- Always with an exponent, as coefficients are written into metadata. -/
def scientific : NumberStyle where
  positionalFrom := some 0
  positionalBelow := some 0
  pointZero := false
  plusExponent := false
  tie := .up
  nanText := "NaN"
  infinityText := "inf"
  negativeInfinityText := "-inf"

end NumberStyle

/-- The decimal digits of a number, at least `width` of them. -/
def paddedDigits (width n : Nat) : List Char :=
  let digits := Nat.toDigits 10 n
  List.replicate (width - digits.length) '0' ++ digits

namespace Decimal

/-- The decimal exponent of the leading digit. -/
def leadingExponent (d : Decimal) : Int := (Nat.toDigits 10 d.digits).length - 1 + d.exponent

/-- Digits with a point where it belongs. -/
def positional (pointZero : Bool) (d : Decimal) : List Char :=
  let digits := Nat.toDigits 10 d.digits
  let point : Int := digits.length + d.exponent
  if 0 ≤ d.exponent then
    digits ++ List.replicate d.exponent.toNat '0' ++ (if pointZero then ['.', '0'] else [])
  else if 0 < point then digits.take point.toNat ++ '.' :: digits.drop point.toNat
  else '0' :: '.' :: (List.replicate (-point).toNat '0' ++ digits)

/-- One digit before the point, and an exponent. -/
def withExponent (plusExponent : Bool) (d : Decimal) : List Char :=
  let digits := Nat.toDigits 10 d.digits
  let exponent := d.leadingExponent
  let mantissa := match digits with
    | lead :: next :: rest => lead :: '.' :: next :: rest
    | short => short
  let sign := if exponent < 0 then ['-'] else if plusExponent then ['+'] else []
  mantissa ++ 'e' :: sign ++ Nat.toDigits 10 exponent.natAbs

end Decimal

namespace NumberStyle

def inRange (style : NumberStyle) (exponent : Int) : Bool :=
  style.positionalFrom.all (· ≤ exponent) && style.positionalBelow.all (exponent < ·)

/-- Zero is positional unless nothing is. -/
def layout (style : NumberStyle) (d : Decimal) : List Char :=
  let positional := if d.digits = 0 then style.positionalFrom != style.positionalBelow || style.positionalFrom.isNone
    else style.inRange d.leadingExponent
  if positional then d.positional style.pointZero else d.withExponent style.plusExponent

/-- A number in the fewest digits that read back to it. -/
def write {f : Format} (style : NumberStyle) : Binary f → String
  | .nan => style.nanText
  | x@(.signed negative word) =>
    if x.isFinite then
      let digits := if x.isZero then ⟨0, 0⟩ else f.shortest style.tie word
      String.ofList ((if negative then ['-'] else []) ++ style.layout digits)
    else if negative then style.negativeInfinityText else style.infinityText

end NumberStyle

/-! ### A set number of places -/

/-- Digits of `n` with a point before the last `places` of them. -/
def withPlaces (places n : Nat) : List Char :=
  let digits := paddedDigits (places + 1) n
  let whole := digits.take (digits.length - places)
  if places = 0 then whole else whole ++ '.' :: digits.drop (digits.length - places)

private def named {f : Format} (x : Binary f) : String := NumberStyle.plain.write x

/-- A number with so many places after the point. -/
def Binary.writeFixed {f : Format} (places : Nat) (x : Binary f) : String :=
  match x.magnitude? with
  | none => named x
  | some units =>
    let sign := if x.isNegative then ['-'] else []
    String.ofList (sign ++ withPlaces places (roundQuotient (units * 10 ^ places) (2 ^ f.scale)))

/-- A magnitude of so many units, rounded to one digit before the point and `places` after it.
Rounding up to the next power of ten drops the digit that became zero. -/
def Format.roundScientific (f : Format) (places units : Nat) : Decimal :=
  if units = 0 then ⟨0, -places⟩
  else
    let exponent := f.decimalPoint units - 1 - places
    let digits := roundQuotient (units * 10 ^ (-exponent).toNat) (2 ^ f.scale * 10 ^ exponent.toNat)
    if digits = 10 ^ (places + 1) then ⟨10 ^ places, exponent + 1⟩ else ⟨digits, exponent⟩

/-- A number with an exponent and so many places after the point. -/
def Binary.writeScientific {f : Format} (places : Nat) (x : Binary f) : String :=
  match x.magnitude? with
  | none => named x
  | some units =>
    let d := f.roundScientific places units
    let exponent := d.exponent + places
    let sign := if x.isNegative then ['-'] else []
    let mark := if exponent < 0 then ['e', '-'] else ['e']
    String.ofList (sign ++ withPlaces places d.digits ++ mark ++ Nat.toDigits 10 exponent.natAbs)

/-- Fills a text up to a width with blanks in front of it. -/
def alignRight (width : Nat) (text : String) : String :=
  String.ofList (List.replicate (width - text.length) ' ') ++ text

/-- Fills a text up to a width with blanks after it. -/
def alignLeft (width : Nat) (text : String) : String :=
  text ++ String.ofList (List.replicate (width - text.length) ' ')

end SurfaceWater
