import SurfaceWater.Json.Value

/-!
# Numbers in JSON

The number that a numeral of JSON is taken for. An integer that fits 64 bits is exact. Any other
numeral is a double: its first digits, as many as fit 64 bits, are rounded to a double, which is
then multiplied or divided by a power of ten. Two roundings may put the result a last place off the
nearest double; a result beyond all doubles is refused.
-/

namespace SurfaceWater

inductive JsonNumber where
  | integer (value : Int)
  | real (value : Binary64)
  deriving DecidableEq

namespace JsonNumber

def wordLimit : Nat := UInt64.size

/-- Appends digits to a number while it stays below `wordLimit`, and counts the digits left over. -/
def appendDigits : Nat → List Char → Nat × Nat
  | n, [] => (n, 0)
  | n, c :: rest =>
    let next := 10 * n + (c.toNat - 48)
    if next < wordLimit then appendDigits next rest else (n, (c :: rest).length)

/-- The largest power of ten that a double is divided by at once. -/
def decimalReach : Nat := 308

def powerOfTen (n : Nat) : Binary64 := .ofDecimal false 1 n

/-- Divides by a power of ten, in steps that doubles can take. The first number bounds the steps;
three reach zero from any 64-bit number. -/
def divideByPower : Nat → Binary64 → Nat → Binary64
  | 0, _, _ => .zero false
  | steps + 1, x, n =>
    if n ≤ decimalReach then x / powerOfTen n
    else if x.isZero then x
    else divideByPower steps (x / powerOfTen decimalReach) (n - decimalReach)

/-- A number of at most 64 bits times a power of ten, unless that is beyond all doubles. -/
def scaled? (significand : Nat) (exponent : Int) : Option Binary64 :=
  let x := Binary.ofNat significand
  if exponent < 0 then some (divideByPower 4 x exponent.natAbs)
  else if exponent ≤ decimalReach then
    let product := x * powerOfTen exponent.toNat
    if product.isFinite then some product else none
  else if x.isZero then some x
  else none

/-- The largest exponent that is read as written. -/
def exponentLimit : Nat := 2147483647

/-- The number of a numeral, whose parts have been told apart. -/
def ofParts? (negative : Bool) (whole fraction : List Char) (exponent : Option (Bool × List Char)) :
    Option JsonNumber :=
  let (leading, dropped) := appendDigits 0 whole
  let sign (x : Binary64) : JsonNumber := .real (if negative then x.neg else x)
  if fraction.isEmpty && exponent.isNone && dropped = 0 then
    if !negative then some (.integer leading)
    else if leading = 0 || wordLimit < 2 * leading then some (sign (.ofNat leading))
    else some (.integer (-leading))
  else
    let (significand, cut) := appendDigits leading fraction
    let point : Int := dropped - (fraction.length - cut : Nat)
    match exponent with
    | none => (scaled? significand point).map sign
    | some (down, digits) =>
      let size := digitsValue digits
      if exponentLimit < size then
        if significand = 0 || down then some (sign (.zero false)) else none
      else (scaled? significand (if down then point - size else point + size)).map sign

def ofLiteral? (literal : List Char) : Option JsonNumber :=
  let (negative, unsigned) := match literal with
    | '-' :: rest => (true, rest)
    | _ => (false, literal)
  let (whole, afterWhole) := unsigned.span Char.isDigit
  let (fraction, afterFraction) := match afterWhole with
    | '.' :: rest => rest.span Char.isDigit
    | rest => ([], rest)
  match afterFraction with
  | _ :: rest => ofParts? negative whole fraction (some (splitSign rest))
  | [] => ofParts? negative whole fraction none

def toBinary {f : Format} : JsonNumber → Binary f
  | integer value => .ofInt value
  | real value => value.convert f

end JsonNumber

namespace Json

/-- A value as a number of a format. -/
def binary? {f : Format} : Json → Option (Binary f)
  | number literal => (JsonNumber.ofLiteral? literal).map JsonNumber.toBinary
  | _ => none

def text? : Json → Option String
  | string chars => charsText? chars
  | _ => none

/-- The values of named fields, in the order of the names. A record is written as an object, which
may have further fields but none of these twice, or as an array of exactly the values. -/
def fields? (names : List String) : Json → Option (List Json)
  | array items => if items.length = names.length then some items else none
  | object members => do
    let named ← members.mapM fun (key, value) => (charsText? key).map fun key => (key, value)
    names.mapM fun name =>
      match named.filter (·.1 = name) with
      | [(_, value)] => some value
      | _ => none
  | _ => none

end Json

end SurfaceWater
