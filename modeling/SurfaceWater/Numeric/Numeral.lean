import SurfaceWater.Numeric.Binary

/-!
# Numerals

The texts that stand for a number in a metadata file or an image tag: an optional sign, then a
decimal numeral with an optional fraction and exponent, or a name of infinity or NaN. No blanks, no
separators, ASCII only. The number read is the one nearest to what is written.
-/

namespace SurfaceWater

/-- The number `digits * 10 ^ exponent`. -/
structure Decimal where
  digits : Nat
  exponent : Int
  deriving DecidableEq, Repr

/-- What a numeral says, before it is rounded to a format. -/
inductive Numeral where
  | nan
  | infinity (negative : Bool)
  | decimal (negative : Bool) (value : Decimal)
  deriving DecidableEq, Repr

/-- The number written by decimal digits, most significant first. -/
def digitsValue (digits : List Char) : Nat := digits.foldl (fun n c => 10 * n + (c.toNat - 48)) 0

/-- The value of a text of one or more decimal digits. -/
def naturalOfDigits? (text : List Char) : Option Nat :=
  if !text.isEmpty && text.all Char.isDigit then some (digitsValue text) else none

/-- Takes a sign off the front of a text. -/
def splitSign : List Char → Bool × List Char
  | '-' :: rest => (true, rest)
  | '+' :: rest => (false, rest)
  | text => (false, text)

namespace Numeral

def lowerAscii (c : Char) : Char := if c.isUpper then Char.ofNat (c.toNat + 32) else c

/-- The power of ten named by an exponent part: nothing, or a mark and a signed digit string. -/
def exponentPart? : List Char → Option Int
  | [] => some 0
  | mark :: rest =>
    if mark = 'e' || mark = 'E' then
      let (negative, digits) := splitSign rest
      (naturalOfDigits? digits).map fun n => if negative then -n else n
    else none

/-- An unsigned decimal numeral. There must be a digit before or after the point. -/
def magnitude? (text : List Char) : Option Decimal := do
  let whole := text.takeWhile Char.isDigit
  let afterWhole := text.dropWhile Char.isDigit
  let (fraction, rest) := match afterWhole with
    | '.' :: tail => (tail.takeWhile Char.isDigit, tail.dropWhile Char.isDigit)
    | tail => ([], tail)
  if whole.isEmpty && fraction.isEmpty then none
  else
    let exponent ← exponentPart? rest
    some ⟨digitsValue (whole ++ fraction), exponent - fraction.length⟩

def read? (text : List Char) : Option Numeral :=
  let (negative, unsigned) := splitSign text
  let name := String.ofList (unsigned.map lowerAscii)
  if name = "inf" || name = "infinity" then some (.infinity negative)
  else if name = "nan" then some .nan
  else (magnitude? unsigned).map (.decimal negative)

def toBinary {f : Format} : Numeral → Binary f
  | nan => .nan
  | infinity negative => .infinity negative
  | decimal negative value => .ofDecimal negative value.digits value.exponent

end Numeral

/-- The number that a text stands for. -/
def Binary.read? {f : Format} (text : String) : Option (Binary f) :=
  (Numeral.read? text.toList).map Numeral.toBinary

end SurfaceWater
