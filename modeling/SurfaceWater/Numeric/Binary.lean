import SurfaceWater.Numeric.Power

/-!
# Binary floating-point numbers

Coefficients, radiances and indices are kept in single precision, coordinates and solar geometry in
double precision. Both are one type here, indexed by its format: a value is NaN, or a sign and a
*word*, the bits of its magnitude read as a natural number. Words of larger magnitudes are larger,
infinity is the largest word, and every finite magnitude is a whole number of *units*, the least
positive magnitude of the format. An operation computes exactly in units and rounds once, to nearest
with ties to even, so that all of them can be evaluated and reasoned about in natural numbers.
-/

namespace SurfaceWater

/-- An interchange format: the width of the fraction and of the exponent field. -/
structure Format where
  fractionBits : Nat
  exponentBits : Nat
  deriving DecidableEq, Repr

namespace Format

def single : Format := ⟨23, 8⟩

def double : Format := ⟨52, 11⟩

/-- The word of infinity. All smaller words belong to finite magnitudes. -/
def infinityWord (f : Format) : Nat := (2 ^ f.exponentBits - 1) * 2 ^ f.fractionBits

/-- One unit is `2 ^ -scale`. -/
def scale (f : Format) : Nat := 2 ^ (f.exponentBits - 1) - 2 + f.fractionBits

/-- How many units a word stands for. The word after the largest finite one counts as the next power
of two, which is where rounding to infinity begins. -/
def units (f : Format) (word : Nat) : Nat :=
  let shift := word / 2 ^ f.fractionBits - 1
  (word - shift * 2 ^ f.fractionBits) * 2 ^ shift

end Format

/-- The whole number nearest to `num / den`, the even one of two equally near. -/
def roundQuotient (num den : Nat) : Nat :=
  let quotient := num / den
  match compare (2 * (num % den)) den with
  | .lt => quotient
  | .gt => quotient + 1
  | .eq => if quotient % 2 = 0 then quotient else quotient + 1

/-- The word of the magnitude nearest to `num / den` units. Rounding up past a power of two carries
into the exponent field, and past the largest finite magnitude into infinity. -/
def Format.roundWord (f : Format) (num den : Nat) : Nat :=
  let shift := (num / den).log2 - f.fractionBits
  min (shift * 2 ^ f.fractionBits + roundQuotient num (den * 2 ^ shift)) f.infinityWord

/-- A number of the format. The many bit patterns of NaN are one value. -/
inductive Binary (f : Format) where
  | nan
  | signed (negative : Bool) (word : Fin (f.infinityWord + 1))
  deriving DecidableEq

abbrev Binary32 := Binary .single

abbrev Binary64 := Binary .double

namespace Binary

variable {f : Format}

instance : Inhabited (Binary f) := ⟨.signed false 0⟩

/-- The number of the given sign nearest to `num / den` units. -/
def ofUnits (negative : Bool) (num den : Nat) : Binary f :=
  .signed negative ⟨f.roundWord num den, Nat.lt_succ_of_le (Nat.min_le_right ..)⟩

/-- The number of the given sign nearest to `num / den`. -/
def ofRatio (negative : Bool) (num den : Nat) : Binary f := ofUnits negative (num * 2 ^ f.scale) den

def zero (negative : Bool) : Binary f := .signed negative 0

def infinity (negative : Bool) : Binary f := .signed negative (Fin.last _)

def ofNat (n : Nat) : Binary f := ofRatio false n 1

def ofInt (i : Int) : Binary f := ofRatio (decide (i < 0)) i.natAbs 1

/-- The number nearest to `digits * 10 ^ exponent`. Exponents beyond the reach of the format are
answered before the power is formed: the format's largest magnitude is below
`10 ^ 2 ^ exponentBits`, and half its least one above the reciprocal of that. -/
def ofDecimal (negative : Bool) (digits : Nat) (exponent : Int) : Binary f :=
  if digits = 0 then zero negative
  else if ((2 ^ f.exponentBits : Nat) : Int) < exponent then infinity negative
  else if exponent < -((2 ^ f.exponentBits + digits.log2 : Nat) : Int) then zero negative
  else if 0 ≤ exponent then ofRatio negative (digits * 10 ^ exponent.toNat) 1
  else ofRatio negative digits (10 ^ (-exponent).toNat)

instance {n : Nat} : OfNat (Binary f) n := ⟨ofNat n⟩

instance : NatCast (Binary f) := ⟨ofNat⟩

instance : IntCast (Binary f) := ⟨ofInt⟩

instance : OfScientific (Binary f) where
  ofScientific digits down exponent := ofDecimal false digits (if down then -(exponent : Int) else exponent)

/-! ### Views -/

def isNaN : Binary f → Bool
  | nan => true
  | signed .. => false

def isNegative : Binary f → Bool
  | nan => false
  | signed negative _ => negative

/-- The units of the magnitude of a finite number. -/
def magnitude? : Binary f → Option Nat
  | nan => none
  | signed _ word => if word.val < f.infinityWord then some (f.units word) else none

def isFinite (x : Binary f) : Bool := x.magnitude?.isSome

def isZero : Binary f → Bool
  | nan => false
  | signed _ word => word.val = 0

/-- Where a number stands in the order of the format. Both zeros stand at `0`. -/
def rank? : Binary f → Option Int
  | nan => none
  | signed negative word => some (if negative then -word.val else word.val)

def le (x y : Binary f) : Bool :=
  match x.rank?, y.rank? with
  | some a, some b => a ≤ b
  | _, _ => false

def lt (x y : Binary f) : Bool :=
  match x.rank?, y.rank? with
  | some a, some b => a < b
  | _, _ => false

/-- NaN is neither at most nor at least any number. -/
instance : LE (Binary f) := ⟨fun x y => x.le y = true⟩

instance : LT (Binary f) := ⟨fun x y => x.lt y = true⟩

instance : DecidableLE (Binary f) := fun x y => inferInstanceAs (Decidable (x.le y = true))

instance : DecidableLT (Binary f) := fun x y => inferInstanceAs (Decidable (x.lt y = true))

/-- The lesser of two numbers. NaN gives way to the other operand. -/
def min (x y : Binary f) : Binary f :=
  if x.isNaN then y else if y.isNaN then x else if y < x then y else x

/-- The greater of two numbers. NaN gives way to the other operand. -/
def max (x y : Binary f) : Binary f :=
  if x.isNaN then y else if y.isNaN then x else if x < y then y else x

/-! ### Arithmetic -/

def neg : Binary f → Binary f
  | nan => nan
  | signed negative word => signed (!negative) word

def abs : Binary f → Binary f
  | nan => nan
  | signed _ word => signed false word

private def signedUnits (negative : Bool) (units : Nat) : Int := if negative then -units else units

/-- A sum of opposite numbers is positive zero. -/
def add : Binary f → Binary f → Binary f
  | nan, _ => nan
  | _, nan => nan
  | x@(signed s _), y@(signed t _) =>
    match x.magnitude?, y.magnitude? with
    | some a, some b =>
      let sum := signedUnits s a + signedUnits t b
      if sum = 0 then zero (s && t) else ofUnits (decide (sum < 0)) sum.natAbs 1
    | some _, none => y
    | none, some _ => x
    | none, none => if s = t then x else nan

def sub (x y : Binary f) : Binary f := x.add y.neg

def mul : Binary f → Binary f → Binary f
  | nan, _ => nan
  | _, nan => nan
  | x@(signed s _), y@(signed t _) =>
    match x.magnitude?, y.magnitude? with
    | some a, some b => ofUnits (s != t) (a * b) (2 ^ f.scale)
    | _, _ => if x.isZero || y.isZero then nan else infinity (s != t)

def div : Binary f → Binary f → Binary f
  | nan, _ => nan
  | _, nan => nan
  | x@(signed s _), y@(signed t _) =>
    match x.magnitude?, y.magnitude? with
    | some a, some b =>
      if b = 0 then if a = 0 then nan else infinity (s != t)
      else ofUnits (s != t) (a * 2 ^ f.scale) b
    | some _, none => zero (s != t)
    | none, some _ => infinity (s != t)
    | none, none => nan

instance : Neg (Binary f) := ⟨neg⟩

instance : Add (Binary f) := ⟨add⟩

instance : Sub (Binary f) := ⟨sub⟩

instance : Mul (Binary f) := ⟨mul⟩

instance : Div (Binary f) := ⟨div⟩

def convert (g : Format) : Binary f → Binary g
  | nan => nan
  | x@(signed s _) =>
    match x.magnitude? with
    | some a => ofUnits s (a * 2 ^ g.scale) (2 ^ f.scale)
    | none => infinity s

/-! ### Bit patterns -/

/-- The bit pattern of a number. NaN has only the first bit of its fraction set. -/
def toBits : Binary f → Nat
  | nan => f.infinityWord + 2 ^ (f.fractionBits - 1)
  | signed negative word => (if negative then 2 ^ (f.exponentBits + f.fractionBits) else 0) + word

/-- The number of a bit pattern. Bits above the sign are ignored. -/
def ofBits (bits : Nat) : Binary f :=
  let magnitudes := 2 ^ (f.exponentBits + f.fractionBits)
  if h : bits % magnitudes < f.infinityWord + 1 then .signed (bits / magnitudes % 2 = 1) ⟨bits % magnitudes, h⟩
  else .nan

end Binary

end SurfaceWater
