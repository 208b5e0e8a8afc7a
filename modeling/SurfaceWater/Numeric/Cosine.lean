import SurfaceWater.Numeric.Binary

/-!
# The cosine

Evaluated in fixed point and rounded once. Angles are reduced by a value of π with enough places for
the largest finite double, so that an angle of any size has its proper cosine, and the power series
is summed far below the last place of any result.
-/

namespace SurfaceWater

namespace FixedPoint

/-- Binary places of the reduced angle: as many as the largest angle has before its point, and
several hundred more. -/
def places : Nat := 1536

/-- The sum `t - t / (3 x²) + t / (5 x⁴) - …`, given the current power of `1 / x`. -/
def arctanSeries (square : Nat) : Nat → Nat → Nat → Int → Int
  | 0, _, _, sum => sum
  | fuel + 1, index, power, sum =>
    if power = 0 then sum
    else
      let term : Int := power / (2 * index + 1)
      arctanSeries square fuel (index + 1) (power / square) (if index % 2 = 0 then sum + term else sum - term)

/-- The angle whose tangent is `1 / x`, in units of `2 ^ -bits`. -/
def arctanInverse (bits x : Nat) : Int := arctanSeries (x * x) bits 0 (2 ^ bits / x) 0

/-- The number π in units of `2 ^ -places`, as `16 arctan (1/5) - 4 arctan (1/239)`. -/
def pi : Nat :=
  let guard := 64
  ((16 * arctanInverse (places + guard) 5 - 4 * arctanInverse (places + guard) 239) / (2 ^ guard : Nat)).toNat

/-- Binary places of the power series. -/
def seriesPlaces : Nat := 384

/-- The sum `t - t x² / 2 + t x⁴ / 24 - …`, given the current term. -/
def cosineSeries (square : Nat) : Nat → Nat → Nat → Int → Int
  | 0, _, _, sum => sum
  | fuel + 1, index, term, sum =>
    let next := term * square / 2 ^ seriesPlaces / ((2 * index + 1) * (2 * index + 2))
    cosineSeries square fuel (index + 1) next (if index % 2 = 0 then sum + term else sum - term)

/-- The cosine of an angle between zero and a quarter turn, in units of `2 ^ -seriesPlaces`. -/
def cosineOfAcute (angle : Nat) : Int :=
  let x := angle / 2 ^ (places - seriesPlaces)
  cosineSeries (x * x / 2 ^ seriesPlaces) 64 0 (2 ^ seriesPlaces) 0

/-- The cosine of any angle, which is even, has period 2π, and changes its sign under reflection at
a quarter turn. -/
def cosine (angle : Nat) : Int :=
  let turn := angle % (2 * pi)
  let half := if pi < turn then 2 * pi - turn else turn
  if pi < 2 * half then -cosineOfAcute (pi - half) else cosineOfAcute half

end FixedPoint

namespace Binary

open FixedPoint in
/-- The cosine of an angle in radians. -/
def cos {f : Format} (x : Binary f) : Binary f :=
  match x.magnitude? with
  | none => nan
  | some units =>
    let value := cosine (units * 2 ^ places / 2 ^ f.scale)
    ofRatio (decide (value < 0)) value.natAbs (2 ^ seriesPlaces)

end Binary

end SurfaceWater
