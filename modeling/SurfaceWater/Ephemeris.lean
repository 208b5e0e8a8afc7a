import SurfaceWater.Instant
import SurfaceWater.Numeric.Cosine

/-!
# The Sun

The Julian day of an instant, and a low-precision ephemeris for the distance of the Earth from the
Sun. The Julian day is one formula over any kind of number; images are calibrated with its double
precision value.
-/

namespace SurfaceWater

/-- Days and their fraction since the Julian epoch, in the arithmetic of `K`. -/
def Instant.julianDay (K : Type) [Add K] [Mul K] [Div K] [IntCast K] [OfScientific K] (t : Instant) : K :=
  let seconds : K := ((t.secondOfDay : Int) : K) + ((t.nanosecond : Int) : K) * 1e-9
  ((t.date.dayNumber : Int) : K) + 1721424.5 + seconds / 86400.0

namespace Binary64

def pi : Binary64 := 3.14159265358979323846264338327950288

def radians (degrees : Binary64) : Binary64 := degrees * (pi / 180.0)

end Binary64

/-- Earth–Sun distance in astronomical units, from the mean anomaly `g = 357.529° + 0.98560028° n`
at `n` days after the epoch J2000. -/
def Instant.earthSunDistance (t : Instant) : Binary64 :=
  let days := t.julianDay Binary64 - 2451545.0
  let anomaly := Binary64.radians (357.529 + 0.98560028 * days)
  1.00014 - 0.01671 * anomaly.cos - 0.00014 * (2.0 * anomaly : Binary64).cos

end SurfaceWater
