import SurfaceWater.Band

/-!
# Scene metadata

What calibration needs to know about a scene: two coefficients per band, and the position of the Sun
when the scene was taken.
-/

namespace SurfaceWater

/-- Linear calibration coefficients of one band. -/
structure BandCoefficients where
  absCalFactor : Binary32
  effectiveBandwidth : Binary32
  deriving DecidableEq

/-- Radiance per digital number. -/
def BandCoefficients.gain (c : BandCoefficients) : Binary32 := c.absCalFactor / c.effectiveBandwidth

/-- The Sun as seen from the scene: its mean elevation in degrees, its distance in astronomical
units, and the instant of the first image line for which that distance holds. -/
structure SceneGeometry where
  meanSunElevation : Binary32
  earthSunDistance : Binary64
  firstLineTime : String
  deriving DecidableEq

/-- The angle between the Sun and the vertical, in degrees. -/
def SceneGeometry.sunZenith (g : SceneGeometry) : Binary64 := 90.0 - g.meanSunElevation.convert .double

structure SceneMetadata where
  coefficients : BandVector BandCoefficients
  geometry : SceneGeometry
  deriving DecidableEq

end SurfaceWater
