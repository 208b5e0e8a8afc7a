import SurfaceWater.Ephemeris
import SurfaceWater.Metadata.Basic
import SurfaceWater.Pixel

/-!
# Calibration

From digital numbers to top-of-atmosphere reflectance. The radiance of a band is its digital number
times its gain, and its reflectance is the radiance times a factor of the whole scene,
`d² π / cos z` for the distance `d` and the zenith angle `z` of the Sun, divided by the irradiance of
the band. The factor is found in double precision, all else is computed in single precision.
-/

namespace SurfaceWater

structure Calibrator where
  gains : BandVector Binary32
  irradiances : BandVector Binary32
  scale : Binary32
  deriving DecidableEq

namespace Calibrator

/-- The factor that all bands of a scene share. -/
def sceneScale (g : SceneGeometry) : Binary32 :=
  let d := g.earthSunDistance
  (d * d * Binary64.pi / (Binary64.radians g.sunZenith).cos).convert .single

def ofMetadata (m : SceneMetadata) : Calibrator where
  gains := m.coefficients.map BandCoefficients.gain
  irradiances := .ofBands Band.irradiance
  scale := sceneScale m.geometry

/-- The radiance that reached the sensor, band by band. -/
def radiance (c : Calibrator) (pixel : RawPixel) : BandVector Binary32 :=
  Vector.ofFn fun i => .ofNat (pixel.dn[i]).toNat * c.gains[i]

/-- The reflectance of a pixel, band by band. -/
def reflectance (c : Calibrator) (pixel : RawPixel) : CalibratedPixel :=
  let radiance := c.radiance pixel
  ⟨Vector.ofFn fun i => radiance[i] * c.scale / c.irradiances[i], pixel.valid⟩

end Calibrator

end SurfaceWater
