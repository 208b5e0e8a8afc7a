import SurfaceWater.Band

/-!
# Pixels

One place of an image, before and after calibration. Whether a pixel holds data is decided when it
is read and never changed.
-/

namespace SurfaceWater

/-- Digital numbers of one pixel. -/
structure RawPixel where
  dn : BandVector UInt16
  valid : Bool
  deriving DecidableEq

/-- The pixel of a sequence of digital numbers, if there is one for every band. -/
def RawPixel.ofSamples? (samples : Array UInt16) (valid : Bool) : Option RawPixel :=
  if h : samples.size = bandCount then some ⟨⟨samples, h⟩, valid⟩ else none

/-- Top-of-atmosphere reflectance of one pixel. -/
structure CalibratedPixel where
  reflectance : BandVector Binary32
  valid : Bool
  deriving DecidableEq

end SurfaceWater
