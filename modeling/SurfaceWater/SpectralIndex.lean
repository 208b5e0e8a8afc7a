import SurfaceWater.Pixel

/-!
# Spectral indices

Normalized differences of the reflectance in two bands.
-/

namespace SurfaceWater

inductive SpectralIndex where
  | ndvi
  | ndwi
  | ndwi2
  deriving DecidableEq, Repr

/-- The difference of two numbers relative to their sum, zero where the sum is. -/
def normalizedDifference (a b : Binary32) : Binary32 :=
  let sum := a + b
  if sum.isZero then 0 else (a - b) / sum

namespace SpectralIndex

/-- The band that counts for an index and the one that counts against it. -/
def bands : SpectralIndex → Band × Band
  | ndvi => (.red, .nir2)
  | ndwi => (.blue, .nir1)
  | ndwi2 => (.coastal, .nir2)

def ofPixel (index : SpectralIndex) (pixel : CalibratedPixel) : Binary32 :=
  normalizedDifference (pixel.reflectance.get index.bands.1) (pixel.reflectance.get index.bands.2)

end SpectralIndex

end SurfaceWater
