import SurfaceWater.Error
import SurfaceWater.Json.Value
import SurfaceWater.Label
import SurfaceWater.SpectralIndex

/-!
# Classification rules

What gives a calibrated pixel its label. The rules here are thresholds on spectral indices that tell
water from land. A pixel without data is neither.
-/

namespace SurfaceWater

/-- Values of a type that classify pixels. -/
class PixelClassifier (C : Type) where
  classify : C → CalibratedPixel → WaterLabel

inductive WaterRule where
  /-- Water where NDWI exceeds a threshold. -/
  | ndwiAbove (threshold : Binary32)
  /-- Water where NDWI exceeds one threshold and NDVI is below another. -/
  | ndwiAboveNdviBelow (ndwiMin ndviMax : Binary32)
  deriving DecidableEq

namespace WaterRule

/-- The rule of a run that names none. -/
def standard : WaterRule := ndwiAbove 0.1

def bothAtZero : WaterRule := ndwiAboveNdviBelow 0 0

private def finiteThreshold (name : String) (value : Binary32) : Except Error Unit :=
  if value.isFinite then .ok () else .error (.parameter (.threshold name value))

/-- Thresholds must be finite. -/
def validate : WaterRule → Except Error Unit
  | ndwiAbove threshold => finiteThreshold "ndwi_threshold" threshold
  | ndwiAboveNdviBelow ndwiMin ndviMax => do
    finiteThreshold "ndwi_min" ndwiMin
    finiteThreshold "ndvi_max" ndviMax

/-- A comparison with an index that is not a number fails. -/
def isWater (rule : WaterRule) (pixel : CalibratedPixel) : Bool :=
  match rule with
  | ndwiAbove threshold => decide (threshold < SpectralIndex.ndwi.ofPixel pixel)
  | ndwiAboveNdviBelow ndwiMin ndviMax =>
    decide (ndwiMin < SpectralIndex.ndwi.ofPixel pixel) && decide (SpectralIndex.ndvi.ofPixel pixel < ndviMax)

def classify (rule : WaterRule) (pixel : CalibratedPixel) : WaterLabel :=
  if !pixel.valid then .noData else if rule.isWater pixel then .water else .land

instance : PixelClassifier WaterRule := ⟨classify⟩

/-- The rule with its thresholds, as logs and messages describe it. -/
def description : WaterRule → String
  | ndwiAbove threshold => s!"NdwiThreshold({NumberStyle.described.write threshold})"
  | ndwiAboveNdviBelow ndwiMin ndviMax =>
    s!"NdwiNdvi \x7b ndwi_min: {NumberStyle.described.write ndwiMin}, " ++
      s!"ndvi_max: {NumberStyle.described.write ndviMax} \x7d"

def toJson : WaterRule → Json
  | ndwiAbove threshold => .record [("NdwiThreshold", .ofSingle threshold)]
  | ndwiAboveNdviBelow ndwiMin ndviMax =>
    .record [("NdwiNdvi", .record [("ndwi_min", .ofSingle ndwiMin), ("ndvi_max", .ofSingle ndviMax)])]

end WaterRule

end SurfaceWater
