import SurfaceWater.Detection.Workers
import SurfaceWater.Rule

/-!
# Parameters of a run
-/

namespace SurfaceWater

structure DetectionParams where
  /-- The length of the edge of a tile, and the height of the strips of the result. -/
  tileSize : Nat
  mode : ProcessingMode
  rule : WaterRule
  deriving DecidableEq

namespace DetectionParams

/-- The parameters of a run that names none. -/
def standard : DetectionParams := ⟨256, .parallel, .standard⟩

/-- Tiles must have an edge, pools a thread, and thresholds finite values. Of several faults the
first in this order counts. -/
def validate (params : DetectionParams) : Except Error Unit := do
  if params.tileSize = 0 then throw (.parameter .tileSize)
  if params.mode = .parallelWith 0 then throw (.parameter .threads)
  params.rule.validate

end DetectionParams

end SurfaceWater
