/-!
# Labels

What a pixel of the result says, and the byte that says it.
-/

namespace SurfaceWater

inductive WaterLabel where
  | land
  | water
  | noData
  deriving DecidableEq, Repr

namespace WaterLabel

/-- The byte of a label in a label raster. -/
def value : WaterLabel → UInt8
  | land => 1
  | water => 2
  | noData => 255

/-- The label of a byte, if it is one. -/
def ofValue? (value : UInt8) : Option WaterLabel := [land, water, noData].find? fun label => label.value = value

/-- The name of a label in reports. -/
def name : WaterLabel → String
  | land => "land"
  | water => "water"
  | noData => "nodata"

/-- The name of a label in structured data. -/
def key : WaterLabel → String
  | land => "Land"
  | water => "Water"
  | noData => "NoData"

end WaterLabel

end SurfaceWater
