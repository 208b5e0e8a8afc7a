import SurfaceWater.Json.Number
import SurfaceWater.Json.Printer
import SurfaceWater.Json.Reader
import SurfaceWater.Metadata.Basic

/-!
# Metadata as JSON

Scene metadata as structured data, and back.
-/

namespace SurfaceWater

namespace BandCoefficients

def toJson (c : BandCoefficients) : Json :=
  .record [("abs_cal_factor", .ofSingle c.absCalFactor), ("effective_bandwidth", .ofSingle c.effectiveBandwidth)]

def ofJson? (json : Json) : Option BandCoefficients := do
  let [factor, bandwidth] ← json.fields? ["abs_cal_factor", "effective_bandwidth"] | none
  return ⟨← factor.binary?, ← bandwidth.binary?⟩

end BandCoefficients

namespace SceneGeometry

def toJson (g : SceneGeometry) : Json :=
  .record [("mean_sun_elevation", .ofSingle g.meanSunElevation), ("earth_sun_distance", .ofDouble g.earthSunDistance),
    ("first_line_time", .text g.firstLineTime)]

def ofJson? (json : Json) : Option SceneGeometry := do
  let [elevation, distance, time] ←
    json.fields? ["mean_sun_elevation", "earth_sun_distance", "first_line_time"] | none
  return ⟨← elevation.binary?, ← distance.binary?, ← time.text?⟩

end SceneGeometry

/-- One value for every band, as an array. -/
def BandVector.ofJson? {α : Type} (read : Json → Option α) : Json → Option (BandVector α)
  | .array items => do
    let values ← items.mapM read
    if h : values.toArray.size = bandCount then some ⟨values.toArray, h⟩ else none
  | _ => none

namespace SceneMetadata

def toJson (m : SceneMetadata) : Json :=
  .record [("coefficients", .record [("bands", .array (m.coefficients.toList.map BandCoefficients.toJson))]),
    ("geometry", m.geometry.toJson)]

def ofJson? (json : Json) : Option SceneMetadata := do
  let [coefficients, geometry] ← json.fields? ["coefficients", "geometry"] | none
  let [bands] ← coefficients.fields? ["bands"] | none
  return ⟨← BandVector.ofJson? BandCoefficients.ofJson? bands, ← SceneGeometry.ofJson? geometry⟩

def writeJson (layout : JsonLayout) (m : SceneMetadata) : String := m.toJson.render layout

def readJson? (text : String) : Option SceneMetadata := (Json.parse? text.toList).bind ofJson?

end SceneMetadata

end SurfaceWater
