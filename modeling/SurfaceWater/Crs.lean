import SurfaceWater.Json.Value

/-!
# Coordinate reference systems

Which system the coordinates of an image belong to: its number in the EPSG register, a citation in
words, or both.
-/

namespace SurfaceWater

structure Crs where
  epsg : Option Nat
  citation : Option String
  deriving DecidableEq, Repr

namespace Crs

def ofEpsg (code : Nat) : Crs := ⟨some code, none⟩

def ofCitation (citation : String) : Crs := ⟨none, some citation⟩

def withCitation (crs : Crs) (citation : String) : Crs := { crs with citation := some citation }

/-- The shortest name of a system. -/
def identifier (crs : Crs) : String :=
  match crs.epsg, crs.citation with
  | some code, _ => s!"EPSG:{code}"
  | none, some citation => citation
  | none, none => "Unknown"

def toJson (crs : Crs) : Json :=
  .record [("epsg", Json.ofOption Json.ofNat crs.epsg), ("citation", Json.ofOption Json.text crs.citation)]

end Crs

end SurfaceWater
