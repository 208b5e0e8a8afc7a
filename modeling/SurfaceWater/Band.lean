import SurfaceWater.Numeric.Binary

/-!
# Spectral bands

The eight bands of the sensor in the order in which an image stores them, and values kept one per
band.
-/

namespace SurfaceWater

inductive Band where
  | coastal
  | blue
  | green
  | yellow
  | red
  | redEdge
  | nir1
  | nir2
  deriving DecidableEq, Repr

abbrev bandCount : Nat := 8

/-- One value per band, in band order. -/
abbrev BandVector (α : Type) := Vector α bandCount

namespace Band

/-- All bands in image order. -/
def all : List Band := [coastal, blue, green, yellow, red, redEdge, nir1, nir2]

/-- The place of a band in a pixel. -/
def index : Band → Fin bandCount
  | coastal => 0
  | blue => 1
  | green => 2
  | yellow => 3
  | red => 4
  | redEdge => 5
  | nir1 => 6
  | nir2 => 7

/-- The band at a place in a pixel. -/
def ofIndex (i : Fin bandCount) : Band :=
  match i with
  | 0 => coastal
  | 1 => blue
  | 2 => green
  | 3 => yellow
  | 4 => red
  | 5 => redEdge
  | 6 => nir1
  | 7 => nir2

@[simp] theorem ofIndex_index (band : Band) : ofIndex band.index = band := by cases band <;> rfl

@[simp] theorem index_ofIndex (i : Fin bandCount) : (ofIndex i).index = i := by
  revert i
  decide

/-- The name of the band's group in calibration metadata. -/
def groupName : Band → String
  | coastal => "BAND_C"
  | blue => "BAND_B"
  | green => "BAND_G"
  | yellow => "BAND_Y"
  | red => "BAND_R"
  | redEdge => "BAND_RE"
  | nir1 => "BAND_N"
  | nir2 => "BAND_N2"

/-- The band that a metadata group describes, if it describes one. -/
def ofGroupName? (name : String) : Option Band := all.find? fun band => band.groupName = name

/-- The name of a band in reports. -/
def name : Band → String
  | coastal => "coastal"
  | blue => "blue"
  | green => "green"
  | yellow => "yellow"
  | red => "red"
  | redEdge => "red edge"
  | nir1 => "nir1"
  | nir2 => "nir2"

/-- The name of a band in structured data. -/
def key : Band → String
  | redEdge => "red_edge"
  | band => band.name

/-- Solar spectral irradiance averaged over the band, in W/m²/µm. -/
def irradiance : Band → Binary32
  | coastal => 1758.2229
  | blue => 1974.2416
  | green => 1856.4104
  | yellow => 1738.4791
  | red => 1559.4555
  | redEdge => 1342.0695
  | nir1 => 1069.7302
  | nir2 => 861.2866

end Band

namespace BandVector

variable {α : Type}

def get (values : BandVector α) (band : Band) : α := values[band.index]

def ofBands (value : Band → α) : BandVector α := Vector.ofFn fun i => value (Band.ofIndex i)

def set (values : BandVector α) (band : Band) (value : α) : BandVector α := Vector.set values band.index value

@[simp] theorem get_ofBands (value : Band → α) (band : Band) :
    (ofBands value).get band = value band := by
  simp [get, ofBands]

@[simp] theorem get_set (values : BandVector α) (band : Band) (value : α) :
    (values.set band value).get band = value := by
  simp [get, set]

theorem get_set_ne (values : BandVector α) {band other : Band} (value : α) (h : other ≠ band) :
    (values.set band value).get other = values.get other := by
  have hi : band.index.val ≠ other.index.val := fun he =>
    h (by rw [← Band.ofIndex_index other, ← Fin.ext he, Band.ofIndex_index])
  simp [get, set, hi]

end BandVector

end SurfaceWater
