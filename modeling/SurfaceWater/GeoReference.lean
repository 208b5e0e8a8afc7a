import SurfaceWater.Crs
import SurfaceWater.GeoTransform
import SurfaceWater.Text.Lines

/-!
# Georeferences

The tags by which an image says where it lies, kept as they are so that a result can carry them
unchanged. The directory of keys is four numbers, the last of which declares how many entries
follow; an entry is a key, the tag that holds its value or zero for a value of its own, a count, and
that value or an offset into the tag.
-/

namespace SurfaceWater

structure GeoReference where
  pixelScale : Option (List Binary64)
  tiepoints : Option (List Binary64)
  transformation : Option (List Binary64)
  geoKeys : Option (List UInt16)
  geoDoubles : Option (List Binary64)
  geoAscii : Option String
  deriving DecidableEq

structure GeoKeyEntry where
  key : UInt16
  location : UInt16
  count : UInt16
  value : UInt16
  deriving DecidableEq, Repr

namespace GeoKeyEntry

/-- The complete entries in a list of numbers. -/
def ofNumbers : List UInt16 → List GeoKeyEntry
  | key :: location :: count :: value :: rest => ⟨key, location, count, value⟩ :: ofNumbers rest
  | _ => []

end GeoKeyEntry

namespace GeoReference

/-! ### Tags and keys -/

def pixelScaleTag : UInt16 := 33550

def tiepointsTag : UInt16 := 33922

def transformationTag : UInt16 := 34264

def geoKeysTag : UInt16 := 34735

def geoDoublesTag : UInt16 := 34736

def geoAsciiTag : UInt16 := 34737

def citationKey : UInt16 := 1026

def geographicTypeKey : UInt16 := 2048

def projectedTypeKey : UInt16 := 3072

def projectedCitationKey : UInt16 := 3073

/-- The code of a system that no register lists. -/
def userDefined : UInt16 := 32767

/-- The placement that the tags define: by scale and tiepoint, otherwise by a matrix. -/
def geoTransform? (g : GeoReference) : Option (GeoTransform Binary64) :=
  let byTiepoint := match g.pixelScale, g.tiepoints with
    | some scale, some tiepoint => GeoTransform.ofTiepoint? scale tiepoint
    | _, _ => none
  byTiepoint <|> g.transformation.bind GeoTransform.ofMatrix?

/-- The entries of the key directory, at most as many as it declares. -/
def entries (g : GeoReference) : List GeoKeyEntry :=
  let keys := g.geoKeys.getD []
  let declared := (keys[3]?.getD 0).toNat
  (GeoKeyEntry.ofNumbers (keys.drop 4)).take declared

/-- The value that a key has of its own. -/
def keyValue? (g : GeoReference) (key : UInt16) : Option UInt16 :=
  (g.entries.find? fun entry => entry.key = key && entry.location = 0).map (·.value)

/-- The part of a text between two offsets into its bytes, if both stand between characters. -/
def byteRange? (text : String) (start stop : Nat) : Option String :=
  let bytes := Text.encode text
  if start ≤ stop && stop ≤ bytes.length then
    match Text.decode? (bytes.take start), Text.decode? ((bytes.take stop).drop start) with
    | some _, some part => some part
    | _, _ => none
  else none

/-- Bars and nulls that end a citation are no part of it. -/
def trimCitation (text : String) : String :=
  String.ofList ((text.toList.reverse.dropWhile fun c => c = '|' || c = '\x00').reverse)

/-- The text that a key has in the text tag. -/
def keyText? (g : GeoReference) (key : UInt16) : Option String := do
  let text ← g.geoAscii
  let entry ← g.entries.find? fun entry => entry.key = key && entry.location = geoAsciiTag
  let start := entry.value.toNat
  let stop := min (start + entry.count.toNat) (Text.encode text).length
  let part ← byteRange? text start stop
  let citation := trimCitation part
  if citation.isEmpty then none else some citation

/-- The system that the keys name. The keys of a projected system come before those of the one it is
based on. -/
def crs? (g : GeoReference) : Option Crs :=
  let code := (g.keyValue? projectedTypeKey <|> g.keyValue? geographicTypeKey).filter (· ≠ userDefined)
  let citation := g.keyText? projectedCitationKey <|> g.keyText? citationKey
  match code, citation with
  | some code, some citation => some ((Crs.ofEpsg code.toNat).withCitation citation)
  | some code, none => some (.ofEpsg code.toNat)
  | none, some citation => some (.ofCitation citation)
  | none, none => none

def toJson (g : GeoReference) : Json :=
  let doubles := Json.ofOption fun values : List Binary64 => .array (values.map Json.ofDouble)
  let shorts := Json.ofOption fun values : List UInt16 => .array (values.map fun v => Json.ofNat v.toNat)
  .record [("pixel_scale", doubles g.pixelScale), ("tiepoints", doubles g.tiepoints),
    ("transformation", doubles g.transformation), ("geo_keys", shorts g.geoKeys),
    ("geo_doubles", doubles g.geoDoubles), ("geo_ascii", Json.ofOption Json.text g.geoAscii)]

end GeoReference

end SurfaceWater
