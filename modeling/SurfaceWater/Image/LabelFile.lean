import SurfaceWater.Image.Layout
import SurfaceWater.Raster

/-!
# Label files

A raster of labels that is produced strip by strip becomes an image file. The strips are asked for
in order from the top; the file is written beside its destination and moved there when it is
complete, so that a failure at any point leaves everything as it was. What produces the strips may
read the storage in the meantime, where it finds the file as far as it is written.
-/

namespace SurfaceWater

/-- What produces a raster of bytes in strips. Every request may change the producer, also one that
fails. -/
structure StripSource (σ : Type) where
  rows : Nat
  cols : Nat
  /-- The strip of so many rows from a row on, with the storage as it is at that time. -/
  strip : Storage → (rowOffset rows : Nat) → ExceptT Error (StateM σ) (Raster UInt8)

namespace LabelFile

/-- The rows of a strip where the caller has no preference. -/
def standardRowsPerStrip : Nat := 256

/-- The first row and the number of rows of each strip, from a row on. The first number bounds the
strips. -/
def strips (rows stripRows : Nat) : Nat → Nat → List (Nat × Nat)
  | 0, _ => []
  | fuel + 1, rowOffset =>
    if rowOffset < rows then
      let height := min stripRows (rows - rowOffset)
      (rowOffset, height) :: strips rows stripRows fuel (rowOffset + height)
    else []

variable {σ : Type}

/-- A number of a file, which has 32 bits. -/
def word (name : String) (n : Nat) : Except Error UInt32 :=
  if n < UInt32.size then .ok (UInt32.ofNat n) else .error (.parameter (.tooLarge name n))

/-- What the encoder is told of the georeference and of missing data, and what it means if it does
not take it. -/
def tags (g : GeoReference) (noData : UInt8) : List (EncoderCall × ImageFault) :=
  let doubles (tag : UInt16) (values : Option (List Binary64)) : List (EncoderCall × ImageFault) :=
    (values.map fun values => (.doubles tag values, .tag tag)).toList
  doubles GeoReference.pixelScaleTag g.pixelScale ++ doubles GeoReference.tiepointsTag g.tiepoints ++
    doubles GeoReference.transformationTag g.transformation ++ doubles GeoReference.geoDoublesTag g.geoDoubles ++
    (g.geoKeys.map fun keys => (EncoderCall.shorts GeoReference.geoKeysTag keys, ImageFault.keyTag)).toList ++
    (g.geoAscii.map fun text => (EncoderCall.text GeoReference.geoAsciiTag text, ImageFault.textTag)).toList ++
    [(.text ImageLayout.noDataTag (toString noData.toNat), .noDataTag)]

/-- What the encoder is told before the first strip is asked for. -/
def header (codec : ImageCodec) (rows cols stripRows : Nat) (g : GeoReference) (noData : UInt8) :
    Except Error (List EncoderCall) := do
  let calls ← codec.tell [] .start .encoder
  let width ← word "width" cols
  let height ← word "height" rows
  let calls ← codec.tell calls (.image width height) .notCreated
  let rowsPerStrip ← word "rows_per_strip" stripRows
  let calls ← codec.tell calls (.rowsPerStrip rowsPerStrip) .stripRows
  (tags g noData).foldlM (fun calls (call, fault) => codec.tell calls call fault) calls

/-- Asks for one strip, which must have the shape that was asked for. -/
def requestStrip (source : StripSource σ) (storage : Storage) (rowOffset height : Nat) :
    ExceptT Error (StateM σ) (List UInt8) := do
  let strip ← source.strip storage rowOffset height
  if strip.rows ≠ height ∨ strip.cols ≠ source.cols then
    throw (.sizeMismatch height source.cols strip.rows strip.cols)
  return strip.toRows.toList

section

variable (codec : ImageCodec) (source : StripSource σ) (during : Bytes → Storage)

/-- Asks for strips and hands each to the encoder before the next one is asked for. The storage
depends on what the file holds at that time. -/
def tellStrips : List (Nat × Nat) → List EncoderCall → ExceptT Error (StateM σ) (List EncoderCall)
  | [], calls => return calls
  | (rowOffset, height) :: requests, calls => do
    let bytes ← requestStrip source (during (codec.written calls)) rowOffset height
    let calls ← codec.tell calls (.strip bytes) (.strip rowOffset)
    tellStrips requests calls

/-- The content of a file. -/
def produce (g : GeoReference) (noData : UInt8) (stripRows : Nat) : ExceptT Error (StateM σ) Bytes := do
  let calls ← header codec source.rows source.cols stripRows g noData
  let calls ← tellStrips codec source during (strips source.rows stripRows source.rows 0) calls
  let calls ← codec.tell calls .finish .unfinished
  return codec.written calls

end

/-- Writes a file. The answer is the storage after the attempt and the error that ended it, if any.
-/
def write (codec : ImageCodec) (storage : Storage) (path : String) (source : StripSource σ) (g : GeoReference)
    (noData : UInt8) (rowsPerStrip : Option Nat) (state : σ) : (Except Error Unit × Storage) × σ :=
  let rowsPerStrip := rowsPerStrip.getD standardRowsPerStrip
  if source.rows = 0 ∨ source.cols = 0 then ((.error (.dimensions source.cols source.rows), storage), state)
  else if rowsPerStrip = 0 then ((.error (.parameter .rowsPerStrip), storage), state)
  else match storage.stage path with
    | .error fault => ((.error (.storage fault), storage), state)
    | .ok (staged, begun) =>
      let during (content : Bytes) : Storage := begun.insert staged (.file content)
      match (produce codec source during g noData (min rowsPerStrip source.rows)).run state with
      | (.error error, after) => ((.error error, begun.erase staged), after)
      | (.ok content, after) =>
        match begun.publish staged content path with
        | .error fault => ((.error (.storage fault), begun.erase staged), after)
        | .ok published => ((.ok (), published), after)

end LabelFile

end SurfaceWater
