import SurfaceWater.Image.Encoder
import SurfaceWater.Image.Layout

/-!
# Made-up scenes

Multiband images in memory, with the samples of a pixel next to each other, and their encoding. They
are kept in strips or in tiles, and tiles are padded with zeros beyond the edges of the image.
-/

namespace SurfaceWater

/-- The shape of the chunks of an image. -/
inductive ChunkShape where
  | strips (rows : Nat)
  | tiles (width height : Nat)
  deriving DecidableEq, Repr

structure GeoTags where
  pixelScale : List Binary64
  tiepoint : List Binary64
  geoKeys : List UInt16
  geoAscii : Option String
  deriving DecidableEq

/-- Pixels of two metres in zone 10 north of the universal transverse Mercator system. -/
def GeoTags.utm10North : GeoTags where
  pixelScale := [2, 2, 0]
  tiepoint := [0, 0, 0, 552000, 4182000, 0]
  geoKeys := [1, 1, 0, 4, 1024, 0, 1, 1, 1025, 0, 1, 1, 3072, 0, 1, 32610, 3073, 34737, 22, 0]
  geoAscii := some "WGS 84 / UTM zone 10N|"

structure SceneImage where
  width : Nat
  height : Nat
  bands : Nat
  samples : Array UInt16
  shape : ChunkShape
  geo : Option GeoTags
  noData : Option String
  /-- Every band has chunks of its own. -/
  bandPlanes : Bool

namespace SceneImage

/-- An image of one sample value. -/
def filled (width height bands : Nat) (value : UInt16) : SceneImage where
  width
  height
  bands
  samples := Array.replicate (width * height * bands) value
  shape := .strips 1
  geo := some .utm10North
  noData := none
  bandPlanes := false

/-- An image of pixels, given row after row. -/
def ofPixels (width height : Nat) (pixels : List (List UInt16)) : SceneImage where
  width
  height
  bands := (pixels.head?.map List.length).getD 0
  samples := pixels.flatten.toArray
  shape := .strips 1
  geo := some .utm10North
  noData := none
  bandPlanes := false

def sampleIndex (image : SceneImage) (row col band : Nat) : Nat := (row * image.width + col) * image.bands + band

def sample (image : SceneImage) (row col band : Nat) : UInt16 :=
  (image.samples[image.sampleIndex row col band]?).getD 0

def setSample (image : SceneImage) (row col band : Nat) (value : UInt16) : SceneImage :=
  { image with samples := image.samples.setIfInBounds (image.sampleIndex row col band) value }

def setPixel (image : SceneImage) (row col : Nat) (values : List UInt16) : SceneImage :=
  values.zipIdx.foldl (fun image (value, band) => image.setSample row col band value) image

/-! ### Encoding -/

/-- The samples of a window, padded with zeros to a width and height. -/
def padded (image : SceneImage) (row col width height : Nat) : List UInt16 :=
  (List.range height).flatMap fun r => (List.range width).flatMap fun c => (List.range image.bands).map fun band =>
    if row + r < image.height ∧ col + c < image.width then image.sample (row + r) (col + c) band else 0

/-- The chunks of the image. Every strip has the samples of its rows, as far as the image has any. -/
def chunks (image : SceneImage) : List (List UInt16) :=
  match image.shape with
  | .strips rows =>
    let size := max rows 1 * (image.width * image.bands)
    groups size (ceilDiv image.samples.size size) image.samples.toList
  | .tiles width height =>
    (List.range (ceilDiv image.height height)).flatMap fun i => (List.range (ceilDiv image.width width)).map fun j =>
      image.padded (i * height) (j * width) width height

/-- Every so many items of a list, from the first one on. The first number bounds the items looked
at. -/
def everyNth {α : Type} (step : Nat) : Nat → List α → List α
  | _, [] => []
  | 0, _ => []
  | fuel + 1, item :: rest => item :: everyNth step fuel (rest.drop (step - 1))

/-- The chunks in the order of the file. -/
def storedChunks (image : SceneImage) : List (List UInt16) :=
  if image.bandPlanes then
    (List.range image.bands).flatMap fun band => image.chunks.map fun chunk =>
      let samples := chunk.drop band
      everyNth image.bands samples.length samples
  else image.chunks

def shapeFields (image : SceneImage) (offsets sizes : List Nat) : List EncodedField :=
  match image.shape with
  | .strips rows =>
    [.longs ImageFile.stripOffsetsTag offsets, .longs ImageFile.rowsPerStripTag [rows],
      .longs ImageFile.stripSizesTag sizes]
  | .tiles width height =>
    [.longs ImageFile.tileWidthTag [width], .longs ImageFile.tileHeightTag [height],
      .longs ImageFile.tileOffsetsTag offsets, .longs ImageFile.tileSizesTag sizes]

def geoFields (geo : GeoTags) : List EncodedField :=
  [.doubles GeoReference.pixelScaleTag.toNat geo.pixelScale, .doubles GeoReference.tiepointsTag.toNat geo.tiepoint,
    .shorts GeoReference.geoKeysTag.toNat (geo.geoKeys.map UInt16.toNat)] ++
    (geo.geoAscii.map (EncodedField.text GeoReference.geoAsciiTag.toNat)).toList

def fields (image : SceneImage) (offsets sizes : List Nat) : List EncodedField :=
  [.longs ImageFile.widthTag [image.width], .longs ImageFile.heightTag [image.height],
    .shorts ImageFile.bitsTag (List.replicate image.bands 16), .shorts ImageFile.compressionTag [1],
    .shorts ImageFile.photometricTag [1], .shorts ImageFile.samplesTag [image.bands],
    .shorts ImageFile.planarTag [if image.bandPlanes then 2 else 1],
    .shorts ImageFile.sampleFormatTag (List.replicate image.bands 1)] ++
    image.shapeFields offsets sizes ++ (image.geo.map geoFields).getD [] ++
    (image.noData.map (EncodedField.text ImageLayout.noDataTag.toNat)).toList

/-- The bytes of the image as a file. -/
def encode (image : SceneImage) : List UInt8 :=
  let chunks := image.storedChunks.map fun chunk => chunk.flatMap fun sample => ByteOrder.littleBytes 2 sample.toNat
  let offsets := ImageEncoding.chunkOffsets ImageEncoding.headerSize chunks
  ImageEncoding.encode chunks (image.fields offsets (chunks.map List.length))

end SceneImage

end SurfaceWater
