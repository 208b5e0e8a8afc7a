import SurfaceWater.Error
import SurfaceWater.GeoReference

/-!
# Image codecs

What turns the bytes of a file into an image and an image into the bytes of a file is a parameter.
The decoder answers questions about the image in a file, some of which have no answer; its samples
come in chunks. The encoder is told of an image call by call. It may refuse a call, and what the
file holds is a matter of all calls so far.
-/

namespace SurfaceWater

/-! ### Decoding -/

/-- The samples of a chunk by their kind. -/
inductive ChunkSamples where
  | bytes (samples : Array UInt8)
  | words (samples : Array UInt16)
  /-- Samples that are not unsigned integers of 8 or 16 bits. -/
  | other

/-- What a decoder answers about the image in a file. -/
structure DecodedImage where
  /-- The width and the height. -/
  dimensions? : Option (UInt32 × UInt32)
  colorModel? : Option ColorModel
  /-- How the bands are arranged. The outer option is empty where that cannot be read. -/
  planarity? : Option (Option UInt16)
  /-- The width and the height of a full chunk. -/
  chunkDimensions : UInt32 × UInt32
  /-- The samples of a chunk by its number, either of its part inside the image or padded to the
  full shape of a chunk. -/
  chunk? : UInt32 → Option ChunkSamples
  doubles? : (tag : UInt16) → Option (List Binary64)
  shorts? : (tag : UInt16) → Option (List UInt16)
  text? : (tag : UInt16) → Option String

namespace DecodedImage

/-- The samples of a chunk, which must be unsigned integers. -/
def samples (image : DecodedImage) (index : Nat) : Except Error (Array UInt16) :=
  match image.chunk? (UInt32.ofNat index) with
  | none => .error (.image (.unreadableChunk index))
  | some (.bytes samples) => .ok (samples.map (·.toUInt16))
  | some (.words samples) => .ok samples
  | some .other => .error (.data .sampleFormat)

/-- The georeference of an image, if it places the image. -/
def geoReference? (image : DecodedImage) : Option GeoReference :=
  let reference : GeoReference :=
    { pixelScale := image.doubles? GeoReference.pixelScaleTag
      tiepoints := image.doubles? GeoReference.tiepointsTag
      transformation := image.doubles? GeoReference.transformationTag
      geoKeys := image.shorts? GeoReference.geoKeysTag
      geoDoubles := image.doubles? GeoReference.geoDoublesTag
      geoAscii := image.text? GeoReference.geoAsciiTag }
  reference.geoTransform?.map fun _ => reference

end DecodedImage

/-! ### Encoding -/

/-- What an encoder is told. -/
inductive EncoderCall where
  | start
  | image (width height : UInt32)
  | rowsPerStrip (rows : UInt32)
  | doubles (tag : UInt16) (values : List Binary64)
  | shorts (tag : UInt16) (values : List UInt16)
  | text (tag : UInt16) (value : String)
  /-- The bytes of the next strip, row after row. -/
  | strip (bytes : List UInt8)
  | finish
  deriving DecidableEq

structure ImageCodec where
  /-- The image in a file, if the decoder can open it. -/
  open? : Bytes → Option DecodedImage
  /-- The encoder carries out a call after the calls before it. -/
  accepts : List EncoderCall → EncoderCall → Bool
  /-- What the file holds after some calls. -/
  written : List EncoderCall → Bytes

/-- Gives the samples of a chunk by its number. -/
abbrev ChunkDecoder := Nat → Except Error (Array UInt16)

namespace ImageCodec

/-- The image in a file of the storage. -/
def load (codec : ImageCodec) (storage : Storage) (path : String) : Except Error DecodedImage :=
  match storage.entry path with
  | .error fault => .error (.storage fault)
  | .ok .directory => .error (.image (.cannotOpen path))
  | .ok (.file content) =>
    match codec.open? content with
    | some image => .ok image
    | none => .error (.image (.cannotOpen path))

/-- Decodes the chunks of the image that a path leads to. The file is opened anew, so a chunk comes
from the storage as it is when it is asked for. -/
def decoder (codec : ImageCodec) (storage : Storage) (path : String) : ChunkDecoder := fun index => do
  (← codec.load storage path).samples index

/-- The calls with one more, which the encoder must carry out. -/
def tell (codec : ImageCodec) (calls : List EncoderCall) (call : EncoderCall) (fault : ImageFault) :
    Except Error (List EncoderCall) :=
  if codec.accepts calls call then .ok (calls ++ [call]) else .error (.image fault)

end ImageCodec

/-- Reads the georeference of an image file. -/
def GeoReference.load (codec : ImageCodec) (storage : Storage) (path : String) : Except Error GeoReference := do
  let image ← codec.load storage path
  match image.geoReference? with
  | some reference => return reference
  | none => throw (.noGeoReference path)

end SurfaceWater
