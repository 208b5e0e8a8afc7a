import SurfaceWater.Image.Encoder

/-!
# Images that are not compressed

A codec of its own for images that are not compressed. The encoder keeps what it is told until the
image is finished, and then writes the chunks one after another and the directory behind them. It
takes what it can find again: strips and a directory whose offsets have 32 bits, and text of ASCII.
-/

namespace SurfaceWater

/-- A text tag holds ASCII without nulls. -/
def isTagText (text : String) : Bool := text.toList.all fun c => 0 < c.toNat && c.toNat < 128

namespace EncoderCall

/-- The field that a tag becomes. -/
def field? : EncoderCall → Option EncodedField
  | doubles tag values => some (.doubles tag.toNat values)
  | shorts tag values => some (.shorts tag.toNat (values.map UInt16.toNat))
  | text tag value => some (.text tag.toNat value)
  | _ => none

def strip? : EncoderCall → Option (List UInt8)
  | strip bytes => some bytes
  | _ => none

def size? : EncoderCall → Option (Nat × Nat)
  | image width height => some (width.toNat, height.toNat)
  | _ => none

def stripRows? : EncoderCall → Option Nat
  | rowsPerStrip rows => some rows.toNat
  | _ => none

end EncoderCall

namespace UncompressedImage

/-- The fields of an image of bytes in strips. -/
def fields (cols rows stripRows : Nat) (tags : List EncodedField) (strips : List (List UInt8)) : List EncodedField :=
  [.longs ImageFile.widthTag [cols], .longs ImageFile.heightTag [rows], .shorts ImageFile.bitsTag [8],
    .shorts ImageFile.compressionTag [1], .shorts ImageFile.photometricTag [1],
    .longs ImageFile.stripOffsetsTag (ImageEncoding.chunkOffsets ImageEncoding.headerSize strips),
    .shorts ImageFile.samplesTag [1], .longs ImageFile.rowsPerStripTag [stripRows],
    .longs ImageFile.stripSizesTag (strips.map List.length), .shorts ImageFile.sampleFormatTag [1]] ++ tags

/-- The strips that an encoder was told. -/
def stripsOf (calls : List EncoderCall) : List (List UInt8) := calls.filterMap EncoderCall.strip?

/-- The fields of the image that an encoder was told. -/
def fieldsOf (calls : List EncoderCall) : List EncodedField :=
  let (cols, rows) := (calls.findSome? EncoderCall.size?).getD (0, 0)
  let stripRows := (calls.findSome? EncoderCall.stripRows?).getD rows
  fields cols rows stripRows (calls.filterMap EncoderCall.field?) (stripsOf calls)

def accepts (calls : List EncoderCall) : EncoderCall → Bool
  | .image width height => width ≠ 0 && height ≠ 0
  | .text _ value => isTagText value
  | .strip bytes =>
    ImageEncoding.headerSize + (stripsOf calls).flatten.length < UInt32.size && bytes.length < UInt32.size
  | .finish => ImageEncoding.directoryStart (stripsOf calls) (fieldsOf calls) < UInt32.size
  | _ => true

/-- The file is empty until its image is finished. -/
def written (calls : List EncoderCall) : Bytes :=
  if calls.getLast? = some .finish then (ImageEncoding.encode (stripsOf calls) (fieldsOf calls)).toArray else #[]

end UncompressedImage

/-- Reads and writes images that are not compressed. -/
def ImageCodec.uncompressed : ImageCodec where
  open? bytes := (ImageFile.open? bytes).map ImageFile.decoded
  accepts := UncompressedImage.accepts
  written := UncompressedImage.written

end SurfaceWater
