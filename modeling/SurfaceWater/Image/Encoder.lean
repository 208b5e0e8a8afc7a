import SurfaceWater.GeoReference
import SurfaceWater.Image.File

/-!
# Encoding images

A TIFF file with one image that is not compressed, least significant bytes first: the header, the
chunks one after another, the values that do not fit their fields, and the directory with its fields
in the order of their tags. Values and the directory begin at even offsets.
-/

namespace SurfaceWater

/-- A field of a directory with the bytes of its values. -/
structure EncodedField where
  tag : Nat
  kind : Nat
  count : Nat
  payload : List UInt8
  deriving DecidableEq, Repr

namespace EncodedField

def shorts (tag : Nat) (values : List Nat) : EncodedField :=
  ⟨tag, shortKind, values.length, values.flatMap (ByteOrder.littleBytes 2)⟩

def longs (tag : Nat) (values : List Nat) : EncodedField :=
  ⟨tag, longKind, values.length, values.flatMap (ByteOrder.littleBytes 4)⟩

def doubles (tag : Nat) (values : List Binary64) : EncodedField :=
  ⟨tag, doubleKind, values.length, values.flatMap fun x => ByteOrder.littleBytes 8 x.toBits⟩

/-- A text and the null after it. -/
def text (tag : Nat) (value : String) : EncodedField :=
  let payload := Text.encode value ++ [0]
  ⟨tag, asciiKind, payload.length, payload⟩

end EncodedField

namespace ImageEncoding

/-- Puts a field before the first one of a larger tag. -/
def insertField (field : EncodedField) : List EncodedField → List EncodedField
  | [] => [field]
  | first :: rest => if field.tag ≤ first.tag then field :: first :: rest else first :: insertField field rest

/-- Fields in the order of their tags. -/
def sortFields (fields : List EncodedField) : List EncodedField := fields.foldr insertField []

def headerSize : Nat := 8

/-- The offsets of chunks that follow one another. -/
def chunkOffsets : Nat → List (List UInt8) → List Nat
  | _, [] => []
  | offset, chunk :: rest => offset :: chunkOffsets (offset + chunk.length) rest

/-- A zero byte where an offset is odd. -/
def evenPadding (offset : Nat) : List UInt8 := if offset % 2 = 1 then [0] else []

/-- The bytes of values that stand outside their fields, from an offset on, and for each field the
four bytes that it ends in. -/
def placeValues : Nat → List EncodedField → List UInt8 × List (List UInt8)
  | _, [] => ([], [])
  | offset, field :: rest =>
    if field.payload.length ≤ 4 then
      let (bytes, inlines) := placeValues offset rest
      (bytes, (field.payload ++ List.replicate (4 - field.payload.length) 0) :: inlines)
    else
      let padding := evenPadding offset
      let start := offset + padding.length
      let (bytes, inlines) := placeValues (start + field.payload.length) rest
      (padding ++ field.payload ++ bytes, ByteOrder.littleBytes 4 start :: inlines)

def fieldBytes (field : EncodedField) (inline : List UInt8) : List UInt8 :=
  ByteOrder.littleBytes 2 field.tag ++ ByteOrder.littleBytes 2 field.kind ++ ByteOrder.littleBytes 4 field.count ++
    inline

/-- The bytes of a directory, which no other follows. -/
def directoryBytes (fields : List EncodedField) (inlines : List (List UInt8)) : List UInt8 :=
  ByteOrder.littleBytes 2 fields.length ++ (fields.zipWith fieldBytes inlines).flatten ++ ByteOrder.littleBytes 4 0

section

variable (chunks : List (List UInt8)) (fields : List EncodedField)

/-- Where the values begin that do not stand in their fields. -/
def valuesStart : Nat := headerSize + chunks.flatten.length

/-- The values outside the fields, and the ends of the fields. -/
def placed : List UInt8 × List (List UInt8) := placeValues (valuesStart chunks) (sortFields fields)

/-- Where the directory begins. Everything else in the file begins before it. -/
def directoryStart : Nat :=
  valuesStart chunks + (placed chunks fields).1.length +
    (evenPadding (valuesStart chunks + (placed chunks fields).1.length)).length

/-- The bytes of an image with the given chunks and fields. -/
def encode : List UInt8 :=
  let (values, inlines) := placed chunks fields
  [0x49, 0x49] ++ ByteOrder.littleBytes 2 42 ++ ByteOrder.littleBytes 4 (directoryStart chunks fields) ++
    chunks.flatten ++ values ++ evenPadding (valuesStart chunks + values.length) ++
    directoryBytes (sortFields fields) inlines

end

end ImageEncoding

end SurfaceWater
