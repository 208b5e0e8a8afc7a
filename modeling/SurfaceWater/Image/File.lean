import SurfaceWater.Image.Codec
import SurfaceWater.Image.Directory
import SurfaceWater.Tile

/-!
# Image files

An image as a TIFF file describes it. Its samples are kept in chunks, strips of whole rows or tiles
of one shape, that fill the image from the upper left and are found by their offsets. The chunks at
the lower edge may be cut off there; tiles at the right edge are padded to their full width. Only
samples that are not compressed are decoded.
-/

namespace SurfaceWater

structure ImageFile where
  directory : ImageDirectory
  width : Nat
  height : Nat
  photometric : Nat
  compression : Nat
  /-- Samples of one pixel. -/
  samples : Nat
  /-- Bits of one sample. -/
  bits : Nat
  sampleFormat : Nat
  /-- Every band is kept apart from the others. -/
  planar : Bool
  chunkWidth : Nat
  chunkHeight : Nat
  offsets : Array Nat

namespace ImageFile

/-! ### Tags -/

def widthTag : Nat := 256

def heightTag : Nat := 257

def bitsTag : Nat := 258

def compressionTag : Nat := 259

def photometricTag : Nat := 262

def stripOffsetsTag : Nat := 273

def samplesTag : Nat := 277

def rowsPerStripTag : Nat := 278

def stripSizesTag : Nat := 279

def planarTag : Nat := 284

def tileWidthTag : Nat := 322

def tileHeightTag : Nat := 323

def tileOffsetsTag : Nat := 324

def tileSizesTag : Nat := 325

def sampleFormatTag : Nat := 339

/-! ### Opening -/

/-- A number above zero that must be there. -/
def positive? (d : ImageDirectory) (tag : Nat) : Option Nat := do
  let n ← (← d.long? tag)
  if n = 0 then none else some n

/-- A list that must be there. -/
def requiredList? (d : ImageDirectory) (tag : Nat) : Option (List Nat) := do (← d.numbers? tag)

/-- The one value that all members of a list have. -/
def uniform? : List Nat → Option Nat
  | [] => none
  | n :: rest => if rest.all (· = n) then some n else none

def photometrics : List Nat := [0, 1, 2, 3, 4, 5, 6, 8]

/-- The width and height of the chunks and the offset of each, for so many sample planes. -/
def chunks? (d : ImageDirectory) (width height planes : Nat) : Option (Nat × Nat × List Nat) := do
  let has (tag : Nat) : Bool := (d.field? tag).isSome
  match has stripSizesTag, has stripOffsetsTag, has tileSizesTag, has tileOffsetsTag with
  | true, true, false, false =>
    let offsets ← requiredList? d stripOffsetsTag
    let sizes ← requiredList? d stripSizesTag
    let rows := (← d.long? rowsPerStripTag).getD height
    if rows = 0 || offsets.length ≠ sizes.length || offsets.length ≠ ceilDiv height rows * planes then none
    else some (width, rows, offsets)
  | false, false, true, true =>
    let tileWidth ← positive? d tileWidthTag
    let tileHeight ← positive? d tileHeightTag
    let offsets ← requiredList? d tileOffsetsTag
    let sizes ← requiredList? d tileSizesTag
    let count := ceilDiv width tileWidth * ceilDiv height tileHeight * planes
    if offsets.length ≠ sizes.length || offsets.length ≠ count then none
    else some (tileWidth, tileHeight, offsets)
  | _, _, _, _ => none

def open? (bytes : Bytes) : Option ImageFile := do
  let d ← ImageDirectory.read? bytes
  let width ← positive? d widthTag
  let height ← positive? d heightTag
  let photometric ← (← d.short? photometricTag)
  if !photometrics.contains photometric then none
  let compression := (← d.short? compressionTag).getD 1
  let samples := (← d.short? samplesTag).getD 1
  if samples = 0 then none
  let sampleFormat ← uniform? ((← d.numbers? sampleFormatTag).getD [1])
  if UInt16.size ≤ sampleFormat then none
  let bitCounts := (← d.numbers? bitsTag).getD [1]
  if bitCounts.length ≠ samples && bitCounts.length ≠ 1 then none
  let bits ← uniform? bitCounts
  if bits = 0 || 256 ≤ bits then none
  let planarity := (← d.short? planarTag).getD 1
  if planarity ≠ 1 && planarity ≠ 2 then none
  let planar : Bool := planarity = 2
  let (chunkWidth, chunkHeight, offsets) ← chunks? d width height (if planar then samples else 1)
  return ⟨d, width, height, photometric, compression, samples, bits, sampleFormat, planar, chunkWidth, chunkHeight,
    offsets.toArray⟩

/-! ### Samples -/

/-- The part of the image that a chunk holds. -/
def chunkWindow (f : ImageFile) (index : Nat) : Window :=
  let across := ceilDiv f.width f.chunkWidth
  let row := index / across * f.chunkHeight
  let col := index % across * f.chunkWidth
  ⟨row, col, min f.chunkHeight (f.height - row), min f.chunkWidth (f.width - col)⟩

/-- The samples in a row of bytes. -/
def decodeRow (f : ImageFile) (count : Nat) (bytes : List UInt8) : List UInt16 :=
  if f.bits = 8 then bytes.map (·.toUInt16)
  else (groups 2 count bytes).map fun pair => UInt16.ofNat (f.directory.order.number pair)

/-- The samples of a chunk inside the image, row after row, if the file has them. -/
def chunkSamples? (f : ImageFile) (index : Nat) : Option (Array UInt16) := do
  if f.compression ≠ 1 then none
  let offset ← f.offsets[index]?
  let window := f.chunkWindow index
  let sampleBytes := f.bits / 8
  let rowSamples := window.cols * f.samples
  let rows ← (List.range window.rows).mapM fun row => do
    let start := offset + row * f.chunkWidth * f.samples * sampleBytes
    let bytes ← f.directory.bytes.slice? start (rowSamples * sampleBytes)
    return f.decodeRow rowSamples bytes
  return rows.flatten.toArray

/-- The samples of a chunk by their kind. There are no binary fractions of 8 bits. -/
def chunk? (f : ImageFile) (index : Nat) : Option ChunkSamples := do
  let samples ← f.chunkSamples? index
  match f.sampleFormat, f.bits with
  | 1, 8 => return .bytes (samples.map (·.toUInt8))
  | 1, _ => return .words samples
  | 2, _ => return .other
  | 3, 16 => return .other
  | _, _ => none

/-- What the file says of its image. -/
def decoded (f : ImageFile) : DecodedImage where
  dimensions? := some (.ofNat f.width, .ofNat f.height)
  colorModel? := ColorModel.ofPhotometric? f.photometric f.samples f.bits
  planarity? := some (some (if f.planar then 2 else 1))
  chunkDimensions := (.ofNat f.chunkWidth, .ofNat f.chunkHeight)
  chunk? index := f.chunk? index.toNat
  doubles? := f.directory.doubles?
  shorts? := f.directory.shorts?
  text? := f.directory.text?

end ImageFile

end SurfaceWater
