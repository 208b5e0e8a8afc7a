import SurfaceWater.Image.BandTile
import SurfaceWater.Image.Layout

/-!
# Reading windows of an image

A window is read from the chunks that it meets, each of which is asked for once. What decodes the
chunks is a parameter: it answers with the samples of a chunk, either of its part inside the image
or padded to the full shape of a chunk, and the length of the answer tells which. A reader keeps
where its image is and how it is laid out, and nothing of what is in it.
-/

namespace SurfaceWater

structure ImageChunk where
  /-- The part of the image that the chunk holds. -/
  window : Window
  /-- Pixels from one row of samples to the next. -/
  stride : Nat
  samples : Array UInt16

namespace ImageChunk

/-- The sample of a band at a row and column of the image. -/
def sample (c : ImageChunk) (bands row col band : Nat) : UInt16 :=
  (c.samples[((row - c.window.rowOffset) * c.stride + (col - c.window.colOffset)) * bands + band]?).getD 0

end ImageChunk

namespace ImageLayout

/-- The pixels from one row to the next in so many samples of a chunk: its width inside the image,
or that of a full chunk. -/
def stride? (l : ImageLayout) (window : Window) (length : Nat) : Option Nat :=
  if length = window.cols * window.rows * l.bands then some window.cols
  else if length = l.chunkWidth * l.chunkHeight * l.bands then some l.chunkWidth
  else none

/-- Decodes the chunk of a chunk row and column. -/
def fetch (l : ImageLayout) (decode : ChunkDecoder) (chunkRow chunkCol : Nat) : Except Error ImageChunk := do
  let index := chunkRow * l.chunksAcross + chunkCol
  let window := l.chunkWindow chunkRow chunkCol
  let samples ← decode index
  match l.stride? window samples.size with
  | some stride => return ⟨window, stride, samples⟩
  | none => throw (.image (.chunkLength index samples.size (window.cols * window.rows * l.bands)))

/-- The first and last of the pieces of a size that a range of a length meets, as the first one and
their number. -/
def pieces (size start length : Nat) : Nat × Nat :=
  let first := start / size
  (first, (start + length - 1) / size + 1 - first)

/-- The chunk rows that a window meets. -/
def chunkRows (l : ImageLayout) (w : Window) : Nat × Nat := pieces l.chunkHeight w.rowOffset w.rows

/-- The chunk columns that a window meets. -/
def chunkCols (l : ImageLayout) (w : Window) : Nat × Nat := pieces l.chunkWidth w.colOffset w.cols

/-- The rows and columns of the chunks that a window meets, row after row. -/
def chunksOf (l : ImageLayout) (w : Window) : List (Nat × Nat) :=
  let (firstRow, rows) := l.chunkRows w
  let (firstCol, cols) := l.chunkCols w
  (List.range rows).flatMap fun i => (List.range cols).map fun j => (firstRow + i, firstCol + j)

/-- A pixel holds data unless all its samples have the value of missing pixels. -/
def isData (l : ImageLayout) (pixel : Array UInt16) : Bool :=
  match l.maskValue with
  | some mask => pixel.any (· ≠ mask)
  | none => true

/-- The tile of a window, given its chunks in the order of `chunksOf`. -/
def assemble (l : ImageLayout) (w : Window) (chunks : Array ImageChunk) : Except Error BandTile :=
  let (firstRow, _) := l.chunkRows w
  let (firstCol, across) := l.chunkCols w
  let grid := SampleGrid.ofFn w.rows w.cols l.bands fun r c band =>
    let row := w.rowOffset + r
    let col := w.colOffset + c
    match chunks[(row / l.chunkHeight - firstRow) * across + (col / l.chunkWidth - firstCol)]? with
    | some chunk => chunk.sample l.bands row col band
    | none => 0
  BandTile.make w grid (Raster.ofFn w.rows w.cols fun r c => l.isData (grid.pixel r c))

def readTile (l : ImageLayout) (decode : ChunkDecoder) (w : Window) : Except Error BandTile := do
  w.checkWithin l.height l.width
  let chunks ← (l.chunksOf w).mapM fun (chunkRow, chunkCol) => l.fetch decode chunkRow chunkCol
  l.assemble w chunks.toArray

end ImageLayout

/-- An image that can be read by windows. Its file is found again for every window. -/
structure ImageReader where
  path : String
  layout : ImageLayout
  deriving DecidableEq

namespace ImageReader

def load (codec : ImageCodec) (storage : Storage) (path : String) : Except Error ImageReader := do
  let image ← codec.load storage path
  let layout ← ImageLayout.ofImage image
  return ⟨path, layout⟩

/-- What decodes the chunks of the image in a storage. -/
def decoder (r : ImageReader) (codec : ImageCodec) (storage : Storage) : ChunkDecoder := codec.decoder storage r.path

def readTile (r : ImageReader) (codec : ImageCodec) (storage : Storage) (w : Window) : Except Error BandTile :=
  r.layout.readTile (r.decoder codec storage) w

end ImageReader

end SurfaceWater
