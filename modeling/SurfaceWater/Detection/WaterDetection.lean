import SurfaceWater.Detection.Counts
import SurfaceWater.Detection.Params
import SurfaceWater.Detection.Plan
import SurfaceWater.Detector
import SurfaceWater.Image.Reader

/-!
# Detecting water in an image

The labels of an image, produced strip by strip on demand. The tiles of a strip are read and
labelled independently of each other and pasted into the strip. A strip that fails leaves the tally
of labels as it was. A detection keeps none of the pixels: what decodes the chunks of its image is
given to it for every strip.
-/

namespace SurfaceWater

structure WaterDetection (C : Type := WaterRule) where
  reader : ImageReader
  detector : WaterDetector C
  plan : DetectionPlan
  /-- The threads that the tiles of a strip are spread over. -/
  workers : Nat

namespace WaterDetection

variable {C : Type}

/-- Prepares a run over an image, which must have a sample for every band. -/
def make (machine : Machine) (reader : ImageReader) (metadata : SceneMetadata) (classifier : C) (tileSize : Nat)
    (mode : ProcessingMode) : Except Error (WaterDetection C) := do
  if reader.layout.bands ≠ bandCount then throw (.data (.bandCount reader.path reader.layout.bands))
  if tileSize = 0 then throw (.parameter .tileSize)
  let workers := mode.workers machine
  return ⟨reader, .ofMetadata metadata classifier, .ofLayout reader.layout tileSize workers, workers⟩

variable [PixelClassifier C]

/-- The label of a pixel of a tile. What is not a pixel of all bands has no data. -/
def label (d : WaterDetection C) (tile : BandTile) (row col : Nat) : UInt8 :=
  match RawPixel.ofSamples? (tile.pixel row col) (tile.isValid row col) with
  | some pixel => (d.detector.detect pixel).value
  | none => WaterLabel.noData.value

/-- The labels of a window of the image. -/
def labelWindow (d : WaterDetection C) (decode : ChunkDecoder) (w : Window) : Except Error (Raster UInt8) := do
  let tile ← d.reader.layout.readTile decode w
  if tile.bands ≠ bandCount then throw (.data (.tileBandCount w.rowOffset w.colOffset tile.bands))
  return Raster.ofFn w.rows w.cols (d.label tile)

/-- A strip without any labels yet. -/
def blankStrip (rows cols : Nat) : Raster UInt8 :=
  (Raster.filled rows cols WaterLabel.noData.value).setNoData WaterLabel.noData.value

/-- The labels of the strip of so many rows from a row on, put together from its tiles. -/
def labelTiles (d : WaterDetection C) (decode : ChunkDecoder) (rowOffset rows : Nat) (tiles : List Tile) :
    Except Error (Raster UInt8) := do
  let labels ← mapWork (fun tile => d.labelWindow decode tile.window) tiles
  return (tiles.zip labels).foldl
    (fun strip (tile, labels) => strip.paste (tile.rowOffset - rowOffset) tile.colOffset labels)
    (blankStrip rows d.plan.width)

/-- The labels of the strip of so many rows from a row on. -/
def labelStrip (d : WaterDetection C) (decode : ChunkDecoder) (rowOffset rows : Nat) : Except Error (Raster UInt8) :=
  d.labelTiles decode rowOffset rows (d.plan.stripTiles rowOffset rows).tiles

/-- Produces a strip and counts its labels. -/
def readStrip (d : WaterDetection C) (decode : ChunkDecoder) (rowOffset rows : Nat) :
    ExceptT Error (StateM LabelTally) (Raster UInt8) := do
  let strip ← d.labelStrip decode rowOffset rows
  modify fun tally => tally.add strip
  return strip

/-- The labels of the whole image, in strips. The image is found again for every strip. -/
def source (d : WaterDetection C) (codec : ImageCodec) : StripSource LabelTally where
  rows := d.plan.height
  cols := d.plan.width
  strip storage := d.readStrip (d.reader.decoder codec storage)

end WaterDetection

end SurfaceWater
