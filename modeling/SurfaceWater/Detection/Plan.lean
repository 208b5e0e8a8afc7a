import SurfaceWater.Image.LabelFile
import SurfaceWater.Image.Layout

/-!
# Plans

How an image is cut up for a run. The result is made in strips of whole rows, and each strip of
tiles. The tiles follow the chunks of the image: an image in tiles is cut into columns of whole
chunks, and one in strips, whose chunks span its width, into bands of whole chunks, about one for
each worker.
-/

namespace SurfaceWater

structure DetectionPlan where
  height : Nat
  width : Nat
  stripRows : Nat
  tileRows : Nat
  tileCols : Nat
  deriving DecidableEq, Repr

/-- The least multiple of a size that is not below a length. -/
def roundUp (length size : Nat) : Nat := ceilDiv length size * size

namespace DetectionPlan

/-- The plan for an image, with strips of the height of a tile unless the image ends before. -/
def ofLayout (layout : ImageLayout) (tileSize workers : Nat) : DetectionPlan :=
  let stripRows := min tileSize layout.height
  if layout.isStriped then
    let band := ceilDiv stripRows (max workers 1)
    ⟨layout.height, layout.width, stripRows, min (roundUp band layout.chunkHeight) stripRows, layout.width⟩
  else
    let cols := roundUp (min tileSize layout.width) layout.chunkWidth
    ⟨layout.height, layout.width, stripRows, stripRows, min cols layout.width⟩

/-- The walk through the tiles of the strip of so many rows from a row on. -/
def stripTiles (plan : DetectionPlan) (rowOffset rows : Nat) : TileCursor :=
  .within ⟨rowOffset, 0, rows, plan.width⟩ plan.tileRows plan.tileCols

/-- The strips of the result, each as its first row and its number of rows. -/
def strips (plan : DetectionPlan) : List (Nat × Nat) := LabelFile.strips plan.height plan.stripRows plan.height 0

/-- How many tiles all strips have together. -/
def tileCount (plan : DetectionPlan) : Nat :=
  (plan.strips.map fun (rowOffset, rows) => (plan.stripTiles rowOffset rows).tileCount).foldr (· + ·) 0

end DetectionPlan

end SurfaceWater
