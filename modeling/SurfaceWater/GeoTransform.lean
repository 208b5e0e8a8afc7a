import SurfaceWater.Numeric.Binary

/-!
# Placement of a raster

The affine map from pixel corners to coordinates on the ground. The map and the bounds of a raster
under it are formulas over any kind of number; images are placed with double precision.
-/

namespace SurfaceWater

instance {f : Format} : Min (Binary f) := ⟨Binary.min⟩

instance {f : Format} : Max (Binary f) := ⟨Binary.max⟩

structure GeoTransform (K : Type) where
  originX : K
  originY : K
  /-- The step in x from one column to the next. -/
  pixelWidth : K
  /-- The step in y from one row to the next, negative where north is up. -/
  pixelHeight : K
  /-- The step in x from one row to the next. -/
  rowRotation : K
  /-- The step in y from one column to the next. -/
  colRotation : K
  deriving DecidableEq

structure Bounds (K : Type) where
  minX : K
  minY : K
  maxX : K
  maxY : K
  deriving DecidableEq

namespace GeoTransform

variable {K : Type}

def aligned [OfNat K 0] (originX originY pixelWidth pixelHeight : K) : GeoTransform K :=
  ⟨originX, originY, pixelWidth, pixelHeight, 0, 0⟩

/-- The map that puts the pixel corner `(i, j)` of a tiepoint `i, j, k, x, y, z` at `(x, y)`, with
the given sizes of a pixel and north up. -/
def ofTiepoint? [OfNat K 0] [Add K] [Sub K] [Mul K] [Neg K] (scale tiepoint : List K) : Option (GeoTransform K) :=
  match scale, tiepoint with
  | width :: height :: _, i :: j :: _ :: x :: y :: _ :: _ =>
    some (aligned (x - i * width) (y + j * height) width (-height))
  | _, _ => none

/-- The map of the first two rows of a transformation matrix with four columns. -/
def ofMatrix? (matrix : List K) : Option (GeoTransform K) :=
  match matrix with
  | xx :: xy :: _ :: x :: yx :: yy :: _ :: y :: _ => some ⟨x, y, xx, yy, xy, yx⟩
  | _ => none

/-- Where the upper left corner of a pixel is. -/
def corner [Add K] [Mul K] [NatCast K] (t : GeoTransform K) (col row : Nat) : K × K :=
  (t.originX + (col : K) * t.pixelWidth + (row : K) * t.rowRotation,
    t.originY + (col : K) * t.colRotation + (row : K) * t.pixelHeight)

/-- The least upright rectangle around the four corners of a raster. -/
def bounds [Add K] [Mul K] [NatCast K] [Min K] [Max K] (t : GeoTransform K) (width height : Nat) : Bounds K :=
  let (x0, y0) := t.corner 0 0
  let (x1, y1) := t.corner width 0
  let (x2, y2) := t.corner 0 height
  let (x3, y3) := t.corner width height
  ⟨min (min (min x0 x1) x2) x3, min (min (min y0 y1) y2) y3,
    max (max (max x0 x1) x2) x3, max (max (max y0 y1) y2) y3⟩

def cellSize (t : GeoTransform Binary64) : Binary64 := t.pixelWidth.abs

/-- Rows run south and columns east. -/
def isNorthUp (t : GeoTransform Binary64) : Bool :=
  decide (t.rowRotation.abs < 1e-10) && decide (t.colRotation.abs < 1e-10) && decide (t.pixelHeight < 0)

end GeoTransform

end SurfaceWater
