import SurfaceWater.Window

/-!
# Tiles

An area cut into tiles of one shape, in rows from the top and from left to right; tiles at the far
edges are clipped. A cursor stands before the next tile of such a walk.
-/

namespace SurfaceWater

structure Tile where
  /-- The place of the tile in the walk. -/
  index : Nat
  rowOffset : Nat
  colOffset : Nat
  rows : Nat
  cols : Nat
  deriving DecidableEq, Repr

namespace Tile

/-- The part of the raster that a tile covers. -/
def window (t : Tile) : Window := ⟨t.rowOffset, t.colOffset, t.rows, t.cols⟩

/-- Where a cell of the tile is in the raster. -/
def sourceCell (t : Tile) (row col : Nat) : Nat × Nat := (t.rowOffset + row, t.colOffset + col)

end Tile

/-- How many pieces of a size cover a length. -/
def ceilDiv (length size : Nat) : Nat := (length + size - 1) / size

structure TileCursor where
  area : Window
  tileRows : Nat
  tileCols : Nat
  row : Nat
  col : Nat
  index : Nat
  tileRows_pos : 0 < tileRows
  tileCols_pos : 0 < tileCols

namespace TileCursor

/-- Stands before the first tile of an area. Tiles have at least one row and column. -/
def within (area : Window) (tileRows tileCols : Nat) : TileCursor where
  area
  tileRows := max tileRows 1
  tileCols := max tileCols 1
  row := area.rowOffset
  col := area.colOffset
  index := 0
  tileRows_pos := Nat.lt_of_lt_of_le Nat.one_pos (Nat.le_max_right ..)
  tileCols_pos := Nat.lt_of_lt_of_le Nat.one_pos (Nat.le_max_right ..)

/-- How many tiles the whole walk has. -/
def tileCount (c : TileCursor) : Nat :=
  if c.area.isEmpty then 0 else ceilDiv c.area.rows c.tileRows * ceilDiv c.area.cols c.tileCols

/-- The next tile, and the cursor after it. -/
def next? (c : TileCursor) : Option (Tile × TileCursor) :=
  if c.area.isEmpty || c.area.rowEnd ≤ c.row then none
  else
    let tile : Tile :=
      ⟨c.index, c.row, c.col, min c.tileRows (c.area.rowEnd - c.row), min c.tileCols (c.area.colEnd - c.col)⟩
    let nextCol := c.col + c.tileCols
    let after :=
      if c.area.colEnd ≤ nextCol then
        { c with row := c.row + c.tileRows, col := c.area.colOffset, index := c.index + 1 }
      else { c with col := nextCol, index := c.index + 1 }
    some (tile, after)

/-- The next tiles, at most so many, and the cursor after them. -/
def take : Nat → TileCursor → List Tile × TileCursor
  | 0, c => ([], c)
  | n + 1, c =>
    match c.next? with
    | none => ([], c)
    | some (tile, after) =>
      let (tiles, last) := take n after
      (tile :: tiles, last)

def tiles (c : TileCursor) : List Tile := (c.take c.tileCount).1

end TileCursor

end SurfaceWater
