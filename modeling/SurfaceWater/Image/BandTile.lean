import SurfaceWater.Raster
import SurfaceWater.Window

/-!
# Band tiles

The samples of one window of an image, with a mask that tells which pixels hold data.
-/

namespace SurfaceWater

/-- Samples by row, column and band. -/
structure SampleGrid where
  rows : Nat
  cols : Nat
  bands : Nat
  samples : Array UInt16
  size_eq : samples.size = rows * cols * bands

namespace SampleGrid

/-- The grid of a value for every sample. -/
def ofFn (rows cols bands : Nat) (value : Nat → Nat → Nat → UInt16) : SampleGrid where
  rows
  cols
  bands
  samples := Array.ofFn fun i : Fin (rows * cols * bands) =>
    value (i / bands / cols) (i / bands % cols) (i % bands)
  size_eq := Array.size_ofFn

def pixel (g : SampleGrid) (row col : Nat) : Array UInt16 :=
  let start := (row * g.cols + col) * g.bands
  g.samples.extract start (start + g.bands)

end SampleGrid

structure BandTile where
  /-- The part of the image that the tile covers. -/
  window : Window
  grid : SampleGrid
  validity : Raster Bool
  grid_shape : grid.rows = window.rows ∧ grid.cols = window.cols
  validity_shape : validity.rows = window.rows ∧ validity.cols = window.cols

namespace BandTile

/-- The tile of samples and a mask, which must both have the shape of the window. -/
def make (window : Window) (grid : SampleGrid) (validity : Raster Bool) : Except Error BandTile :=
  if h : (grid.rows = window.rows ∧ grid.cols = window.cols) ∧
      (validity.rows = window.rows ∧ validity.cols = window.cols) then
    .ok ⟨window, grid, validity, h.1, h.2⟩
  else .error (.sizeMismatch window.rows window.cols grid.rows grid.cols)

def bands (t : BandTile) : Nat := t.grid.bands

/-- The samples of the pixel at a row and column of the tile. -/
def pixel (t : BandTile) (row col : Nat) : Array UInt16 := t.grid.pixel row col

/-- The pixel at a row and column of the tile holds data. -/
def isValid (t : BandTile) (row col : Nat) : Bool := (t.validity.get? row col).getD false

end BandTile

end SurfaceWater
