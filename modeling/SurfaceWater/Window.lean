import SurfaceWater.Error

/-!
# Windows

Rectangles of pixels, given by the first row and column and by the numbers of both. A window stands
for the set of its cells; windows without cells all stand for the empty set.
-/

namespace SurfaceWater

structure Window where
  rowOffset : Nat
  colOffset : Nat
  rows : Nat
  cols : Nat
  deriving DecidableEq, Repr

namespace Window

def full (rows cols : Nat) : Window := ⟨0, 0, rows, cols⟩

def rowEnd (w : Window) : Nat := w.rowOffset + w.rows

def colEnd (w : Window) : Nat := w.colOffset + w.cols

def size (w : Window) : Nat := w.rows * w.cols

def isEmpty (w : Window) : Bool := w.rows = 0 || w.cols = 0

/-- A cell, given by its row and column, lies in a window. -/
instance : Membership (Nat × Nat) Window where
  mem w cell := w.rowOffset ≤ cell.1 ∧ cell.1 < w.rowEnd ∧ w.colOffset ≤ cell.2 ∧ cell.2 < w.colEnd

instance (cell : Nat × Nat) (w : Window) : Decidable (cell ∈ w) :=
  inferInstanceAs (Decidable
    (w.rowOffset ≤ cell.1 ∧ cell.1 < w.rowEnd ∧ w.colOffset ≤ cell.2 ∧ cell.2 < w.colEnd))

/-- The window of the cells that two windows have in common, if there are any. -/
def intersect (v w : Window) : Option Window :=
  let rowStart := max v.rowOffset w.rowOffset
  let colStart := max v.colOffset w.colOffset
  let rowEnd := min v.rowEnd w.rowEnd
  let colEnd := min v.colEnd w.colEnd
  if rowEnd ≤ rowStart ∨ colEnd ≤ colStart then none
  else some ⟨rowStart, colStart, rowEnd - rowStart, colEnd - colStart⟩

/-- A window that is read must have cells, and all of them in the raster. -/
def checkWithin (w : Window) (rows cols : Nat) : Except Error Unit :=
  if w.isEmpty then .error (.dimensions w.cols w.rows)
  else if rows < w.rowEnd ∨ cols < w.colEnd then .error (.outOfBounds (w.rowEnd - 1) (w.colEnd - 1) rows cols)
  else .ok ()

end Window

end SurfaceWater
