import SurfaceWater.Error

/-!
# Rasters

Grids of cells with a value that may stand for missing data. The cells are kept row after row or
column after column, which no operation shows: a raster is a function of row and column.
-/

namespace SurfaceWater

/-- Which cells are neighbours in memory. -/
inductive CellOrder where
  | byRow
  | byColumn
  deriving DecidableEq, Repr

structure Raster (α : Type) where
  rows : Nat
  cols : Nat
  order : CellOrder
  cells : Array α
  noData : Option α
  size_eq : cells.size = rows * cols

theorem index_lt_size {row rows col cols : Nat} (hrow : row < rows) (hcol : col < cols) :
    row * cols + col < rows * cols := by
  have h : (row + 1) * cols ≤ rows * cols := Nat.mul_le_mul_right _ hrow
  rw [Nat.add_mul, Nat.one_mul] at h
  omega

namespace Raster

variable {α : Type}

def filled (rows cols : Nat) (value : α) : Raster α :=
  ⟨rows, cols, .byRow, Array.replicate (rows * cols) value, none, Array.size_replicate⟩

/-- The raster of a value for every cell. -/
def ofFn (rows cols : Nat) (value : Nat → Nat → α) : Raster α :=
  ⟨rows, cols, .byRow, Array.ofFn fun i : Fin (rows * cols) => value (i / cols) (i % cols), none, Array.size_ofFn⟩

/-- The raster of cells given row after row. -/
def ofRows (rows cols : Nat) (cells : Array α) : Except Error (Raster α) :=
  if h : cells.size = rows * cols then .ok ⟨rows, cols, .byRow, cells, none, h⟩
  else .error (.dimensions cols rows)

/-- The raster of cells given column after column. -/
def ofColumns (rows cols : Nat) (cells : Array α) : Except Error (Raster α) :=
  if h : cells.size = rows * cols then .ok ⟨rows, cols, .byColumn, cells, none, h⟩
  else .error (.dimensions cols rows)

def size (r : Raster α) : Nat := r.rows * r.cols

def isEmpty (r : Raster α) : Bool := r.size = 0

def cellIndex (r : Raster α) (row col : Nat) : Nat :=
  match r.order with
  | .byRow => row * r.cols + col
  | .byColumn => col * r.rows + row

theorem cellIndex_lt (r : Raster α) {row col : Nat} (hrow : row < r.rows) (hcol : col < r.cols) :
    r.cellIndex row col < r.cells.size := by
  rw [r.size_eq]
  unfold cellIndex
  cases r.order with
  | byRow => exact index_lt_size hrow hcol
  | byColumn => rw [Nat.mul_comm r.rows]; exact index_lt_size hcol hrow

/-- The value of a cell, if the raster has the cell. -/
def get? (r : Raster α) (row col : Nat) : Option α :=
  if h : row < r.rows ∧ col < r.cols then
    have := r.cellIndex_lt h.1 h.2
    some r.cells[r.cellIndex row col]
  else none

/-- The error of a cell that the raster does not have. -/
def outside (r : Raster α) (row col : Nat) : Error := .outOfBounds row col r.rows r.cols

def get (r : Raster α) (row col : Nat) : Except Error α :=
  match r.get? row col with
  | some value => .ok value
  | none => .error (r.outside row col)

/-- The raster with another value in a cell; without the cell, the raster itself. -/
def put (r : Raster α) (row col : Nat) (value : α) : Raster α :=
  if h : row < r.rows ∧ col < r.cols then
    ⟨r.rows, r.cols, r.order, r.cells.set (r.cellIndex row col) value (r.cellIndex_lt h.1 h.2), r.noData,
      (Array.size_set ..).trans r.size_eq⟩
  else r

def set (r : Raster α) (row col : Nat) (value : α) : Except Error (Raster α) :=
  if row < r.rows ∧ col < r.cols then .ok (r.put row col value) else .error (r.outside row col)

/-- The raster with one value in all cells. -/
def fill (r : Raster α) (value : α) : Raster α :=
  { r with cells := Array.replicate (r.rows * r.cols) value, size_eq := Array.size_replicate }

def setNoData (r : Raster α) (noData : Option α) : Raster α := { r with noData }

/-- The cells in memory are in the order of the rows. A raster of one row or column, or without
cells, is in both orders. -/
def isContiguous (r : Raster α) : Bool := r.order = .byRow || r.rows ≤ 1 || r.cols ≤ 1

/-- The cells row after row. Where memory has them in that order it is copied. -/
def toRows (r : Raster α) : Array α :=
  if r.isContiguous then r.cells
  else Array.ofFn fun i : Fin (r.rows * r.cols) =>
    have hcols : 0 < r.cols := Nat.pos_of_ne_zero fun h => by
      have := i.isLt
      simp [h] at this
    have hrow : i.val / r.cols < r.rows := (Nat.div_lt_iff_lt_mul hcols).mpr i.isLt
    have := r.cellIndex_lt hrow (Nat.mod_lt i hcols)
    r.cells[r.cellIndex (i / r.cols) (i % r.cols)]

variable [DecidableEq α]

/-- A value stands for missing data. -/
def isNoData (r : Raster α) (value : α) : Bool := r.noData = some value

def noDataCount (r : Raster α) : Nat := r.cells.countP r.isNoData

end Raster

/-- Copies the cells of a raster into another one, with the first cell at the given place. Cells
beyond the edges are dropped. -/
def Raster.paste {α : Type} (r : Raster α) (row col : Nat) (part : Raster α) : Raster α :=
  (List.range part.rows).foldl (fun r i =>
    (List.range part.cols).foldl (fun r j =>
      match part.get? i j with
      | some value => r.put (row + i) (col + j) value
      | none => r) r) r

end SurfaceWater
