import Mathlib.Data.Fintype.Prod
import Mathlib.Algebra.BigOperators.Fin
import SurfaceWater.Proofs.Raster

/-!
# Rasters as grids

A grid is a value for every cell, with no word of memory. A raster stands for one: each cell has one place in memory,
and no place is left over. So the cells row after row, and how many of them stand for missing data, are those of the
grid, however memory is ordered and whichever way the cells are taken from it.
-/

namespace SurfaceWater

/-- Where a cell is in memory. -/
def CellOrder.place (order : CellOrder) (rows cols row col : Nat) : Nat :=
  match order with
  | .byRow => row * cols + col
  | .byColumn => col * rows + row

theorem CellOrder.place_lt {order : CellOrder} {rows cols row col size : Nat} (hsize : size = rows * cols)
    (hrow : row < rows) (hcol : col < cols) : order.place rows cols row col < size := by
  rw [hsize]
  cases order with
  | byRow => exact index_lt_size hrow hcol
  | byColumn => exact Nat.mul_comm cols rows ▸ index_lt_size hcol hrow

/-- A value for every cell, and perhaps one that stands for missing data. -/
structure Grid (α : Type) where
  rows : Nat
  cols : Nat
  value : Fin rows → Fin cols → α
  noData : Option α

namespace Grid

variable {α : Type} {g h : Grid α} {row col : Nat}

/-- The value of a cell, if the grid has the cell. -/
def get? (g : Grid α) (row col : Nat) : Option α :=
  if h : row < g.rows ∧ col < g.cols then some (g.value ⟨row, h.1⟩ ⟨col, h.2⟩) else none

/-- A value for all cells of a grid without a value for missing data. -/
def constant (rows cols : Nat) (value : α) : Grid α := ⟨rows, cols, fun _ _ => value, none⟩

/-- The values that memory has at the places of the cells. -/
def ofCells (order : CellOrder) (rows cols : Nat) (cells : Array α) (hsize : cells.size = rows * cols) : Grid α where
  rows := rows
  cols := cols
  value row col :=
    have := order.place_lt hsize row.isLt col.isLt
    cells[order.place rows cols row col]
  noData := none

/-- The grid with another value in a cell. -/
def put (g : Grid α) (row col : Nat) (value : α) : Grid α :=
  ⟨g.rows, g.cols, fun i j => if i.val = row ∧ j.val = col then value else g.value i j, g.noData⟩

/-- The grid with one value in all cells. -/
def fill (g : Grid α) (value : α) : Grid α := ⟨g.rows, g.cols, fun _ _ => value, g.noData⟩

def setNoData (g : Grid α) (noData : Option α) : Grid α := ⟨g.rows, g.cols, g.value, noData⟩

/-- How many cells stand for missing data. -/
def noDataCount [DecidableEq α] (g : Grid α) : Nat :=
  (Finset.univ.filter fun cell : Fin g.rows × Fin g.cols => g.noData = some (g.value cell.1 cell.2)).card

theorem get?_of_lt (hrow : row < g.rows) (hcol : col < g.cols) :
    g.get? row col = some (g.value ⟨row, hrow⟩ ⟨col, hcol⟩) := dif_pos ⟨hrow, hcol⟩

theorem get?_constant {rows cols : Nat} (value : α) (hrow : row < rows) (hcol : col < cols) :
    (constant rows cols value).get? row col = some value := get?_of_lt (g := constant rows cols value) hrow hcol

theorem get?_ofCells {order : CellOrder} {rows cols : Nat} {cells : Array α} (hsize : cells.size = rows * cols)
    (hrow : row < rows) (hcol : col < cols) :
    (ofCells order rows cols cells hsize).get? row col = cells[order.place rows cols row col]? := by
  rw [Array.getElem?_eq_getElem (order.place_lt hsize hrow hcol)]
  exact get?_of_lt (g := ofCells order rows cols cells hsize) hrow hcol

theorem get?_fill (value : α) (hrow : row < g.rows) (hcol : col < g.cols) : (g.fill value).get? row col = some value :=
  get?_of_lt (g := g.fill value) hrow hcol

theorem get?_put {i j : Nat} (value : α) (hi : i < g.rows) (hj : j < g.cols) :
    (g.put row col value).get? i j = if i = row ∧ j = col then some value else g.get? i j := by
  have hcell : (g.put row col value).get? i j = some (if i = row ∧ j = col then value else g.value ⟨i, hi⟩ ⟨j, hj⟩) :=
    get?_of_lt (g := g.put row col value) hi hj
  rw [hcell, get?_of_lt hi hj]
  split
  · rfl
  · rfl

theorem eq_of_get? (hrows : g.rows = h.rows) (hcols : g.cols = h.cols) (hnoData : g.noData = h.noData)
    (hvalue : ∀ row col, row < g.rows → col < g.cols → g.get? row col = h.get? row col) : g = h := by
  obtain ⟨rows, cols, value, noData⟩ := g
  obtain ⟨_, _, value', _⟩ := h
  dsimp only at hrows hcols hnoData
  subst hrows hcols hnoData
  have heq : value = value' := by
    funext row col
    have hcell := hvalue row col row.isLt col.isLt
    rw [get?_of_lt row.isLt col.isLt, get?_of_lt row.isLt col.isLt] at hcell
    exact Option.some.inj hcell
  rw [heq]

end Grid

namespace Raster

variable {α : Type} {r : Raster α} {row col : Nat}

/-! ### The grid of a raster -/

/-- The grid that a raster stands for. -/
def grid (r : Raster α) : Grid α where
  rows := r.rows
  cols := r.cols
  value row col :=
    have := r.cellIndex_lt row.isLt col.isLt
    r.cells[r.cellIndex row col]
  noData := r.noData

theorem get?_grid (r : Raster α) (row col : Nat) : r.grid.get? row col = r.get? row col := rfl

/-- The raster of cells given in an order of memory. -/
def ofCells (order : CellOrder) (rows cols : Nat) (cells : Array α) : Except Error (Raster α) :=
  match order with
  | .byRow => ofRows rows cols cells
  | .byColumn => ofColumns rows cols cells

theorem ofCells_eq (order : CellOrder) (rows cols : Nat) (cells : Array α) : ofCells order rows cols cells =
    if h : cells.size = rows * cols then .ok ⟨rows, cols, order, cells, none, h⟩ else .error (.dimensions cols rows) := by
  cases order with
  | byRow => rfl
  | byColumn => rfl

theorem grid_filled (rows cols : Nat) (value : α) : (filled rows cols value).grid = .constant rows cols value := by
  refine congrArg (fun cell => (⟨rows, cols, cell, none⟩ : Grid α)) (funext fun row => funext fun col => ?_)
  exact Array.getElem_replicate ((filled rows cols value).cellIndex_lt row.isLt col.isLt)

theorem grid_fill (r : Raster α) (value : α) : (r.fill value).grid = r.grid.fill value := by
  refine congrArg (fun cell => (⟨r.rows, r.cols, cell, r.noData⟩ : Grid α)) (funext fun row => funext fun col => ?_)
  exact Array.getElem_replicate ((r.fill value).cellIndex_lt row.isLt col.isLt)

theorem noData_put (r : Raster α) (row col : Nat) (value : α) : (r.put row col value).noData = r.noData := by
  rw [put]
  split <;> rfl

theorem grid_put (hrow : row < r.rows) (hcol : col < r.cols) (value : α) :
    (r.put row col value).grid = r.grid.put row col value := by
  refine Grid.eq_of_get? (rows_put value) (cols_put value) (noData_put r row col value) fun i j hi hj => ?_
  have hi' : i < r.grid.rows := (rows_put (r := r) value).subst hi
  have hj' : j < r.grid.cols := (cols_put (r := r) value).subst hj
  rw [get?_grid, get?_put, Grid.get?_put value hi' hj', get?_grid]
  by_cases hcell : i = row ∧ j = col
  · rw [if_pos ⟨hcell, hrow, hcol⟩, if_pos hcell]
  · rw [if_neg fun h => hcell h.1, if_neg hcell]

/-! ### Memory in the order of the rows -/

/-- The copy of memory is taken exactly where it has the cells row after row. -/
theorem isContiguous_iff : r.isContiguous = true ↔
    ∀ row col, row < r.rows → col < r.cols → r.cellIndex row col = row * r.cols + col := by
  constructor
  · exact fun h row col hrow hcol => cellIndex_of_isContiguous h hrow hcol
  · intro h
    by_contra hmemory
    simp only [isContiguous, Bool.or_eq_true, decide_eq_true_eq, not_or] at hmemory
    obtain ⟨⟨horder, hrows⟩, hcols⟩ := hmemory
    have hcolumn : r.order = .byColumn := by
      cases hr : r.order with
      | byRow => exact absurd hr horder
      | byColumn => rfl
    -- the second cell of the first row stands behind the whole first column
    have hsecond := h 0 1 (by omega) (by omega)
    rw [cellIndex, hcolumn] at hsecond
    dsimp only at hsecond
    omega

/-- A number below the number of cells stands for a cell. -/
theorem div_mod_lt {rows cols i : Nat} (h : i < rows * cols) : i / cols < rows ∧ i % cols < cols := by
  have hcols : 0 < cols := Nat.pos_of_ne_zero fun hzero => by simp [hzero] at h
  exact ⟨(Nat.div_lt_iff_lt_mul hcols).mpr h, Nat.mod_lt i hcols⟩

theorem place_lt (r : Raster α) (i : Fin (r.rows * r.cols)) : r.cellIndex (i / r.cols) (i % r.cols) < r.cells.size :=
  r.cellIndex_lt (div_mod_lt i.isLt).1 (div_mod_lt i.isLt).2

/-- The cells taken one by one, row after row. -/
def iterated (r : Raster α) : Array α :=
  Array.ofFn fun i : Fin (r.rows * r.cols) =>
    have := r.place_lt i
    r.cells[r.cellIndex (i / r.cols) (i % r.cols)]

/-- Where memory may be copied, the copy has the cells in the order in which they are taken one by one. -/
theorem cells_eq_iterated (h : r.isContiguous = true) : r.cells = r.iterated := by
  refine Array.ext (by rw [iterated, Array.size_ofFn, r.size_eq]) fun i hi hi' => ?_
  obtain ⟨hrow, hcol⟩ := div_mod_lt (r.size_eq ▸ hi)
  have hplace := cellIndex_of_isContiguous h hrow hcol
  rw [Nat.div_add_mod'] at hplace
  simp only [iterated, Array.getElem_ofFn, hplace]

theorem toRows_eq_iterated (r : Raster α) : r.toRows = r.iterated := by
  unfold toRows
  split
  case isTrue h => exact cells_eq_iterated h
  case isFalse => rfl

/-! ### Cells with a property -/

theorem countP_eq_sum (p : α → Bool) (items : List α) :
    items.countP p = (items.map fun a => if p a = true then 1 else 0).sum := by
  induction items with
  | nil => rfl
  | cons item items ih => rw [List.countP_cons, List.map_cons, List.sum_cons, ih, Nat.add_comm]

theorem countP_eq_card (cells : Array α) (p : α → Bool) :
    cells.countP p = (Finset.univ.filter fun i : Fin cells.size => p cells[i] = true).card := by
  obtain ⟨items⟩ := cells
  rw [Finset.card_filter, List.countP_toArray, countP_eq_sum]
  exact (Fin.sum_univ_fun_getElem items fun a => if p a = true then 1 else 0).symm

/-- Every place in memory is that of one cell. -/
theorem bijective_cellIndex (r : Raster α) :
    Function.Bijective fun cell : Fin r.rows × Fin r.cols =>
      (⟨r.cellIndex cell.1 cell.2, r.cellIndex_lt cell.1.isLt cell.2.isLt⟩ : Fin r.cells.size) := by
  rw [Fintype.bijective_iff_injective_and_card]
  constructor
  · intro cell other h
    obtain ⟨hrow, hcol⟩ := cellIndex_inj ⟨cell.1.isLt, cell.2.isLt⟩ ⟨other.1.isLt, other.2.isLt⟩ (Fin.mk.inj h)
    exact Prod.ext (Fin.ext hrow) (Fin.ext hcol)
  · rw [Fintype.card_prod, Fintype.card_fin, Fintype.card_fin, Fintype.card_fin, r.size_eq]

theorem noDataCount_grid [DecidableEq α] (r : Raster α) : r.noDataCount = r.grid.noDataCount := by
  rw [noDataCount, countP_eq_card]
  refine (Finset.card_bijective _ r.bijective_cellIndex fun cell => ?_).symm
  refine (Finset.mem_filter_univ cell).trans (Iff.trans ?_ (Finset.mem_filter_univ _).symm)
  rw [isNoData, decide_eq_true_eq]
  rfl

end Raster

end SurfaceWater
