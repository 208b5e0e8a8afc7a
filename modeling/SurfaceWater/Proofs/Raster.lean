import SurfaceWater.Proofs.Blocks
import SurfaceWater.Raster

/-!
# Rasters by their cells

What the operations on rasters do to the value of a cell. Where the cells are kept in memory does not
matter for that: each cell has a place of its own.
-/

namespace SurfaceWater

theorem index_div {row cols col : Nat} (hcol : col < cols) : (row * cols + col) / cols = row := by
  rw [Nat.mul_comm, Nat.mul_add_div (Nat.zero_lt_of_lt hcol), Nat.div_eq_of_lt hcol, Nat.add_zero]

theorem index_mod {row cols col : Nat} (hcol : col < cols) : (row * cols + col) % cols = col := by
  rw [Nat.mul_comm, Nat.mul_add_mod, Nat.mod_eq_of_lt hcol]

namespace Raster

variable {α : Type} {r : Raster α} {row col i j : Nat}

/-- No two cells are kept in one place. -/
theorem cellIndex_inj (hcell : row < r.rows ∧ col < r.cols) (hother : i < r.rows ∧ j < r.cols)
    (h : r.cellIndex row col = r.cellIndex i j) : row = i ∧ col = j := by
  unfold cellIndex at h
  cases horder : r.order with
  | byRow =>
    rw [horder] at h
    have hdiv := congrArg (· / r.cols) h
    have hmod := congrArg (· % r.cols) h
    simp only [index_div hcell.2, index_div hother.2, index_mod hcell.2, index_mod hother.2] at hdiv hmod
    exact ⟨hdiv, hmod⟩
  | byColumn =>
    rw [horder] at h
    have hdiv := congrArg (· / r.rows) h
    have hmod := congrArg (· % r.rows) h
    simp only [index_div hcell.1, index_div hother.1, index_mod hcell.1, index_mod hother.1] at hdiv hmod
    exact ⟨hmod, hdiv⟩

theorem get?_eq_none (h : ¬ (row < r.rows ∧ col < r.cols)) : r.get? row col = none := by
  rw [get?, dif_neg h]

theorem bounds_of_get? {value : α} (h : r.get? row col = some value) : row < r.rows ∧ col < r.cols := by
  by_contra hout
  rw [get?_eq_none hout] at h
  cases h

theorem get?_ofFn {rows cols : Nat} (value : Nat → Nat → α) (hrow : row < rows) (hcol : col < cols) :
    (ofFn rows cols value).get? row col = some (value row col) := by
  have hcell : row < (ofFn rows cols value).rows ∧ col < (ofFn rows cols value).cols := ⟨hrow, hcol⟩
  rw [get?, dif_pos hcell]
  simp only [ofFn, cellIndex, Array.getElem_ofFn, index_div hcol, index_mod hcol]

/-! ### Changing one cell -/

@[simp] theorem rows_put (value : α) : (r.put row col value).rows = r.rows := by
  unfold put
  split <;> rfl

@[simp] theorem cols_put (value : α) : (r.put row col value).cols = r.cols := by
  unfold put
  split <;> rfl

@[simp] theorem order_put (value : α) : (r.put row col value).order = r.order := by
  unfold put
  split <;> rfl

theorem get?_put (value : α) :
    (r.put row col value).get? i j =
      if (i = row ∧ j = col) ∧ row < r.rows ∧ col < r.cols then some value else r.get? i j := by
  by_cases hcell : row < r.rows ∧ col < r.cols
  · by_cases hother : i < r.rows ∧ j < r.cols
    · have hother' : i < (r.put row col value).rows ∧ j < (r.put row col value).cols := by simpa using hother
      rw [get?, dif_pos hother', get?, dif_pos hother]
      simp only [put, hcell, and_true, and_self]
      by_cases heq : i = row ∧ j = col
      · obtain ⟨rfl, rfl⟩ := heq
        rw [if_pos ⟨rfl, rfl⟩]
        exact congrArg some (Array.getElem_set_self (r.cellIndex_lt hcell.1 hcell.2))
      · rw [if_neg heq]
        refine congrArg some (Array.getElem_set_ne (r.cellIndex_lt hcell.1 hcell.2) _ fun hindex => heq ?_)
        obtain ⟨hrow, hcol⟩ := cellIndex_inj hcell hother hindex
        exact ⟨hrow.symm, hcol.symm⟩
    · have hne : ¬ ((i = row ∧ j = col) ∧ row < r.rows ∧ col < r.cols) := by
        intro h
        exact hother ⟨h.1.1 ▸ h.2.1, h.1.2 ▸ h.2.2⟩
      rw [if_neg hne, get?_eq_none hother, get?_eq_none (by simpa using hother)]
  · have hput : r.put row col value = r := by rw [put, dif_neg hcell]
    rw [hput, if_neg fun h => hcell h.2]

/-! ### Pasting -/

/-- The copy of one cell of a part. -/
def pasteCell (part : Raster α) (row col i : Nat) (r : Raster α) (j : Nat) : Raster α :=
  match part.get? i j with
  | some value => r.put (row + i) (col + j) value
  | none => r

/-- The copy of one row of a part, as far as a number of columns. -/
def pasteRow (part : Raster α) (row col i n : Nat) (r : Raster α) : Raster α :=
  (List.range n).foldl (pasteCell part row col i) r

variable {part : Raster α}

theorem shape_pasteCell : (pasteCell part row col i r j).rows = r.rows ∧ (pasteCell part row col i r j).cols = r.cols ∧
    (pasteCell part row col i r j).order = r.order := by
  unfold pasteCell
  split
  · exact ⟨rows_put _, cols_put _, order_put _⟩
  · exact ⟨rfl, rfl, rfl⟩

theorem shape_pasteRow (n : Nat) : (pasteRow part row col i n r).rows = r.rows ∧
    (pasteRow part row col i n r).cols = r.cols ∧ (pasteRow part row col i n r).order = r.order := by
  induction n with
  | zero => exact ⟨rfl, rfl, rfl⟩
  | succ n ih =>
    rw [pasteRow, List.range_succ, List.foldl_append, List.foldl_cons, List.foldl_nil]
    obtain ⟨hrows, hcols, horder⟩ :
        (pasteCell part row col i (pasteRow part row col i n r) n).rows = (pasteRow part row col i n r).rows ∧ _ :=
      shape_pasteCell
    exact ⟨hrows.trans ih.1, hcols.trans ih.2.1, horder.trans ih.2.2⟩

theorem get?_pasteRow {a b : Nat} (hcell : a < r.rows ∧ b < r.cols) {n : Nat} (hn : n ≤ part.cols) (hi : i < part.rows) :
    (pasteRow part row col i n r).get? a b =
      if a = row + i ∧ col ≤ b ∧ b < col + n then part.get? i (b - col) else r.get? a b := by
  induction n with
  | zero => rw [if_neg (by omega)]; rfl
  | succ n ih =>
    have hvalue : ∃ value, part.get? i n = some value := ⟨_, by rw [get?, dif_pos ⟨hi, by omega⟩]⟩
    obtain ⟨value, hvalue⟩ := hvalue
    obtain ⟨hrows, hcols, -⟩ : (pasteRow part row col i n r).rows = r.rows ∧ _ := shape_pasteRow n
    rw [pasteRow, List.range_succ, List.foldl_append, List.foldl_cons, List.foldl_nil, pasteCell, hvalue]
    show (put (pasteRow part row col i n r) (row + i) (col + n) value).get? a b = _
    rw [get?_put, hrows, hcols, ih (by omega)]
    by_cases hlast : a = row + i ∧ b = col + n
    · obtain ⟨rfl, rfl⟩ := hlast
      rw [if_pos ⟨⟨rfl, rfl⟩, hcell⟩, if_pos ⟨rfl, by omega, by omega⟩, Nat.add_sub_cancel_left, hvalue]
    · rw [if_neg fun h => hlast h.1]
      by_cases hrow : a = row + i ∧ col ≤ b ∧ b < col + n
      · rw [if_pos hrow, if_pos (by omega)]
      · rw [if_neg hrow, if_neg (by omega)]

/-- The copy of the first rows of a part. -/
def pasteRows (part : Raster α) (row col n : Nat) (r : Raster α) : Raster α :=
  (List.range n).foldl (fun r i => pasteRow part row col i part.cols r) r

theorem shape_pasteRows (n : Nat) : (pasteRows part row col n r).rows = r.rows ∧
    (pasteRows part row col n r).cols = r.cols ∧ (pasteRows part row col n r).order = r.order := by
  induction n with
  | zero => exact ⟨rfl, rfl, rfl⟩
  | succ n ih =>
    rw [pasteRows, List.range_succ, List.foldl_append, List.foldl_cons, List.foldl_nil]
    obtain ⟨hrows, hcols, horder⟩ :
        (pasteRow part row col n part.cols (pasteRows part row col n r)).rows = (pasteRows part row col n r).rows ∧ _ :=
      shape_pasteRow _
    exact ⟨hrows.trans ih.1, hcols.trans ih.2.1, horder.trans ih.2.2⟩

theorem get?_pasteRows {a b : Nat} (hcell : a < r.rows ∧ b < r.cols) {n : Nat} (hn : n ≤ part.rows) :
    (pasteRows part row col n r).get? a b =
      if (row ≤ a ∧ a < row + n) ∧ col ≤ b ∧ b < col + part.cols then part.get? (a - row) (b - col)
      else r.get? a b := by
  induction n with
  | zero => rw [if_neg (by omega)]; rfl
  | succ n ih =>
    obtain ⟨hrows, hcols, -⟩ : (pasteRows part row col n r).rows = r.rows ∧ _ := shape_pasteRows n
    rw [pasteRows, List.range_succ, List.foldl_append, List.foldl_cons, List.foldl_nil]
    show (pasteRow part row col n part.cols (pasteRows part row col n r)).get? a b = _
    rw [get?_pasteRow (by rwa [hrows, hcols]) (Nat.le_refl _) (by omega), ih (by omega)]
    by_cases hlast : a = row + n ∧ col ≤ b ∧ b < col + part.cols
    · obtain ⟨rfl, hcol⟩ := hlast
      rw [if_pos ⟨rfl, hcol⟩, if_pos ⟨by omega, hcol⟩, Nat.add_sub_cancel_left]
    · rw [if_neg hlast]
      by_cases hbefore : (row ≤ a ∧ a < row + n) ∧ col ≤ b ∧ b < col + part.cols
      · rw [if_pos hbefore, if_pos (by omega)]
      · rw [if_neg hbefore, if_neg (by omega)]

theorem shape_paste (r part : Raster α) (row col : Nat) : (r.paste row col part).rows = r.rows ∧
    (r.paste row col part).cols = r.cols ∧ (r.paste row col part).order = r.order := shape_pasteRows _

/-- A cell under a pasted part has the value of the part, every other cell keeps its own. -/
theorem get?_paste {a b : Nat} (hcell : a < r.rows ∧ b < r.cols) :
    (r.paste row col part).get? a b =
      if (row ≤ a ∧ a < row + part.rows) ∧ col ≤ b ∧ b < col + part.cols then part.get? (a - row) (b - col)
      else r.get? a b := get?_pasteRows hcell (Nat.le_refl _)

theorem noData_foldl {β : Type} {step : Raster α → β → Raster α} (h : ∀ r b, (step r b).noData = r.noData) (items : List β)
    (r : Raster α) : (items.foldl step r).noData = r.noData := by
  induction items generalizing r with
  | nil => rfl
  | cons item items ih => exact (ih _).trans (h r item)

theorem noData_paste (r part : Raster α) (row col : Nat) : (r.paste row col part).noData = r.noData := by
  refine noData_foldl (fun r i => noData_foldl (fun r j => ?_) _ r) _ r
  split
  · rw [put]
    split <;> rfl
  · rfl

/-! ### Cells row after row -/

theorem cellIndex_of_isContiguous (hmemory : r.isContiguous = true) (hrow : row < r.rows) (hcol : col < r.cols) :
    r.cellIndex row col = row * r.cols + col := by
  unfold cellIndex
  cases horder : r.order with
  | byRow => rfl
  | byColumn =>
    -- there is a single row or a single column
    simp only [isContiguous, horder, reduceCtorEq, decide_false, Bool.false_or, Bool.or_eq_true, decide_eq_true_eq]
      at hmemory
    rcases hmemory with hrows | hcols
    · obtain rfl : row = 0 := by omega
      rw [show r.rows = 1 by omega, Nat.mul_one, Nat.zero_mul, Nat.zero_add, Nat.add_zero]
    · obtain rfl : col = 0 := by omega
      rw [show r.cols = 1 by omega, Nat.zero_mul, Nat.mul_one, Nat.zero_add, Nat.add_zero]

/-- Whatever order memory has them in, the cells come out row after row. -/
theorem getElem?_toRows (hrow : row < r.rows) (hcol : col < r.cols) :
    r.toRows[row * r.cols + col]? = r.get? row col := by
  rw [get?, dif_pos ⟨hrow, hcol⟩, toRows]
  split
  · rename_i hmemory
    have hlt := r.cellIndex_lt hrow hcol
    rw [← cellIndex_of_isContiguous hmemory hrow hcol]
    exact Array.getElem?_eq_getElem hlt
  · rw [Array.getElem?_ofFn, dif_pos (index_lt_size hrow hcol)]
    simp only [index_div hcol, index_mod hcol]

/-- A raster in the order of its rows is the list of its cells, row after row. -/
theorem toList_cells {value : Nat → Nat → α} (horder : r.order = .byRow)
    (hvalue : ∀ i j, i < r.rows → j < r.cols → r.get? i j = some (value i j)) :
    r.cells.toList = (List.range r.rows).flatMap fun i => (List.range r.cols).map (value i) := by
  have hmemory : r.isContiguous = true := by simp [isContiguous, horder]
  have hcells : r.toRows = r.cells := by rw [toRows, if_pos hmemory]
  have hwidth : ∀ i ∈ List.range r.rows, ((List.range r.cols).map (value i)).length = r.cols := by
    intro i _
    rw [List.length_map, List.length_range]
  have hlength : r.cells.toList.length = ((List.range r.rows).flatMap fun i => (List.range r.cols).map (value i)).length := by
    rw [length_flatMap_block hwidth, List.length_range, Array.length_toList, r.size_eq]
  refine List.ext_getElem? fun k => ?_
  by_cases hk : k < r.rows * r.cols
  · have hcols : 0 < r.cols := Nat.pos_of_ne_zero fun hzero => by simp [hzero] at hk
    have hrow : k / r.cols < r.rows := (Nat.div_lt_iff_lt_mul hcols).mpr hk
    have hcol := Nat.mod_lt k hcols
    rw [← Nat.div_add_mod' k r.cols, getElem?_flatMap_block hwidth hcol, List.getElem?_range hrow, Option.bind_some,
      List.getElem?_map, List.getElem?_range hcol, Option.map_some, ← hvalue _ _ hrow hcol, ← getElem?_toRows hrow hcol,
      hcells, Array.getElem?_toList]
  · rw [← r.size_eq, ← Array.length_toList] at hk
    rw [List.getElem?_eq_none (Nat.le_of_not_lt hk), List.getElem?_eq_none (hlength ▸ Nat.le_of_not_lt hk)]

theorem size_toRows (r : Raster α) : r.toRows.size = r.rows * r.cols := by
  unfold toRows
  split
  · exact r.size_eq
  · exact Array.size_ofFn

end Raster

end SurfaceWater
