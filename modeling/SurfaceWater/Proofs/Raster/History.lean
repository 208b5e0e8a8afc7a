import SurfaceWater.Proofs.Raster.Grid

/-!
# Rasters with a history

A raster after any number of steps, some of which may have failed, is the grid that the steps describe. Each step does to
the raster what it does to the grid, and with the same answer, so a whole history does. What a cell holds is what was
written to it last: a step that makes a raster anew writes all of its cells, and no cell of a raster is older than that.
-/

namespace SurfaceWater

/-! ### Steps -/

/-- What changes a raster: making it anew, or writing some of it. -/
inductive RasterStep (α : Type) where
  | zeros (rows cols : Nat)
  | filled (rows cols : Nat) (value : α)
  | ofCells (order : CellOrder) (rows cols : Nat) (cells : Array α)
  | setCell (row col : Nat) (value : α)
  | fill (value : α)
  | setNoData (noData : Option α)

variable {α : Type} {step : RasterStep α} {steps : List (RasterStep α)} {r : Raster α} {g : Grid α} {row col : Nat}
  {value : α}

namespace RasterStep

/-- A step on the raster that there is. -/
def perform [OfNat α 0] : RasterStep α → ExceptT Error (StateM (Raster α)) Unit
  | zeros rows cols => set (Raster.filled rows cols (0 : α))
  | filled rows cols value => set (Raster.filled rows cols value)
  | ofCells order rows cols cells => do set (← Raster.ofCells order rows cols cells)
  | setCell row col value => do
    let r ← get
    set (← r.set row col value)
  | fill value => modify fun r => r.fill value
  | setNoData noData => modify fun r => r.setNoData noData

/-- The answer to a step, and the raster after it. -/
def on [OfNat α 0] (step : RasterStep α) (r : Raster α) : Except Error Unit × Raster α := step.perform.run.run r

/-- A step writes a value to a cell, if there is such a cell after it. -/
inductive Writes [OfNat α 0] (row col : Nat) : RasterStep α → α → Prop where
  | zeros {rows cols : Nat} (hrow : row < rows) (hcol : col < cols) : Writes row col (zeros rows cols) 0
  | filled {rows cols : Nat} {value : α} (hrow : row < rows) (hcol : col < cols) :
      Writes row col (filled rows cols value) value
  | ofCells {order : CellOrder} {rows cols : Nat} {cells : Array α} {value : α} (hsize : cells.size = rows * cols)
      (hrow : row < rows) (hcol : col < cols) (hvalue : cells[order.place rows cols row col]? = some value) :
      Writes row col (ofCells order rows cols cells) value
  | setCell {value : α} : Writes row col (setCell row col value) value
  | fill {value : α} : Writes row col (fill value) value

/-- A step that fails, by its error. -/
inductive Fails (r : Raster α) : RasterStep α → Error → Prop where
  | ofCells {order : CellOrder} {rows cols : Nat} {cells : Array α} (hsize : cells.size ≠ rows * cols) :
      Fails r (ofCells order rows cols cells) (.dimensions cols rows)
  | setCell {row col : Nat} {value : α} (hcell : r.rows ≤ row ∨ r.cols ≤ col) :
      Fails r (setCell row col value) (.outOfBounds row col r.rows r.cols)

end RasterStep

/-- What a step does to a grid, and its answer. -/
def Grid.perform [OfNat α 0] (step : RasterStep α) (g : Grid α) : Except Error Unit × Grid α :=
  match step with
  | .zeros rows cols => (.ok (), .constant rows cols 0)
  | .filled rows cols value => (.ok (), .constant rows cols value)
  | .ofCells order rows cols cells =>
    if h : cells.size = rows * cols then (.ok (), .ofCells order rows cols cells h)
    else (.error (.dimensions cols rows), g)
  | .setCell row col value =>
    if row < g.rows ∧ col < g.cols then (.ok (), g.put row col value)
    else (.error (.outOfBounds row col g.rows g.cols), g)
  | .fill value => (.ok (), g.fill value)
  | .setNoData noData => (.ok (), g.setNoData noData)

/-- The answers to steps that are taken one after another, and the state after them. -/
def takeSteps {σ β γ : Type} (perform : β → σ → γ × σ) : List β → σ → List γ × σ
  | [], state => ([], state)
  | step :: steps, state =>
    let (answer, next) := perform step state
    let (answers, last) := takeSteps perform steps next
    (answer :: answers, last)

/-- The answers to a history that begins without any cells, and the raster after it. -/
def RasterStep.run [OfNat α 0] (steps : List (RasterStep α)) : List (Except Error Unit) × Raster α :=
  takeSteps RasterStep.on steps (.filled 0 0 0)

/-- The answers to a history that begins without any cells, and the grid after it. -/
def Grid.run [OfNat α 0] (steps : List (RasterStep α)) : List (Except Error Unit) × Grid α :=
  takeSteps Grid.perform steps (.constant 0 0 0)

/-- The value that a history wrote to a cell last. -/
def LastWrite [OfNat α 0] (steps : List (RasterStep α)) (row col : Nat) (value : α) : Prop :=
  ∃ before step after, steps = before ++ step :: after ∧ step.Writes row col value ∧
    ∀ later ∈ after, ∀ other, ¬ later.Writes row col other

/-! ### One step -/

/-- The result of an operation that may fail becomes the raster, and an error leaves the raster as it was. -/
theorem run_lift_set (result : Except Error (Raster α)) (r : Raster α) :
    (liftM result >>= set : ExceptT Error (StateM (Raster α)) Unit).run.run r = match result with
      | .ok next => (.ok (), next)
      | .error e => (.error e, r) := by
  cases result <;> rfl

section

variable [OfNat α 0]

theorem on_ofCells (order : CellOrder) (rows cols : Nat) (cells : Array α) (r : Raster α) :
    (RasterStep.ofCells order rows cols cells).on r =
      if h : cells.size = rows * cols then (.ok (), ⟨rows, cols, order, cells, none, h⟩)
      else (.error (.dimensions cols rows), r) := by
  refine (run_lift_set (Raster.ofCells order rows cols cells) r).trans ?_
  rw [Raster.ofCells_eq]
  by_cases h : cells.size = rows * cols
  · rw [dif_pos h, dif_pos h]
  · rw [dif_neg h, dif_neg h]

theorem on_setCell (row col : Nat) (value : α) (r : Raster α) :
    (RasterStep.setCell row col value).on r =
      if row < r.rows ∧ col < r.cols then (.ok (), r.put row col value)
      else (.error (.outOfBounds row col r.rows r.cols), r) := by
  refine (run_lift_set (r.set row col value) r).trans ?_
  rw [Raster.set]
  by_cases h : row < r.rows ∧ col < r.cols
  · rw [if_pos h, if_pos h]
  · rw [if_neg h, if_neg h]
    rfl

/-- A step does to a raster what it does to its grid, with the same answer. -/
theorem perform_grid (step : RasterStep α) (r : Raster α) :
    Grid.perform step r.grid = Prod.map id Raster.grid (step.on r) := by
  cases step with
  | zeros rows cols => exact congrArg (Prod.mk _) (Raster.grid_filled rows cols 0).symm
  | filled rows cols value => exact congrArg (Prod.mk _) (Raster.grid_filled rows cols value).symm
  | ofCells order rows cols cells =>
    rw [on_ofCells, Grid.perform]
    by_cases hsize : cells.size = rows * cols
    · rw [dif_pos hsize, dif_pos hsize]
      rfl
    · rw [dif_neg hsize, dif_neg hsize]
      rfl
  | setCell row col value =>
    rw [on_setCell, Grid.perform]
    by_cases hcell : row < r.rows ∧ col < r.cols
    · rw [if_pos hcell]
      exact (if_pos hcell).trans (congrArg (Prod.mk _) (Raster.grid_put hcell.1 hcell.2 value).symm)
    · rw [if_neg hcell]
      exact if_neg hcell
  | fill value => exact congrArg (Prod.mk _) (Raster.grid_fill r value).symm
  | setNoData noData => rfl

/-- A step that does not succeed leaves the raster as it was. -/
theorem on_of_error {e : Error} (h : (step.on r).1 = .error e) : step.Fails r e ∧ (step.on r).2 = r := by
  cases step with
  | zeros rows cols => cases h
  | filled rows cols value => cases h
  | ofCells order rows cols cells =>
    rw [on_ofCells] at h ⊢
    by_cases hsize : cells.size = rows * cols
    · rw [dif_pos hsize] at h
      cases h
    · rw [dif_neg hsize] at h ⊢
      cases h
      exact ⟨.ofCells hsize, rfl⟩
  | setCell row col value =>
    rw [on_setCell] at h ⊢
    by_cases hcell : row < r.rows ∧ col < r.cols
    · rw [if_pos hcell] at h
      cases h
    · rw [if_neg hcell] at h ⊢
      cases h
      exact ⟨.setCell (by omega), rfl⟩
  | fill value => cases h
  | setNoData noData => cases h

theorem on_eq_error_iff {e : Error} : (step.on r).1 = .error e ↔ step.Fails r e := by
  constructor
  · exact fun h => (on_of_error h).1
  · intro h
    cases h with
    | ofCells hsize => rw [on_ofCells, dif_neg hsize]
    | setCell hcell => rw [on_setCell, if_neg (by omega)]

/-- A cell that a step writes holds what the step writes to it. -/
theorem get?_of_writes (h : step.Writes row col value) (hrow : row < (g.perform step).2.rows)
    (hcol : col < (g.perform step).2.cols) : (g.perform step).2.get? row col = some value := by
  cases h with
  | zeros => exact Grid.get?_constant 0 hrow hcol
  | filled => exact Grid.get?_constant value hrow hcol
  | ofCells hsize hrow' hcol' hvalue =>
    rw [Grid.perform, dif_pos hsize, Grid.get?_ofCells hsize hrow' hcol', hvalue]
  | setCell =>
    rw [Grid.perform] at hrow hcol ⊢
    by_cases hcell : row < g.rows ∧ col < g.cols
    · rw [if_pos hcell, Grid.get?_put value hcell.1 hcell.2, if_pos ⟨rfl, rfl⟩]
    · rw [if_neg hcell] at hrow hcol
      exact absurd ⟨hrow, hcol⟩ hcell
  | fill => exact Grid.get?_fill value hrow hcol

/-- A cell that a step does not write was there before, with the value that it has. -/
theorem get?_of_not_writes (h : ∀ value, ¬ step.Writes row col value) (hrow : row < (g.perform step).2.rows)
    (hcol : col < (g.perform step).2.cols) :
    (row < g.rows ∧ col < g.cols) ∧ (g.perform step).2.get? row col = g.get? row col := by
  cases step with
  | zeros rows cols => exact absurd (.zeros hrow hcol) (h 0)
  | filled rows cols value => exact absurd (.filled hrow hcol) (h value)
  | ofCells order rows cols cells =>
    rw [Grid.perform] at hrow hcol ⊢
    by_cases hsize : cells.size = rows * cols
    · rw [dif_pos hsize] at hrow hcol
      have hvalue := Array.getElem?_eq_getElem (order.place_lt hsize hrow hcol)
      exact absurd (.ofCells hsize hrow hcol hvalue) (h _)
    · rw [dif_neg hsize] at hrow hcol ⊢
      exact ⟨⟨hrow, hcol⟩, rfl⟩
  | setCell i j value =>
    rw [Grid.perform] at hrow hcol ⊢
    have hother : ¬ (row = i ∧ col = j) := fun hcell => by
      obtain ⟨rfl, rfl⟩ := hcell
      exact h value .setCell
    by_cases hcell : i < g.rows ∧ j < g.cols
    · rw [if_pos hcell] at hrow hcol ⊢
      refine ⟨⟨hrow, hcol⟩, ?_⟩
      rw [Grid.get?_put (g := g) value hrow hcol, if_neg hother]
    · rw [if_neg hcell] at hrow hcol ⊢
      exact ⟨⟨hrow, hcol⟩, rfl⟩
  | fill value => exact absurd .fill (h value)
  | setNoData noData => exact ⟨⟨hrow, hcol⟩, rfl⟩

/-! ### Histories -/

/-- What a machine does to a view of its state at each step, it does to it at a whole history. -/
theorem takeSteps_map {σ τ β γ : Type} {perform : β → σ → γ × σ} {seen : β → τ → γ × τ} {view : σ → τ}
    (h : ∀ step state, seen step (view state) = Prod.map id view (perform step state)) (steps : List β) (state : σ) :
    takeSteps seen steps (view state) = Prod.map id view (takeSteps perform steps state) := by
  induction steps generalizing state with
  | nil => rfl
  | cons step steps ih =>
    rw [takeSteps, h]
    show ((perform step state).1 :: (takeSteps seen steps (view (perform step state).2)).1, _) = _
    rw [ih]
    rfl

theorem takeSteps_concat {σ β γ : Type} (perform : β → σ → γ × σ) (steps : List β) (step : β) (state : σ) :
    (takeSteps perform (steps ++ [step]) state).2 = (perform step (takeSteps perform steps state).2).2 := by
  induction steps generalizing state with
  | nil => rfl
  | cons first steps ih => exact ih (perform first state).2

theorem lastWrite_concat : LastWrite (steps ++ [step]) row col value ↔
    step.Writes row col value ∨ (∀ other, ¬ step.Writes row col other) ∧ LastWrite steps row col value := by
  constructor
  · intro h
    obtain ⟨before, written, after, hsteps, hwrites, hafter⟩ := h
    -- the write is the last step itself, or the last step is one of those after it
    rcases List.eq_nil_or_concat after with rfl | ⟨after, last, rfl⟩
    · obtain ⟨-, hlast⟩ := List.append_inj' hsteps rfl
      obtain rfl := List.singleton_inj.mp hlast
      exact .inl hwrites
    · rw [List.concat_eq_append, ← List.cons_append, ← List.append_assoc] at hsteps
      obtain ⟨hbefore, hlast⟩ := List.append_inj' hsteps rfl
      obtain rfl := List.singleton_inj.mp hlast
      rw [List.concat_eq_append] at hafter
      exact .inr ⟨hafter step (by simp), before, written, after, hbefore, hwrites,
        fun later hlater => hafter later (List.mem_append_left _ hlater)⟩
  · intro h
    rcases h with hwrites | ⟨hnot, before, written, after, rfl, hwrites, hafter⟩
    · exact ⟨steps, step, [], rfl, hwrites, List.forall_mem_nil _⟩
    · refine ⟨before, written, after ++ [step], by simp, hwrites, ?_⟩
      rw [List.forall_mem_append, List.forall_mem_singleton]
      exact ⟨hafter, hnot⟩

/-- Whatever the history, a cell holds what was written to it last. -/
theorem get?_run_iff (hrow : row < (Grid.run steps).2.rows) (hcol : col < (Grid.run steps).2.cols) :
    (Grid.run steps).2.get? row col = some value ↔ LastWrite steps row col value := by
  induction steps using List.reverseRecOn with
  | nil => exact absurd hrow (Nat.not_lt_zero row)
  | append_singleton steps step ih =>
    rw [Grid.run, takeSteps_concat] at hrow hcol ⊢
    rw [lastWrite_concat]
    -- a cell that the last step does not write was there before it, so the steps before tell its value
    by_cases hwrites : ∃ written, step.Writes row col written
    · obtain ⟨written, hwritten⟩ := hwrites
      rw [get?_of_writes hwritten hrow hcol, or_iff_left fun h => h.1 written hwritten]
      constructor
      · intro h
        exact Option.some.inj h ▸ hwritten
      · intro h
        rw [← get?_of_writes hwritten hrow hcol, get?_of_writes h hrow hcol]
    · have hnot := not_exists.mp hwrites
      obtain ⟨⟨hrow', hcol'⟩, hsame⟩ := get?_of_not_writes hnot hrow hcol
      rw [hsame, or_iff_right (hnot value), and_iff_right hnot]
      exact ih hrow' hcol'

theorem run_grid (steps : List (RasterStep α)) : Grid.run steps = Prod.map id Raster.grid (RasterStep.run steps) := by
  rw [Grid.run, ← Raster.grid_filled]
  exact takeSteps_map perform_grid steps (.filled 0 0 0)

/-! ### What a raster shows -/

end

namespace Raster

theorem get_eq_ok_iff : r.get row col = .ok value ↔ r.get? row col = some value := by
  unfold get
  cases r.get? row col with
  | none => simp
  | some found => simp

theorem get_eq_error_iff {e : Error} :
    r.get row col = .error e ↔ (r.rows ≤ row ∨ r.cols ≤ col) ∧ e = .outOfBounds row col r.rows r.cols := by
  unfold get
  by_cases hcell : row < r.rows ∧ col < r.cols
  · rw [get?, dif_pos hcell]
    refine iff_of_false (by simp) fun h => ?_
    omega
  · rw [get?_eq_none hcell, and_iff_right (by omega), Except.error.injEq]
    exact eq_comm

theorem get_put (hrow : row < r.rows) (hcol : col < r.cols) (i j : Nat) :
    (r.put row col value).get i j = if i = row ∧ j = col then .ok value else r.get i j := by
  unfold get
  rw [get?_put]
  by_cases hcell : i = row ∧ j = col
  · rw [if_pos ⟨hcell, hrow, hcol⟩, if_pos hcell]
  · rw [if_neg fun h => hcell h.1, if_neg hcell, outside, outside, rows_put, cols_put]

/-- What a raster shows of itself, and what a step may do to it. -/
structure ShowsGrid [DecidableEq α] [OfNat α 0] (r : Raster α) : Prop where
  get_eq_error_iff : ∀ row col e, r.get row col = .error e ↔
    (r.rows ≤ row ∨ r.cols ≤ col) ∧ e = .outOfBounds row col r.rows r.cols
  step_eq_error_iff : ∀ (step : RasterStep α) e, (step.on r).1 = .error e ↔ step.Fails r e
  unchanged : ∀ (step : RasterStep α) e, (step.on r).1 = .error e → (step.on r).2 = r
  setCell : ∀ row col value, row < r.rows → col < r.cols →
    ∃ next, (RasterStep.setCell row col value).on r = (.ok (), next) ∧
      (next.rows = r.rows ∧ next.cols = r.cols ∧ next.noData = r.noData) ∧
      ∀ i j, next.get i j = if i = row ∧ j = col then .ok value else r.get i j
  size_toRows : r.toRows.size = r.rows * r.cols
  getElem_toRows : ∀ row col value, row < r.rows → col < r.cols →
    (r.toRows[row * r.cols + col]? = some value ↔ r.get row col = .ok value)
  toRows_eq_iterated : r.toRows = r.iterated
  isContiguous_iff : r.isContiguous = true ↔
    ∀ row col, row < r.rows → col < r.cols → r.cellIndex row col = row * r.cols + col
  cells_eq_iterated : r.isContiguous = true → r.cells = r.iterated
  noDataCount_eq : r.noDataCount = r.grid.noDataCount
  noDataCount_none : r.noData = none → r.noDataCount = 0

variable [DecidableEq α]

theorem noDataCount_of_none (h : r.noData = none) : r.noDataCount = 0 := by
  rw [noDataCount, Array.countP_eq_zero]
  intro value _
  rw [isNoData, h]
  simp

theorem showsGrid [OfNat α 0] (r : Raster α) : r.ShowsGrid where
  get_eq_error_iff _ _ _ := get_eq_error_iff
  step_eq_error_iff _ _ := on_eq_error_iff
  unchanged _ _ h := (on_of_error h).2
  setCell row col value hrow hcol :=
    ⟨r.put row col value, (on_setCell row col value r).trans (if_pos ⟨hrow, hcol⟩),
      ⟨rows_put value, cols_put value, noData_put r row col value⟩, get_put hrow hcol⟩
  size_toRows := r.size_toRows
  getElem_toRows row col value hrow hcol := by rw [getElem?_toRows hrow hcol, get_eq_ok_iff]
  toRows_eq_iterated := r.toRows_eq_iterated
  isContiguous_iff := isContiguous_iff
  cells_eq_iterated := cells_eq_iterated
  noDataCount_eq := r.noDataCount_grid
  noDataCount_none := noDataCount_of_none

end Raster

/-- A raster after any history is the grid that the history describes, with the same answers on the way. A cell is there
exactly if it is within the shape, and its value is the one that was written to it last. -/
theorem raster_follows_grid [DecidableEq α] [OfNat α 0] (steps : List (RasterStep α)) :
    Grid.run steps = Prod.map id Raster.grid (RasterStep.run steps) ∧
    (∀ row col value, (RasterStep.run steps).2.get row col = .ok value ↔
      (row < (RasterStep.run steps).2.rows ∧ col < (RasterStep.run steps).2.cols) ∧ LastWrite steps row col value) ∧
    (RasterStep.run steps).2.ShowsGrid := by
  have hgrid : (Grid.run steps).2 = (RasterStep.run steps).2.grid := congrArg Prod.snd (run_grid steps)
  refine ⟨run_grid steps, fun row col value => ?_, Raster.showsGrid _⟩
  have hvalue (hrow : row < (RasterStep.run steps).2.rows) (hcol : col < (RasterStep.run steps).2.cols) :
      (RasterStep.run steps).2.get? row col = some value ↔ LastWrite steps row col value := by
    rw [← Raster.get?_grid, ← hgrid]
    exact get?_run_iff (by rw [hgrid]; exact hrow) (by rw [hgrid]; exact hcol)
  rw [Raster.get_eq_ok_iff]
  constructor
  · intro h
    obtain ⟨hrow, hcol⟩ := Raster.bounds_of_get? h
    exact ⟨⟨hrow, hcol⟩, (hvalue hrow hcol).mp h⟩
  · intro h
    exact (hvalue h.1.1 h.1.2).mpr h.2

/-- Two rasters one after another, a cell that is written, and two steps that fail. -/
def mixedHistory : List (RasterStep UInt8) :=
  [.filled 4 4 7, .ofCells .byColumn 2 3 #[1, 2, 3, 4, 5, 6], .setCell 1 2 9, .setCell 2 0 5, .ofCells .byRow 1 1 #[],
    .setNoData (some 9)]

theorem raster_follows_grid_mixedHistory :
    LastWrite mixedHistory 0 1 3 ∧ LastWrite mixedHistory 1 2 9 ∧ ¬ LastWrite mixedHistory 1 2 6 ∧
      (RasterStep.run mixedHistory).2.toRows[1 * 3 + 2]? = some 9 ∧ (Grid.run mixedHistory).2.noDataCount = 1 := by
  obtain ⟨hgrid, hget, hshows⟩ := raster_follows_grid mixedHistory
  refine ⟨((hget 0 1 3).mp (by decide)).2, ((hget 1 2 9).mp (by decide)).2, fun h => ?_, ?_, ?_⟩
  · exact absurd ((hget 1 2 6).mpr ⟨by decide, h⟩) (by decide)
  · exact (hshows.getElem_toRows 1 2 9 (by decide) (by decide)).mpr (by decide)
  · rw [hgrid]
    exact hshows.noDataCount_eq.symm.trans (by decide)

end SurfaceWater
