import Mathlib.Order.Bounds.Basic
import Mathlib.Order.Interval.Finset.Nat
import SurfaceWater.Proofs.Numeric.Word
import SurfaceWater.Proofs.Window

/-!
# Windows as sets of cells

A window with cells is known by its set of cells, because its first cell is the least of them and its last
one the greatest. So the laws of common parts are those of the intersection of sets, where no window at all
stands for the empty set. A machine finds the same parts and comes to the same verdicts in words of 64 bits,
if words hold the ends of the windows.
-/

namespace SurfaceWater.Window

variable {u v w : Window} {rows cols : Nat}

/-! ### Cells -/

/-- The cells of a window as a finite set. -/
def cells (w : Window) : Finset (Nat × Nat) := Finset.Ico w.rowOffset w.rowEnd ×ˢ Finset.Ico w.colOffset w.colEnd

theorem mem_cells {w : Window} {cell : Nat × Nat} : cell ∈ w.cells ↔ cell ∈ w := by
  rw [cells, Finset.mem_product, Finset.mem_Ico, Finset.mem_Ico, and_assoc]
  rfl

theorem card_cells (w : Window) : w.cells.card = w.size := by
  rw [cells, Finset.card_product, Nat.card_Ico, Nat.card_Ico, rowEnd, colEnd, Nat.add_sub_cancel_left,
    Nat.add_sub_cancel_left, size]

theorem nonempty_cells_iff : w.cells.Nonempty ↔ 0 < w.rows ∧ 0 < w.cols := by
  rw [cells, Finset.nonempty_product, Finset.nonempty_Ico, Finset.nonempty_Ico, rowEnd, colEnd,
    Nat.lt_add_right_iff_pos, Nat.lt_add_right_iff_pos]

theorem isEmpty_iff : w.isEmpty = true ↔ w.cells = ∅ := by
  rw [← Finset.card_eq_zero, card_cells, size, Nat.mul_eq_zero, isEmpty, Bool.or_eq_true, decide_eq_true_iff,
    decide_eq_true_iff]

theorem isEmpty_eq_false_iff : w.isEmpty = false ↔ w.cells.Nonempty := by
  rw [Finset.nonempty_iff_ne_empty, Ne, ← isEmpty_iff, Bool.not_eq_true]

/-- The first cell of a window is above and to the left of all others. -/
theorem isLeast_cells (hw : w.cells.Nonempty) : IsLeast (w.cells : Set (Nat × Nat)) (w.rowOffset, w.colOffset) := by
  rw [nonempty_cells_iff] at hw
  refine ⟨mem_cells.mpr (mem_iff.mpr (by omega)), fun cell hcell => ?_⟩
  obtain ⟨hrow, -, hcol, -⟩ := mem_iff.mp (mem_cells.mp hcell)
  exact ⟨hrow, hcol⟩

/-- The last one is below and to the right of all others. -/
theorem isGreatest_cells (hw : w.cells.Nonempty) :
    IsGreatest (w.cells : Set (Nat × Nat)) (w.rowEnd - 1, w.colEnd - 1) := by
  rw [nonempty_cells_iff] at hw
  unfold rowEnd colEnd
  refine ⟨mem_cells.mpr (mem_iff.mpr (by omega)), fun cell hcell => ?_⟩
  obtain ⟨-, hrow, -, hcol⟩ := mem_iff.mp (mem_cells.mp hcell)
  exact ⟨Nat.le_sub_one_of_lt hrow, Nat.le_sub_one_of_lt hcol⟩

theorem eq_of_cells_eq (hv : v.cells.Nonempty) (h : v.cells = w.cells) : v = w := by
  have hw : w.cells.Nonempty := h ▸ hv
  obtain ⟨hrowOffset, hcolOffset⟩ := Prod.mk.inj ((isLeast_cells hv).unique (h ▸ isLeast_cells hw))
  obtain ⟨hrowEnd, hcolEnd⟩ := Prod.mk.inj ((isGreatest_cells hv).unique (h ▸ isGreatest_cells hw))
  rw [nonempty_cells_iff] at hv hw
  unfold rowEnd at hrowEnd
  unfold colEnd at hcolEnd
  have hrows : v.rows = w.rows := by omega
  have hcols : v.cols = w.cols := by omega
  cases v
  cases w
  rw [mk.injEq]
  exact ⟨hrowOffset, hcolOffset, hrows, hcols⟩

/-! ### Common parts -/

/-- A set of cells is that of a window, or it is empty and there is no window. -/
def Spans : Option Window → Finset (Nat × Nat) → Prop
  | none, s => s = ∅
  | some w, s => w.cells.Nonempty ∧ s = w.cells

variable {p q : Option Window} {s : Finset (Nat × Nat)}

/-- A set of cells is spanned in one way at most. -/
theorem Spans.unique (hp : Spans p s) (hq : Spans q s) : p = q := by
  cases p with
  | none =>
    cases q with
    | none => rfl
    | some w => exact absurd (hq.2.symm.trans hp) hq.1.ne_empty
  | some v =>
    cases q with
    | none => exact absurd (hp.2.symm.trans hq) hp.1.ne_empty
    | some w => exact congrArg some (eq_of_cells_eq hp.1 (hp.2.symm.trans hq.2))

theorem Spans.mem_iff (hp : Spans p s) {cell : Nat × Nat} : (∃ part, p = some part ∧ cell ∈ part) ↔ cell ∈ s := by
  cases p with
  | none => simp [show s = ∅ from hp]
  | some w => simp [hp.2, mem_cells]

theorem intersect_eq_none_iff_disjoint : v.intersect w = none ↔ Disjoint v.cells w.cells := by
  rw [intersect_eq_none_iff, Finset.disjoint_left, Prod.forall]
  simp only [mem_cells]

/-- What two windows have in common spans the cells that are in both. -/
theorem spans_intersect (v w : Window) : Spans (v.intersect w) (v.cells ∩ w.cells) := by
  cases hpart : v.intersect w with
  | none => exact Finset.disjoint_iff_inter_eq_empty.mp (intersect_eq_none_iff_disjoint.mp hpart)
  | some part =>
    have hcells : v.cells ∩ w.cells = part.cells := by
      ext cell
      rw [Finset.mem_inter, mem_cells, mem_cells, mem_cells]
      exact (mem_of_intersect_eq_some hpart).symm
    have hmeet : ¬ Disjoint v.cells w.cells := by
      rw [← intersect_eq_none_iff_disjoint, hpart]
      exact Option.some_ne_none part
    rw [Finset.disjoint_iff_inter_eq_empty, hcells] at hmeet
    exact ⟨Finset.nonempty_iff_ne_empty.mpr hmeet, hcells⟩

theorem intersect_comm (v w : Window) : v.intersect w = w.intersect v := by
  have hcells := spans_intersect w v
  rw [Finset.inter_comm] at hcells
  exact (spans_intersect v w).unique hcells

theorem intersect_of_isEmpty (hv : v.isEmpty = true) (w : Window) : v.intersect w = none := by
  rw [intersect_eq_none_iff_disjoint, isEmpty_iff.mp hv]
  exact Finset.disjoint_empty_left w.cells

theorem intersect_self (hw : w.cells.Nonempty) : w.intersect w = some w :=
  (spans_intersect w w).unique ⟨hw, Finset.inter_self w.cells⟩

theorem Spans.bind_intersect (hp : Spans p s) (w : Window) : Spans (p.bind w.intersect) (w.cells ∩ s) := by
  cases p with
  | none => exact hp ▸ Finset.inter_empty w.cells
  | some v => exact hp.2 ▸ spans_intersect w v

/-- Three windows have the same part in common, whichever two are looked at first. -/
theorem intersect_assoc (u v w : Window) : (u.intersect v).bind (·.intersect w) = (v.intersect w).bind u.intersect := by
  have hflip : (·.intersect w) = w.intersect := funext fun v => intersect_comm v w
  have hleft := (spans_intersect u v).bind_intersect w
  have hright := (spans_intersect v w).bind_intersect u
  -- both sides span the cells that are in all three windows
  rw [← Finset.inter_assoc, Finset.inter_comm] at hright
  rw [hflip]
  exact hleft.unique hright

/-! ### Windows in a raster -/

theorem mem_full {row col : Nat} : (row, col) ∈ full rows cols ↔ row < rows ∧ col < cols := by
  simp only [mem_iff, full, Nat.zero_le, Nat.zero_add, true_and]

/-- A window may be read exactly if it has cells and is what it has in common with the whole raster. -/
theorem checkWithin_eq_ok_iff_intersect :
    w.checkWithin rows cols = .ok () ↔ w.isEmpty = false ∧ w.intersect (full rows cols) = some w := by
  rw [checkWithin_eq_ok_iff, intersect_eq_left_iff, isEmpty_eq_false_iff, nonempty_cells_iff]
  simp only [full, Nat.zero_le, Nat.zero_add, true_and, and_self_left]

theorem checkWithin_of_isEmpty (hempty : w.isEmpty = true) (rows cols : Nat) :
    w.checkWithin rows cols = .error (.dimensions w.cols w.rows) := if_pos hempty

/-- Whether a window with cells may be read depends on its last cell alone. -/
theorem checkWithin_of_isGreatest {row col : Nat} (hlast : IsGreatest (w.cells : Set (Nat × Nat)) (row, col)) :
    w.checkWithin rows cols =
      if (row, col) ∈ full rows cols then .ok () else .error (.outOfBounds row col rows cols) := by
  have hcells : w.cells.Nonempty := ⟨_, hlast.1⟩
  obtain ⟨rfl, rfl⟩ := Prod.mk.inj (hlast.unique (isGreatest_cells hcells))
  have hpos := nonempty_cells_iff.mp hcells
  have hinside : (w.rowEnd - 1, w.colEnd - 1) ∈ full rows cols ↔ ¬ (rows < w.rowEnd ∨ cols < w.colEnd) := by
    rw [mem_full, rowEnd, colEnd]
    omega
  rw [checkWithin, if_neg (ne_true_of_eq_false (isEmpty_eq_false_iff.mpr hcells))]
  by_cases hout : rows < w.rowEnd ∨ cols < w.colEnd
  · rw [if_pos hout, if_neg (hinside.not.mpr (not_not.mpr hout))]
  · rw [if_neg hout, if_pos (hinside.mpr hout)]

/-- There are two ways not to be read: without a cell, whatever the raster, and with a last cell that is outside it. -/
theorem checkWithin_eq_error_iff {error : Error} :
    w.checkWithin rows cols = .error error ↔
      (w.isEmpty = true ∧ error = .dimensions w.cols w.rows) ∨
        ∃ row col, IsGreatest (w.cells : Set (Nat × Nat)) (row, col) ∧ (row, col) ∉ full rows cols ∧
          error = .outOfBounds row col rows cols := by
  constructor
  · intro h
    by_cases hempty : w.isEmpty = true
    · rw [checkWithin_of_isEmpty hempty] at h
      exact .inl ⟨hempty, (Except.error.inj h).symm⟩
    · have hlast := isGreatest_cells (isEmpty_eq_false_iff.mp (eq_false_of_ne_true hempty))
      rw [checkWithin_of_isGreatest hlast] at h
      split at h
      case isTrue => cases h
      case isFalse hout => exact .inr ⟨_, _, hlast, hout, (Except.error.inj h).symm⟩
  · rintro (⟨hempty, rfl⟩ | ⟨row, col, hlast, hout, rfl⟩)
    · exact checkWithin_of_isEmpty hempty rows cols
    · rw [checkWithin_of_isGreatest hlast, if_neg hout]

/-! ### Windows in words -/

/-- Words hold the ends of a window. -/
structure InWords (w : Window) : Prop where
  rows : w.rowEnd < Word.count
  cols : w.colEnd < Word.count

/-- `intersect` in words. -/
def intersectInWords (v w : Window) : Option (Option Window) := do
  let rowStart := max v.rowOffset w.rowOffset
  let colStart := max v.colOffset w.colOffset
  let rowEnd := min (← Word.add? v.rowOffset v.rows) (← Word.add? w.rowOffset w.rows)
  let colEnd := min (← Word.add? v.colOffset v.cols) (← Word.add? w.colOffset w.cols)
  if rowEnd ≤ rowStart ∨ colEnd ≤ colStart then some none
  else
    let rows ← Word.sub? rowEnd rowStart
    let cols ← Word.sub? colEnd colStart
    some (some ⟨rowStart, colStart, rows, cols⟩)

/-- `checkWithin` in words. -/
def checkWithinInWords (w : Window) (rows cols : Nat) : Option (Except Error Unit) :=
  if w.isEmpty then some (.error (.dimensions w.cols w.rows))
  else do
    let rowEnd ← Word.add? w.rowOffset w.rows
    let colEnd ← Word.add? w.colOffset w.cols
    if rows < rowEnd ∨ cols < colEnd then
      let row ← Word.sub? rowEnd 1
      let col ← Word.sub? colEnd 1
      some (.error (.outOfBounds row col rows cols))
    else some (.ok ())

theorem InWords.add?_rows (hw : w.InWords) : Word.add? w.rowOffset w.rows = some w.rowEnd := Word.add?_of_lt hw.rows

theorem InWords.add?_cols (hw : w.InWords) : Word.add? w.colOffset w.cols = some w.colEnd := Word.add?_of_lt hw.cols

theorem InWords.full (hrows : rows < Word.count) (hcols : cols < Word.count) : (full rows cols).InWords :=
  ⟨by rwa [rowEnd, Window.full, Nat.zero_add], by rwa [colEnd, Window.full, Nat.zero_add]⟩

/-- Words that hold the ends of a window hold the ends of its parts. -/
theorem InWords.intersect (hv : v.InWords) {part : Window} (hpart : v.intersect w = some part) : part.InWords := by
  have hspans := spans_intersect v w
  rw [hpart] at hspans
  have hlast := mem_iff.mp ((mem_of_intersect_eq_some hpart).mp (mem_cells.mp (isGreatest_cells hspans.1).1)).1
  have hrows := hv.rows
  have hcols := hv.cols
  unfold rowEnd at hrows
  unfold colEnd at hcols
  exact ⟨by omega, by omega⟩

/-- The offset of what two windows have in common is subtracted from its end only if it is less. -/
theorem intersectInWords_eq (hv : v.InWords) (hw : w.InWords) : v.intersectInWords w = some (v.intersect w) := by
  rw [intersectInWords, intersect, hv.add?_rows, hv.add?_cols, hw.add?_rows, hw.add?_cols]
  simp only [Option.bind_eq_bind, Option.bind_some]
  split
  case isTrue => rfl
  case isFalse hmeet =>
    obtain ⟨hrows, hcols⟩ := not_or.mp hmeet
    rw [Word.sub?_of_le (Nat.le_of_not_le hrows), Word.sub?_of_le (Nat.le_of_not_le hcols)]
    rfl

theorem checkWithinInWords_of_isEmpty (hempty : w.isEmpty = true) (rows cols : Nat) :
    w.checkWithinInWords rows cols = some (.error (.dimensions w.cols w.rows)) := if_pos hempty

theorem checkWithinInWords_eq (hw : w.InWords) (rows cols : Nat) :
    w.checkWithinInWords rows cols = some (w.checkWithin rows cols) := by
  rw [checkWithinInWords, checkWithin, hw.add?_rows, hw.add?_cols]
  split
  case isTrue => rfl
  case isFalse hcells =>
    rw [Bool.not_eq_true, isEmpty_eq_false_iff, nonempty_cells_iff] at hcells
    -- a window with cells has an end that one can be taken from
    have hrow : 1 ≤ w.rowEnd := Nat.le_add_left_of_le hcells.1
    have hcol : 1 ≤ w.colEnd := Nat.le_add_left_of_le hcells.2
    simp only [Option.bind_eq_bind, Option.bind_some, Word.sub?_of_le hrow, Word.sub?_of_le hcol]
    split
    · rfl
    · rfl

/-- Words that hold the ends of windows are enough to find what the windows have in common and to check them, and both
follow the cells. Two windows have the cells in common that are in both, whichever is named first, and of three it does
not matter which two come first. A window may be read if it has cells and is part of the whole raster. One without cells
is refused before its ends are looked at, so that no word need hold them. -/
theorem operations_follow_cells :
    (∀ v w : Window, v.InWords → w.InWords →
      v.intersectInWords w = some (v.intersect w) ∧ ∀ part, v.intersect w = some part → part.InWords) ∧
    (∀ v w : Window,
      (∀ cell, (∃ part, v.intersect w = some part ∧ cell ∈ part) ↔ cell ∈ v ∧ cell ∈ w) ∧
      (v.intersect w = none ↔ ∀ cell, ¬ (cell ∈ v ∧ cell ∈ w)) ∧
      (v.isEmpty = true ↔ ∀ cell, cell ∉ v) ∧
      (v.isEmpty = true → v.intersect w = none ∧ w.intersect v = none)) ∧
    (∀ u v w : Window,
      v.intersect w = w.intersect v ∧
      (w.isEmpty = false → w.intersect w = some w) ∧
      (u.intersect v).bind (·.intersect w) = (v.intersect w).bind u.intersect) ∧
    ∀ (w : Window) (rows cols : Nat),
      (w.InWords → w.checkWithinInWords rows cols = some (w.checkWithin rows cols)) ∧
      (rows < Word.count → cols < Word.count → (full rows cols).InWords) ∧
      (w.checkWithin rows cols = .ok () ↔ w.isEmpty = false ∧ w.intersect (full rows cols) = some w) ∧
      (w.isEmpty = true → w.checkWithinInWords rows cols = some (.error (.dimensions w.cols w.rows))) ∧
      ∀ error, w.checkWithin rows cols = .error error ↔
        (w.isEmpty = true ∧ error = .dimensions w.cols w.rows) ∨
          ∃ row col, IsGreatest (w.cells : Set (Nat × Nat)) (row, col) ∧ (row, col) ∉ full rows cols ∧
            error = .outOfBounds row col rows cols := by
  refine ⟨fun v w hv hw => ⟨intersectInWords_eq hv hw, fun _ => hv.intersect⟩, fun v w => ⟨?_, ?_, ?_, ?_⟩,
    fun u v w => ⟨intersect_comm v w, ?_, intersect_assoc u v w⟩,
    fun w rows cols => ⟨fun hw => checkWithinInWords_eq hw rows cols, InWords.full, checkWithin_eq_ok_iff_intersect,
      fun hempty => checkWithinInWords_of_isEmpty hempty rows cols, fun _ => checkWithin_eq_error_iff⟩⟩
  · intro cell
    rw [(spans_intersect v w).mem_iff, Finset.mem_inter, mem_cells, mem_cells]
  · rw [intersect_eq_none_iff, Prod.forall]
    simp only [not_and]
  · rw [isEmpty_iff, Finset.eq_empty_iff_forall_notMem]
    simp only [mem_cells]
  · intro hempty
    exact ⟨intersect_of_isEmpty hempty w, (intersect_comm w v).trans (intersect_of_isEmpty hempty w)⟩
  · intro hcells
    exact intersect_self (isEmpty_eq_false_iff.mp hcells)

/-- From the cell in row 5 and column 8 to the last one whose place words can hold with the end behind it. -/
def toLastWord : Window := ⟨5, 8, Word.count - 6, Word.count - 9⟩

/-- That window and two smaller ones, and a window without cells that ends where no word reaches. -/
theorem operations_follow_cells_toLastWord :
    toLastWord.InWords ∧
      intersectInWords ⟨0, 0, 10, 10⟩ toLastWord = some (some ⟨5, 8, 5, 2⟩) ∧
      intersect ⟨5, 8, 5, 2⟩ ⟨6, 3, 2, 6⟩ = (toLastWord.intersect ⟨6, 3, 2, 6⟩).bind (intersect ⟨0, 0, 10, 10⟩) ∧
      toLastWord.checkWithinInWords 10 10 =
        some (.error (.outOfBounds (Word.count - 2) (Word.count - 2) 10 10)) ∧
      checkWithinInWords ⟨Word.count - 1, 0, 5, 0⟩ 10 10 = some (.error (.dimensions 0 5)) := by
  obtain ⟨hwords, -, hlaws, hcheck⟩ := operations_follow_cells
  have hlast : toLastWord.InWords := ⟨by decide, by decide⟩
  refine ⟨hlast, ?_, ?_, ?_, ?_⟩
  · exact (hwords ⟨0, 0, 10, 10⟩ toLastWord ⟨by decide, by decide⟩ hlast).1
  · exact (hlaws ⟨0, 0, 10, 10⟩ toLastWord ⟨6, 3, 2, 6⟩).2.2
  · exact (hcheck toLastWord 10 10).1 hlast
  · exact (hcheck ⟨Word.count - 1, 0, 5, 0⟩ 10 10).2.2.2.1 rfl

end SurfaceWater.Window
