import SurfaceWater.Window

/-!
# Windows and their cells

What the operations on windows mean for the cells in them.
-/

namespace SurfaceWater.Window

theorem mem_iff {w : Window} {row col : Nat} :
    (row, col) ∈ w ↔ w.rowOffset ≤ row ∧ row < w.rowOffset + w.rows ∧ w.colOffset ≤ col ∧ col < w.colOffset + w.cols :=
  Iff.rfl

/-- Windows have no part in common exactly when they share no cell. -/
theorem intersect_eq_none_iff {v w : Window} : v.intersect w = none ↔ ∀ row col, (row, col) ∈ v → (row, col) ∉ w := by
  unfold intersect rowEnd colEnd
  dsimp only
  split
  · simp only [true_iff]
    intro row col hv hw
    rw [mem_iff] at hv hw
    omega
  · simp only [reduceCtorEq, false_iff]
    intro h
    have hcorner := h (max v.rowOffset w.rowOffset) (max v.colOffset w.colOffset)
    rw [mem_iff, mem_iff] at hcorner
    omega

/-- What two windows have in common are the cells of both. -/
theorem mem_of_intersect_eq_some {v w part : Window} (h : v.intersect w = some part) {row col : Nat} :
    (row, col) ∈ part ↔ (row, col) ∈ v ∧ (row, col) ∈ w := by
  unfold intersect rowEnd colEnd at h
  dsimp only at h
  split at h
  · cases h
  · obtain rfl := Option.some.inj h
    simp only [mem_iff]
    omega

/-- A window is part of another one when it has cells and all of them are in the other one. -/
theorem intersect_eq_left_iff {v w : Window} :
    v.intersect w = some v ↔
      (0 < v.rows ∧ 0 < v.cols) ∧ (w.rowOffset ≤ v.rowOffset ∧ v.rowOffset + v.rows ≤ w.rowOffset + w.rows) ∧
        w.colOffset ≤ v.colOffset ∧ v.colOffset + v.cols ≤ w.colOffset + w.cols := by
  unfold intersect rowEnd colEnd
  dsimp only
  split
  · simp only [reduceCtorEq, false_iff]
    omega
  · rw [Option.some.injEq, mk.injEq]
    omega

/-- A window that may be read has cells and ends inside the raster. -/
theorem checkWithin_eq_ok_iff {w : Window} {rows cols : Nat} :
    w.checkWithin rows cols = .ok () ↔
      (0 < w.rows ∧ 0 < w.cols) ∧ w.rowOffset + w.rows ≤ rows ∧ w.colOffset + w.cols ≤ cols := by
  unfold checkWithin
  split
  · rename_i hempty
    simp only [isEmpty, Bool.or_eq_true, decide_eq_true_eq] at hempty
    simp only [reduceCtorEq, false_iff]
    omega
  · rename_i hempty
    simp only [isEmpty, Bool.or_eq_true, decide_eq_true_eq] at hempty
    unfold rowEnd colEnd
    split
    · simp only [reduceCtorEq, false_iff]
      omega
    · simp only [true_iff]
      omega

end SurfaceWater.Window
