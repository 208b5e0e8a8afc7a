import Mathlib.Algebra.GroupWithZero.Nat
import SurfaceWater.Image.LabelFile
import SurfaceWater.Proofs.Tile.Walk

/-!
# The strips of a result

A result of so many rows is asked for in strips: the `k`-th begins at row `k * stripRows` and has
`stripRows` rows, the last one those that remain. Every row is in one of them.
-/

namespace SurfaceWater

/-- What a source is asked for when its raster is written in strips of so many rows. -/
def StripSource.requests {σ : Type} (source : StripSource σ) (rowsPerStrip : Nat) : List (Nat × Nat) :=
  LabelFile.strips source.rows (min rowsPerStrip source.rows) source.rows 0

namespace LabelFile

/-- The strip of a number. -/
def stripAt (rows stripRows k : Nat) : Nat × Nat := (k * stripRows, min stripRows (rows - k * stripRows))

/-- The strips from the `k`-th on. As long as rows remain, a strip ends where the next one begins. -/
private theorem strips_from (rows : Nat) {stripRows : Nat} (hstrip : 0 < stripRows) (fuel k : Nat)
    (hfuel : ceilDiv rows stripRows ≤ k + fuel) :
    strips rows stripRows fuel (min (k * stripRows) rows) =
      (List.range' k (ceilDiv rows stripRows - k)).map (stripAt rows stripRows) := by
  induction fuel generalizing k with
  | zero =>
    rw [show ceilDiv rows stripRows - k = 0 by omega]
    rfl
  | succ fuel ih =>
    rw [strips]
    by_cases hk : k < ceilDiv rows stripRows
    · have hrow := (lt_ceilDiv_iff hstrip).mp hk
      have hnext : k * stripRows + min stripRows (rows - k * stripRows) = min ((k + 1) * stripRows) rows := by
        rw [Nat.add_mul, Nat.one_mul]
        omega
      have hrest : ceilDiv rows stripRows - k = ceilDiv rows stripRows - (k + 1) + 1 := by omega
      rw [Nat.min_eq_left (Nat.le_of_lt hrow), if_pos hrow]
      dsimp only
      rw [hnext, ih (k + 1) (by omega), hrest, List.range'_succ]
      rfl
    · have hrow := mt (lt_ceilDiv_iff hstrip).mpr hk
      rw [if_neg (by omega), show ceilDiv rows stripRows - k = 0 by omega]
      rfl

theorem strips_eq {rows stripRows : Nat} (hstrip : 0 < stripRows) :
    strips rows stripRows rows 0 = (List.range (ceilDiv rows stripRows)).map (stripAt rows stripRows) := by
  have hle : ceilDiv rows stripRows ≤ rows := ceilDiv_le hstrip
  have h := strips_from rows hstrip rows 0 (by omega)
  rw [Nat.zero_mul, Nat.zero_min, Nat.sub_zero, ← List.range_eq_range'] at h
  exact h

theorem mem_strips_iff {rows stripRows rowOffset height : Nat} (hstrip : 0 < stripRows) :
    (rowOffset, height) ∈ strips rows stripRows rows 0 ↔
      ∃ k, rowOffset = k * stripRows ∧ rowOffset < rows ∧ height = min stripRows (rows - rowOffset) := by
  rw [strips_eq hstrip, List.mem_map]
  constructor
  · intro h
    obtain ⟨k, hk, heq⟩ := h
    obtain ⟨rfl, rfl⟩ := Prod.mk.inj heq
    exact ⟨k, rfl, (lt_ceilDiv_iff hstrip).mp (List.mem_range.mp hk), rfl⟩
  · intro h
    obtain ⟨k, rfl, hrow, rfl⟩ := h
    exact ⟨k, List.mem_range.mpr ((lt_ceilDiv_iff hstrip).mpr hrow), rfl⟩

/-- The strip of a row. -/
theorem getElem?_strips {rows stripRows row : Nat} (hstrip : 0 < stripRows) (hrow : row < rows) :
    (strips rows stripRows rows 0)[row / stripRows]? = some (stripAt rows stripRows (row / stripRows)) := by
  have hle := Nat.div_mul_le_self row stripRows
  rw [strips_eq hstrip, List.getElem?_map, List.getElem?_range ((lt_ceilDiv_iff hstrip).mpr (by omega)), Option.map_some]

/-- A strip has rows, at most so many, and they are in the result. -/
theorem strip_bounds {rows stripRows rowOffset height : Nat} (hstrip : 0 < stripRows)
    (h : (rowOffset, height) ∈ strips rows stripRows rows 0) :
    0 < height ∧ height ≤ stripRows ∧ rowOffset + height ≤ rows := by
  obtain ⟨k, -, hrow, rfl⟩ := (mem_strips_iff hstrip).mp h
  omega

theorem exists_strip_of_lt {rows stripRows row : Nat} (hstrip : 0 < stripRows) (hrow : row < rows) :
    ∃ rowOffset height, (rowOffset, height) ∈ strips rows stripRows rows 0 ∧ rowOffset ≤ row ∧
      row < rowOffset + height := by
  have hle := Nat.div_mul_le_self row stripRows
  have hlt := Nat.lt_div_mul_add (a := row) hstrip
  exact ⟨_, _, (mem_strips_iff hstrip).mpr ⟨row / stripRows, rfl, by omega, rfl⟩, hle, by omega⟩

/-- The strips before the `n`-th have the cells of the rows before it. -/
theorem sum_cells (rows cols stripRows n : Nat) :
    ((List.range n).map fun k => (stripAt rows stripRows k).2 * cols).sum = min (n * stripRows) rows * cols := by
  induction n with
  | zero => rw [Nat.zero_mul, Nat.zero_min, Nat.zero_mul]; rfl
  | succ n ih =>
    have hnext : min (n * stripRows) rows + min stripRows (rows - n * stripRows) = min ((n + 1) * stripRows) rows := by
      rw [Nat.add_mul, Nat.one_mul]
      omega
    rw [List.range_succ, List.map_append, List.sum_append, ih, List.map_singleton, List.sum_singleton, stripAt,
      ← Nat.add_mul, hnext]

/-- The rows of the strips before the `n`-th, one strip after another, are the rows before it. -/
theorem flatMap_rows (rows stripRows n : Nat) :
    ((List.range n).flatMap fun k => (List.range (stripAt rows stripRows k).2).map ((stripAt rows stripRows k).1 + ·)) =
      List.range (min (n * stripRows) rows) := by
  induction n with
  | zero => rw [Nat.zero_mul, Nat.zero_min]; rfl
  | succ n ih =>
    have hnext : min ((n + 1) * stripRows) rows = min (n * stripRows) rows + min stripRows (rows - n * stripRows) := by
      rw [Nat.add_mul, Nat.one_mul]
      omega
    rw [List.range_succ, List.flatMap_append, ih, hnext, List.range_add, List.flatMap_cons, List.flatMap_nil,
      List.append_nil, stripAt]
    dsimp only
    -- beyond the last row there is nothing left to shift
    by_cases hrow : n * stripRows ≤ rows
    · rw [Nat.min_eq_left hrow]
    · rw [show rows - n * stripRows = 0 by omega, Nat.min_zero]
      rfl

theorem flatMap_strips {rows stripRows : Nat} (hstrip : 0 < stripRows) :
    ((strips rows stripRows rows 0).flatMap fun request => (List.range request.2).map (request.1 + ·)) = List.range rows := by
  have hle : rows ≤ ceilDiv rows stripRows * stripRows := le_ceilDiv_mul hstrip
  rw [strips_eq hstrip, List.flatMap_map]
  exact (flatMap_rows rows stripRows _).trans (by rw [Nat.min_eq_right hle])

end LabelFile

end SurfaceWater
