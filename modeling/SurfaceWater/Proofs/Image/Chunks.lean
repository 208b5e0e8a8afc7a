import SurfaceWater.Image.Reader
import SurfaceWater.Proofs.Tile.Walk

/-!
# The chunks of an image

The chunks partition the image: a pixel lies in the chunk of row `row / chunkHeight` and column
`col / chunkWidth` and in no other. A window is read from the chunks that it meets, so two windows
are read from separate chunks exactly when no two of their pixels lie in one.
-/

namespace SurfaceWater

/-- A range of a length meets a piece exactly when it has a point in it. -/
theorem mem_pieces_iff {size length : Nat} (start i : Nat) (hsize : 0 < size) (hlength : 0 < length) :
    (ImageLayout.pieces size start length).1 ≤ i ∧
        i < (ImageLayout.pieces size start length).1 + (ImageLayout.pieces size start length).2 ↔
      ∃ x, start ≤ x ∧ x < start + length ∧ x / size = i := by
  have hmono : start / size ≤ (start + length - 1) / size := Nat.div_le_div_right (by omega)
  simp only [ImageLayout.pieces]
  constructor
  · intro h
    obtain ⟨hfirst, hlast⟩ := h
    have hle : i ≤ (start + length - 1) / size := by omega
    by_cases hstart : i = start / size
    · exact ⟨start, Nat.le_refl _, by omega, hstart.symm⟩
    · refine ⟨i * size, ?_, ?_, Nat.mul_div_cancel _ hsize⟩
      · exact Nat.le_of_lt ((Nat.div_lt_iff_lt_mul hsize).mp (by omega))
      · have := (Nat.le_div_iff_mul_le hsize).mp hle
        omega
  · intro h
    obtain ⟨x, hstart, hend, rfl⟩ := h
    have hfirst : start / size ≤ x / size := Nat.div_le_div_right hstart
    have hlast : x / size ≤ (start + length - 1) / size := Nat.div_le_div_right (by omega)
    omega

namespace ImageLayout

/-- The image and its chunks have pixels. -/
structure Proper (l : ImageLayout) : Prop where
  width_pos : 0 < l.width
  height_pos : 0 < l.height
  chunkWidth_pos : 0 < l.chunkWidth
  chunkHeight_pos : 0 < l.chunkHeight

variable {l : ImageLayout}

theorem proper_of_lt {i j : Nat} (hi : i < l.chunksDown) (hj : j < l.chunksAcross) : l.Proper := by
  obtain ⟨hheight, hchunkHeight⟩ := pos_of_ceilDiv_pos (Nat.zero_lt_of_lt hi)
  obtain ⟨hwidth, hchunkWidth⟩ := pos_of_ceilDiv_pos (Nat.zero_lt_of_lt hj)
  exact ⟨hwidth, hheight, hchunkWidth, hchunkHeight⟩

/-- A pixel lies in a chunk exactly when it is in the image and the chunk is that of its row and
column. -/
theorem mem_chunkWindow_iff (hl : l.Proper) {chunkRow chunkCol row col : Nat} :
    (row, col) ∈ l.chunkWindow chunkRow chunkCol ↔
      (row < l.height ∧ col < l.width) ∧ row / l.chunkHeight = chunkRow ∧ col / l.chunkWidth = chunkCol := by
  have hheight := hl.chunkHeight_pos
  have hwidth := hl.chunkWidth_pos
  rw [Nat.div_eq_iff hheight, Nat.div_eq_iff hwidth]
  simp only [Window.mem_iff, chunkWindow]
  omega

theorem corner_lt (hl : l.Proper) {chunkRow chunkCol : Nat} (hrow : chunkRow < l.chunksDown)
    (hcol : chunkCol < l.chunksAcross) :
    chunkRow * l.chunkHeight < l.height ∧ chunkCol * l.chunkWidth < l.width :=
  ⟨(lt_ceilDiv_iff hl.chunkHeight_pos).mp hrow, (lt_ceilDiv_iff hl.chunkWidth_pos).mp hcol⟩

/-- The chunks that a window is read from are those that its pixels lie in. -/
theorem mem_chunksOf_iff (hl : l.Proper) {w : Window} (hrows : 0 < w.rows) (hcols : 0 < w.cols) {i j : Nat} :
    (i, j) ∈ l.chunksOf w ↔ ∃ row col, (row, col) ∈ w ∧ row / l.chunkHeight = i ∧ col / l.chunkWidth = j := by
  have hi := mem_pieces_iff w.rowOffset i hl.chunkHeight_pos hrows
  have hj := mem_pieces_iff w.colOffset j hl.chunkWidth_pos hcols
  have hmem : (i, j) ∈ l.chunksOf w ↔
      ((l.chunkRows w).1 ≤ i ∧ i < (l.chunkRows w).1 + (l.chunkRows w).2) ∧
        ((l.chunkCols w).1 ≤ j ∧ j < (l.chunkCols w).1 + (l.chunkCols w).2) := by
    simp only [chunksOf, List.mem_flatMap, List.mem_map, List.mem_range, Prod.mk.injEq]
    constructor
    · intro h
      obtain ⟨a, ha, b, hb, rfl, rfl⟩ := h
      omega
    · intro h
      obtain ⟨⟨hi₁, hi₂⟩, hj₁, hj₂⟩ := h
      exact ⟨i - (l.chunkRows w).1, by omega, j - (l.chunkCols w).1, by omega, by omega, by omega⟩
  rw [hmem, chunkRows, chunkCols, hi, hj]
  constructor
  · intro h
    obtain ⟨⟨row, hrow₁, hrow₂, hrow⟩, col, hcol₁, hcol₂, hcol⟩ := h
    exact ⟨row, col, Window.mem_iff.mpr ⟨hrow₁, hrow₂, hcol₁, hcol₂⟩, hrow, hcol⟩
  · intro h
    obtain ⟨row, col, hcell, hrow, hcol⟩ := h
    obtain ⟨hrow₁, hrow₂, hcol₁, hcol₂⟩ := Window.mem_iff.mp hcell
    exact ⟨⟨row, hrow₁, hrow₂, hrow⟩, col, hcol₁, hcol₂, hcol⟩

/-- A window meets a chunk: they have pixels in common. -/
def Meets (l : ImageLayout) (w : Window) (chunkRow chunkCol : Nat) : Prop :=
  (l.chunkWindow chunkRow chunkCol).intersect w ≠ none

theorem meets_iff (hl : l.Proper) {w : Window} {i j : Nat} :
    l.Meets w i j ↔ ∃ row col, (row, col) ∈ w ∧ (row < l.height ∧ col < l.width) ∧
      row / l.chunkHeight = i ∧ col / l.chunkWidth = j := by
  simp only [Meets, ne_eq, Window.intersect_eq_none_iff, mem_chunkWindow_iff hl]
  constructor
  · intro h
    by_cases hex : ∃ row col, (row, col) ∈ w ∧ (row < l.height ∧ col < l.width) ∧
        row / l.chunkHeight = i ∧ col / l.chunkWidth = j
    · exact hex
    · exact absurd (fun row col hchunk hw => hex ⟨row, col, hw, hchunk⟩) h
  · intro hall h
    obtain ⟨row, col, hw, hchunk⟩ := hall
    exact h row col hchunk hw

/-- A window inside the image is read from exactly the chunks that it meets. -/
theorem mem_chunksOf_iff_meets (hl : l.Proper) {w : Window} (hw : w.checkWithin l.height l.width = .ok ()) {i j : Nat} :
    (i, j) ∈ l.chunksOf w ↔ l.Meets w i j := by
  obtain ⟨⟨hrows, hcols⟩, hbottom, hright⟩ := Window.checkWithin_eq_ok_iff.mp hw
  rw [mem_chunksOf_iff hl hrows hcols, meets_iff hl]
  constructor
  · intro h
    obtain ⟨row, col, hcell, hchunk⟩ := h
    have := Window.mem_iff.mp hcell
    exact ⟨row, col, hcell, by omega, hchunk⟩
  · intro h
    obtain ⟨row, col, hcell, _, hchunk⟩ := h
    exact ⟨row, col, hcell, hchunk⟩

end ImageLayout

end SurfaceWater
