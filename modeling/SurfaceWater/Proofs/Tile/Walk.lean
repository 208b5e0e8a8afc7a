import SurfaceWater.Proofs.Window
import SurfaceWater.Tile

/-!
# The walk through an area

A walk yields the tiles of a grid: the cursor before the `k`-th tile stands in row `k / across` and
column `k % across` of the grid, where `across` tiles stand side by side. The rest of the theory
reaches a walk only through `tiles_within`, which says that its tiles are `tileAt 0`, `tileAt 1`, …,
and through the cells that these have.
-/

namespace SurfaceWater

/-! ### Pieces of a length -/

theorem lt_ceilDiv_iff {length size i : Nat} (hsize : 0 < size) : i < ceilDiv length size ↔ i * size < length := by
  unfold ceilDiv
  rw [Nat.lt_iff_add_one_le, Nat.le_div_iff_mul_le hsize, Nat.add_mul, Nat.one_mul]
  omega

theorem div_lt_ceilDiv {length size x : Nat} (hsize : 0 < size) (hx : x < length) :
    x / size < ceilDiv length size := by
  have := Nat.div_mul_le_self x size
  exact (lt_ceilDiv_iff hsize).mpr (by omega)

theorem le_ceilDiv_mul {length size : Nat} (hsize : 0 < size) : length ≤ ceilDiv length size * size := by
  have h : ¬ ceilDiv length size * size < length := mt (lt_ceilDiv_iff hsize).mpr (Nat.lt_irrefl _)
  omega

theorem ceilDiv_le {length size : Nat} (hsize : 0 < size) : ceilDiv length size ≤ length := by
  have hmul : length ≤ length * size := Nat.le_mul_of_pos_right length hsize
  exact Nat.le_of_not_lt (mt (lt_ceilDiv_iff hsize).mp (Nat.not_lt.mpr hmul))

theorem ceilDiv_pos {length size : Nat} (hsize : 0 < size) (hlength : 0 < length) : 0 < ceilDiv length size :=
  (lt_ceilDiv_iff hsize).mpr (by omega)

theorem pos_of_ceilDiv_pos {length size : Nat} (h : 0 < ceilDiv length size) : 0 < length ∧ 0 < size := by
  have hsize : 0 < size := by
    apply Nat.pos_of_ne_zero
    rintro rfl
    simp [ceilDiv] at h
  exact ⟨by simpa using (lt_ceilDiv_iff hsize).mp h, hsize⟩

theorem ceilDiv_eq_one {length size : Nat} (hlength : 0 < length) (hle : length ≤ size) : ceilDiv length size = 1 := by
  have hpos := ceilDiv_pos (by omega : 0 < size) hlength
  have hlast := mt (lt_ceilDiv_iff (by omega : 0 < size)).mp (show ¬ 1 * size < length by omega)
  omega

theorem ceilDiv_mul_right {length size factor : Nat} (hfactor : 0 < factor) :
    ceilDiv (length * factor) (size * factor) = ceilDiv length size := by
  rcases Nat.eq_zero_or_pos size with rfl | hsize
  · rw [Nat.zero_mul, ceilDiv, ceilDiv, Nat.div_zero, Nat.div_zero]
  · have hiff (i : Nat) : i < ceilDiv (length * factor) (size * factor) ↔ i < ceilDiv length size := by
      rw [lt_ceilDiv_iff (Nat.mul_pos hsize hfactor), lt_ceilDiv_iff hsize, ← Nat.mul_assoc, Nat.mul_lt_mul_right hfactor]
    apply Nat.le_antisymm
    · exact Nat.le_of_not_lt fun hlt => Nat.lt_irrefl _ ((hiff _).mp hlt)
    · exact Nat.le_of_not_lt fun hlt => Nat.lt_irrefl _ ((hiff _).mpr hlt)

namespace TileCursor

/-! ### The grid -/

/-- How many tiles stand side by side. -/
def across (c : TileCursor) : Nat := ceilDiv c.area.cols c.tileCols

/-- How many tiles stand one below another. -/
def down (c : TileCursor) : Nat := ceilDiv c.area.rows c.tileRows

/-- The tile of a place in the walk. -/
def tileAt (c : TileCursor) (k : Nat) : Tile :=
  let row := c.area.rowOffset + k / c.across * c.tileRows
  let col := c.area.colOffset + k % c.across * c.tileCols
  ⟨k, row, col, min c.tileRows (c.area.rowEnd - row), min c.tileCols (c.area.colEnd - col)⟩

/-- The cursor before a place in the walk. -/
def place (c : TileCursor) (k : Nat) : TileCursor :=
  { c with
    row := c.area.rowOffset + k / c.across * c.tileRows
    col := c.area.colOffset + k % c.across * c.tileCols
    index := k }

@[simp] theorem area_within (area : Window) (tileRows tileCols : Nat) : (within area tileRows tileCols).area = area :=
  rfl

theorem place_zero (area : Window) (tileRows tileCols : Nat) :
    (within area tileRows tileCols).place 0 = within area tileRows tileCols := by
  simp [place, within]

theorem tileCount_eq (c : TileCursor) : c.tileCount = c.across * c.down := by
  unfold tileCount
  split
  · rename_i hempty
    have hzero : c.area.rows = 0 ∨ c.area.cols = 0 := by simpa [Window.isEmpty] using hempty
    have hceil {size : Nat} (hsize : 0 < size) : ceilDiv 0 size = 0 := Nat.div_eq_of_lt (by omega)
    rcases hzero with h | h
    · rw [down, h, hceil c.tileRows_pos, Nat.mul_zero]
    · rw [across, h, hceil c.tileCols_pos, Nat.zero_mul]
  · exact Nat.mul_comm ..

/-- A place before the end of the walk has a row and a column of the grid. -/
theorem grid_of_lt {c : TileCursor} {k : Nat} (hk : k < c.tileCount) :
    k % c.across * c.tileCols < c.area.cols ∧ k / c.across * c.tileRows < c.area.rows := by
  rw [tileCount_eq] at hk
  have hacross : 0 < c.across := Nat.pos_of_ne_zero fun h => by simp [h] at hk
  have hcol := Nat.mod_lt k hacross
  have hrow := Nat.div_lt_of_lt_mul hk
  exact ⟨(lt_ceilDiv_iff c.tileCols_pos).mp hcol, (lt_ceilDiv_iff c.tileRows_pos).mp hrow⟩

/-- One step of the walk: to the right, or to the beginning of the next row of tiles. -/
theorem next?_place {c : TileCursor} {k : Nat} (hk : k < c.tileCount) :
    (c.place k).next? = some (c.tileAt k, c.place (k + 1)) := by
  obtain ⟨hcol, hrow⟩ := grid_of_lt hk
  have hempty : c.area.isEmpty = false := by simp [Window.isEmpty]; omega
  have hend : ¬ c.area.rowEnd ≤ c.area.rowOffset + k / c.across * c.tileRows := by
    unfold Window.rowEnd
    omega
  have hacross : 0 < c.across := ceilDiv_pos c.tileCols_pos (by omega)
  have hlast : c.area.colEnd ≤ c.area.colOffset + k % c.across * c.tileCols + c.tileCols ↔ k % c.across + 1 = c.across := by
    have hiff : k % c.across + 1 < c.across ↔ (k % c.across + 1) * c.tileCols < c.area.cols :=
      lt_ceilDiv_iff c.tileCols_pos
    have hmod := Nat.mod_lt k hacross
    rw [Nat.add_mul, Nat.one_mul] at hiff
    unfold Window.colEnd
    omega
  have hcols := Nat.div_add_mod k c.across
  unfold next? place tileAt
  simp only [hempty, hend, Bool.false_or, decide_false, Bool.false_eq_true, if_false, hlast]
  by_cases hturn : k % c.across + 1 = c.across
  · have hdiv : (k + 1) / c.across = k / c.across + 1 := by
      rw [show k + 1 = c.across * (k / c.across + 1) by rw [Nat.mul_add, Nat.mul_one]; omega,
        Nat.mul_div_cancel_left _ hacross]
    have hmod : (k + 1) % c.across = 0 := by
      rw [show k + 1 = c.across * (k / c.across + 1) by rw [Nat.mul_add, Nat.mul_one]; omega, Nat.mul_mod_right]
    simp only [hturn, if_true, hdiv, hmod, Nat.add_mul, Nat.one_mul, Nat.zero_mul, Nat.add_zero, Nat.add_assoc]
  · have hlt : k % c.across + 1 < c.across := by
      have := Nat.mod_lt k hacross
      omega
    have hdiv : (k + 1) / c.across = k / c.across := by
      rw [show k + 1 = c.across * (k / c.across) + (k % c.across + 1) by omega, Nat.mul_add_div hacross,
        Nat.div_eq_of_lt hlt, Nat.add_zero]
    have hmod : (k + 1) % c.across = k % c.across + 1 := by
      rw [show k + 1 = c.across * (k / c.across) + (k % c.across + 1) by omega, Nat.mul_add_mod,
        Nat.mod_eq_of_lt hlt]
    rw [if_neg hturn, hdiv, hmod, Nat.add_mul, Nat.one_mul, Nat.add_assoc]

theorem take_place {c : TileCursor} (n k : Nat) (hk : k + n ≤ c.tileCount) :
    (c.place k).take n = ((List.range' k n).map c.tileAt, c.place (k + n)) := by
  induction n generalizing k with
  | zero => rfl
  | succ n ih =>
    rw [take, next?_place (by omega)]
    simp only [ih (k + 1) (by omega), List.range'_succ, List.map_cons]
    rw [Nat.add_right_comm, Nat.add_assoc]

theorem tiles_within (area : Window) (tileRows tileCols : Nat) :
    (within area tileRows tileCols).tiles =
      (List.range (within area tileRows tileCols).tileCount).map (within area tileRows tileCols).tileAt := by
  rw [tiles, ← place_zero, List.range_eq_range']
  exact congrArg Prod.fst (take_place _ 0 (Nat.le_of_eq (Nat.zero_add _)))

theorem mem_tiles_iff {area : Window} {tileRows tileCols : Nat} {t : Tile} :
    t ∈ (within area tileRows tileCols).tiles ↔
      ∃ k < (within area tileRows tileCols).tileCount, t = (within area tileRows tileCols).tileAt k := by
  rw [tiles_within, List.mem_map]
  constructor
  · intro h
    obtain ⟨k, hk, rfl⟩ := h
    exact ⟨k, List.mem_range.mp hk, rfl⟩
  · intro h
    obtain ⟨k, hk, rfl⟩ := h
    exact ⟨k, List.mem_range.mpr hk, rfl⟩

/-! ### The cells of the tiles -/

/-- The cells of a tile are those of the area whose row and column of the grid are its own. -/
theorem mem_tileAt_iff {c : TileCursor} {k row col : Nat} (hk : k < c.tileCount) :
    (row, col) ∈ (c.tileAt k).window ↔
      (row, col) ∈ c.area ∧ (row - c.area.rowOffset) / c.tileRows = k / c.across ∧
        (col - c.area.colOffset) / c.tileCols = k % c.across := by
  obtain ⟨hcol, hrow⟩ := grid_of_lt hk
  have hrows := c.tileRows_pos
  have hcols := c.tileCols_pos
  rw [Nat.div_eq_iff hrows, Nat.div_eq_iff hcols]
  simp only [Window.mem_iff, Tile.window, tileAt, Window.rowEnd, Window.colEnd]
  omega

/-- Every cell of an area lies in a tile of the walk through it. -/
theorem exists_tile_of_mem {area : Window} {tileRows tileCols row col : Nat} (hcell : (row, col) ∈ area) :
    ∃ t ∈ (within area tileRows tileCols).tiles, (row, col) ∈ t.window := by
  generalize hc : within area tileRows tileCols = c
  have harea : c.area = area := by rw [← hc, area_within]
  rw [Window.mem_iff] at hcell
  have hi : (row - c.area.rowOffset) / c.tileRows < c.down := div_lt_ceilDiv c.tileRows_pos (by rw [harea]; omega)
  have hj : (col - c.area.colOffset) / c.tileCols < c.across := div_lt_ceilDiv c.tileCols_pos (by rw [harea]; omega)
  let k := c.across * ((row - c.area.rowOffset) / c.tileRows) + (col - c.area.colOffset) / c.tileCols
  have hdiv : k / c.across = (row - c.area.rowOffset) / c.tileRows := by
    rw [Nat.mul_add_div (Nat.zero_lt_of_lt hj), Nat.div_eq_of_lt hj, Nat.add_zero]
  have hmod : k % c.across = (col - c.area.colOffset) / c.tileCols := by
    rw [Nat.mul_add_mod, Nat.mod_eq_of_lt hj]
  have hk : k < c.tileCount := by
    have hle := Nat.mul_le_mul_left c.across (Nat.succ_le_of_lt hi)
    rw [Nat.mul_succ, ← tileCount_eq] at hle
    omega
  refine ⟨c.tileAt k, ?_, (mem_tileAt_iff hk).mpr ⟨?_, hdiv.symm, hmod.symm⟩⟩
  · subst hc
    exact mem_tiles_iff.mpr ⟨k, hk, rfl⟩
  · rw [harea, Window.mem_iff]
    exact hcell

/-- A tile of the walk has cells, and all of them are in the area. -/
theorem window_of_mem_tiles {area : Window} {tileRows tileCols : Nat} {t : Tile}
    (ht : t ∈ (within area tileRows tileCols).tiles) :
    (0 < t.rows ∧ 0 < t.cols) ∧ (area.rowOffset ≤ t.rowOffset ∧ area.colOffset ≤ t.colOffset) ∧
      t.rowOffset + t.rows ≤ area.rowOffset + area.rows ∧ t.colOffset + t.cols ≤ area.colOffset + area.cols := by
  obtain ⟨k, hk, rfl⟩ := mem_tiles_iff.mp ht
  obtain ⟨hcol, hrow⟩ := grid_of_lt hk
  have hrows := (within area tileRows tileCols).tileRows_pos
  have hcols := (within area tileRows tileCols).tileCols_pos
  simp only [area_within] at hrow hcol
  simp only [tileAt, area_within, Window.rowEnd, Window.colEnd]
  omega

end TileCursor

end SurfaceWater
