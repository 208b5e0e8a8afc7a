import SurfaceWater.Detection.Plan
import SurfaceWater.Detection.Workers
import SurfaceWater.Proofs.Image.Chunks
import SurfaceWater.Proofs.Image.Strips

/-!
# Plans follow the chunks

A plan cuts the strips of a result into tiles that are to keep the chunks of the image whole. For an
image in tiles it always does: the tiles of a strip are columns of whole chunks. For an image in
strips the tiles are bands whose height is a whole number of chunks, but the first band begins where
the strip of the result begins. So the bands cut chunks exactly when a strip of several bands begins
inside a chunk, which `tilesApart_iff` states and `ofLayout_cuts_chunk` shows to happen.
-/

namespace SurfaceWater

/-- A coarser division of what comes after an offset, through the finer one it is made of. -/
theorem sub_div_mul {size offset x : Nat} (m : Nat) (hsize : 0 < size) (hoffset : size ∣ offset) :
    (x - offset) / (m * size) = (x / size - offset / size) / m := by
  obtain ⟨q, rfl⟩ := hoffset
  rw [Nat.mul_comm m, ← Nat.div_div_eq_div_mul, Nat.sub_mul_div, Nat.mul_div_cancel_left _ hsize]

theorem le_roundUp (length : Nat) {size : Nat} (hsize : 0 < size) : length ≤ roundUp length size := le_ceilDiv_mul hsize

theorem dvd_roundUp (length size : Nat) : size ∣ roundUp length size := Nat.dvd_mul_left ..

private theorem pred_div {size n : Nat} (h : ¬ size ∣ n) : (n - 1) / size = n / size := by
  rcases Nat.eq_zero_or_pos size with rfl | hsize
  · rw [Nat.div_zero, Nat.div_zero]
  · have hmod : n % size ≠ 0 := fun hzero => h (Nat.dvd_of_mod_eq_zero hzero)
    have hdiv := Nat.div_add_mod n size
    have hlt := Nat.mod_lt n hsize
    rw [Nat.mul_comm] at hdiv
    rw [Nat.div_eq_iff hsize]
    omega

private theorem eq_of_min_lt {m n : Nat} (h : min m n < n) : m = min m n := by omega

namespace DetectionPlan

/-- What a plan for an image guarantees. A plan for an image in strips has bands, each of the full
width, and one for an image in tiles has columns, each of the full height of a strip. -/
structure Follows (plan : DetectionPlan) (l : ImageLayout) : Prop where
  height_eq : plan.height = l.height
  width_eq : plan.width = l.width
  stripRows_pos : 0 < plan.stripRows
  stripRows_le : plan.stripRows ≤ plan.height
  tileRows_pos : 0 < plan.tileRows
  tileRows_le : plan.tileRows ≤ plan.stripRows
  tileCols_pos : 0 < plan.tileCols
  tileCols_le : plan.tileCols ≤ plan.width
  bands : l.isStriped = true →
    plan.tileCols = plan.width ∧ (plan.tileRows < plan.stripRows → l.chunkHeight ∣ plan.tileRows)
  columns : l.isStriped = false →
    plan.tileRows = plan.stripRows ∧ (plan.tileCols < plan.width → l.chunkWidth ∣ plan.tileCols)

theorem ofLayout_follows {l : ImageLayout} (hl : l.Proper) {tileSize : Nat} (hsize : 0 < tileSize) (workers : Nat) :
    (ofLayout l tileSize workers).Follows l := by
  have hwidth := hl.width_pos
  have hheight := hl.height_pos
  cases hstriped : l.isStriped with
  | true =>
    have hband : 0 < ceilDiv (min tileSize l.height) (max workers 1) := ceilDiv_pos (by omega) (by omega)
    have hle := le_roundUp (ceilDiv (min tileSize l.height) (max workers 1)) hl.chunkHeight_pos
    have hdvd := dvd_roundUp (ceilDiv (min tileSize l.height) (max workers 1)) l.chunkHeight
    simp only [ofLayout, hstriped, if_true]
    refine ⟨rfl, rfl, ?_, ?_, ?_, ?_, hwidth, Nat.le_refl _, fun _ => ⟨rfl, fun hlt => ?_⟩, fun h => ?_⟩
    case refine_5 => exact eq_of_min_lt hlt ▸ hdvd
    case refine_6 => simp [hstriped] at h
    all_goals dsimp only; omega
  | false =>
    have hle := le_roundUp (min tileSize l.width) hl.chunkWidth_pos
    have hdvd := dvd_roundUp (min tileSize l.width) l.chunkWidth
    simp only [ofLayout, hstriped, Bool.false_eq_true, if_false]
    refine ⟨rfl, rfl, ?_, ?_, ?_, Nat.le_refl _, ?_, ?_, fun h => ?_, fun _ => ⟨rfl, fun hlt => ?_⟩⟩
    case refine_6 => simp [hstriped] at h
    case refine_7 => exact eq_of_min_lt hlt ▸ hdvd
    all_goals dsimp only; omega

theorem stripRows_ofLayout (l : ImageLayout) (tileSize workers : Nat) :
    (ofLayout l tileSize workers).stripRows = min tileSize l.height := by
  unfold ofLayout
  dsimp only
  split
  · rfl
  · rfl

/-! ### Tiles and chunks -/

/-- No two tiles of a strip meet one chunk. -/
def TilesApart (plan : DetectionPlan) (l : ImageLayout) (rowOffset rows : Nat) : Prop :=
  ∀ s ∈ (plan.stripTiles rowOffset rows).tiles, ∀ t ∈ (plan.stripTiles rowOffset rows).tiles, s ≠ t →
    ∀ chunkRow chunkCol, l.Meets s.window chunkRow chunkCol → ¬ l.Meets t.window chunkRow chunkCol

/-- No chunk is decoded for two tiles of a strip. -/
def ReadsApart (plan : DetectionPlan) (l : ImageLayout) (rowOffset rows : Nat) : Prop :=
  ∀ s ∈ (plan.stripTiles rowOffset rows).tiles, ∀ t ∈ (plan.stripTiles rowOffset rows).tiles, s ≠ t →
    ∀ chunk ∈ l.chunksOf s.window, chunk ∉ l.chunksOf t.window

/-- The tiles of a strip begin and end with whole rows of chunks, except where the strip itself begins
and ends. -/
def BandsWhole (plan : DetectionPlan) (l : ImageLayout) (rowOffset rows : Nat) : Prop :=
  ∀ t ∈ (plan.stripTiles rowOffset rows).tiles,
    (t.rowOffset = rowOffset ∨ l.chunkHeight ∣ t.rowOffset) ∧
      (t.rowOffset + t.rows = rowOffset + rows ∨ l.chunkHeight ∣ t.rowOffset + t.rows)

/-- A strip that is cut into several bands begins with a row of chunks. -/
def Aligned (plan : DetectionPlan) (l : ImageLayout) (rowOffset rows : Nat) : Prop :=
  l.isStriped = true → plan.tileRows < rows → l.chunkHeight ∣ rowOffset

/-- Two points of one piece are in one tile of a range, if the range is one tile or the tiles are cut
where pieces are. -/
private theorem same_tile {size tile offset length x y : Nat} (hsize : 0 < size)
    (hcut : tile < length → size ∣ tile ∧ size ∣ offset) (hx : x < offset + length) (hy : y < offset + length)
    (hxy : x / size = y / size) : (x - offset) / tile = (y - offset) / tile := by
  by_cases hlt : tile < length
  · obtain ⟨⟨m, rfl⟩, hoffset⟩ := hcut hlt
    rw [Nat.mul_comm, sub_div_mul m hsize hoffset, sub_div_mul m hsize hoffset, hxy]
  · rcases Nat.eq_zero_or_pos length with hzero | hpos
    · rw [Nat.sub_eq_zero_of_le (by omega), Nat.sub_eq_zero_of_le (by omega)]
    · rw [Nat.div_eq_of_lt (by omega), Nat.div_eq_of_lt (by omega)]

variable {plan : DetectionPlan} {l : ImageLayout} {rowOffset rows : Nat}

theorem stripTiles_tileRows (hplan : plan.Follows l) : (plan.stripTiles rowOffset rows).tileRows = plan.tileRows :=
  Nat.max_eq_left hplan.tileRows_pos

theorem stripTiles_tileCols (hplan : plan.Follows l) : (plan.stripTiles rowOffset rows).tileCols = plan.tileCols :=
  Nat.max_eq_left hplan.tileCols_pos

/-- The bands of an image in strips are one above another. -/
theorem stripTiles_across (rowOffset rows : Nat) (hl : l.Proper) (hplan : plan.Follows l)
    (hstriped : l.isStriped = true) :
    (plan.stripTiles rowOffset rows).across = 1 := by
  rw [TileCursor.across, stripTiles_tileCols hplan, (hplan.bands hstriped).1]
  have hwidth : 0 < plan.width := by rw [hplan.width_eq]; exact hl.width_pos
  exact ceilDiv_eq_one hwidth (Nat.le_refl _)

theorem mem_stripTiles_iff {t : Tile} : t ∈ (plan.stripTiles rowOffset rows).tiles ↔
    ∃ k < (plan.stripTiles rowOffset rows).tileCount, t = (plan.stripTiles rowOffset rows).tileAt k :=
  TileCursor.mem_tiles_iff

/-- The pixels of a tile of a strip are those of the strip in its band and its column. -/
theorem mem_stripTile_iff (hplan : plan.Follows l) {k row col : Nat}
    (hk : k < (plan.stripTiles rowOffset rows).tileCount) :
    (row, col) ∈ ((plan.stripTiles rowOffset rows).tileAt k).window ↔
      (rowOffset ≤ row ∧ row < rowOffset + rows ∧ col < plan.width) ∧
        (row - rowOffset) / plan.tileRows = k / (plan.stripTiles rowOffset rows).across ∧
        col / plan.tileCols = k % (plan.stripTiles rowOffset rows).across := by
  rw [TileCursor.mem_tileAt_iff hk, stripTiles_tileRows hplan, stripTiles_tileCols hplan, Window.mem_iff]
  simp only [stripTiles, TileCursor.area_within, Nat.zero_le, true_and, Nat.zero_add, Nat.sub_zero]

theorem checkWithin_of_mem_tiles (hplan : plan.Follows l) (hend : rowOffset + rows ≤ l.height) {t : Tile}
    (ht : t ∈ (plan.stripTiles rowOffset rows).tiles) : t.window.checkWithin l.height l.width = .ok () := by
  obtain ⟨hpos, -, hrow, hcol⟩ := TileCursor.window_of_mem_tiles ht
  have hwidth := hplan.width_eq
  dsimp only at hrow hcol
  exact Window.checkWithin_eq_ok_iff.mpr ⟨hpos, by dsimp only [Tile.window]; omega, by dsimp only [Tile.window]; omega⟩

theorem readsApart_iff_tilesApart (hl : l.Proper) (hplan : plan.Follows l) (hend : rowOffset + rows ≤ l.height) :
    plan.ReadsApart l rowOffset rows ↔ plan.TilesApart l rowOffset rows := by
  have hmeets {t : Tile} (ht : t ∈ (plan.stripTiles rowOffset rows).tiles) (i j : Nat) :
      (i, j) ∈ l.chunksOf t.window ↔ l.Meets t.window i j :=
    ImageLayout.mem_chunksOf_iff_meets hl (checkWithin_of_mem_tiles hplan hend ht)
  constructor
  · intro h s hs t ht hne i j hi hj
    exact h s hs t ht hne (i, j) ((hmeets hs i j).mpr hi) ((hmeets ht i j).mpr hj)
  · rintro h s hs t ht hne ⟨i, j⟩ hi hj
    exact h s hs t ht hne i j ((hmeets hs i j).mp hi) ((hmeets ht i j).mp hj)

/-- Two pixels in one chunk are in one tile of an aligned strip: bands and columns are cut only where
chunks are. -/
theorem tilesApart_of_aligned (hl : l.Proper) (hplan : plan.Follows l) (hrows : rows ≤ plan.stripRows)
    (haligned : plan.Aligned l rowOffset rows) : plan.TilesApart l rowOffset rows := by
  intro s hs t ht hne i j hsm htm
  obtain ⟨k, hk, rfl⟩ := mem_stripTiles_iff.mp hs
  obtain ⟨k', hk', rfl⟩ := mem_stripTiles_iff.mp ht
  obtain ⟨row, col, hcell, -, hrow, hcol⟩ := (ImageLayout.meets_iff hl).mp hsm
  obtain ⟨row', col', hcell', -, hrow', hcol'⟩ := (ImageLayout.meets_iff hl).mp htm
  obtain ⟨hstrip, hi, hj⟩ := (mem_stripTile_iff hplan hk).mp hcell
  obtain ⟨hstrip', hi', hj'⟩ := (mem_stripTile_iff hplan hk').mp hcell'
  have hrowCut : plan.tileRows < rows → l.chunkHeight ∣ plan.tileRows ∧ l.chunkHeight ∣ rowOffset := by
    intro hlt
    cases hstriped : l.isStriped with
    | true => exact ⟨(hplan.bands hstriped).2 (by omega), haligned hstriped hlt⟩
    | false =>
      have := (hplan.columns hstriped).1
      omega
  have hcolCut : plan.tileCols < plan.width → l.chunkWidth ∣ plan.tileCols ∧ l.chunkWidth ∣ 0 := by
    intro hlt
    cases hstriped : l.isStriped with
    | true =>
      have := (hplan.bands hstriped).1
      omega
    | false => exact ⟨(hplan.columns hstriped).2 hlt, Nat.dvd_zero _⟩
  have hband := same_tile hl.chunkHeight_pos hrowCut hstrip.2.1 hstrip'.2.1 (hrow.trans hrow'.symm)
  have hcolumn := same_tile hl.chunkWidth_pos hcolCut (by omega) (by omega) (hcol.trans hcol'.symm)
  rw [hi, hi'] at hband
  rw [Nat.sub_zero, Nat.sub_zero, hj, hj'] at hcolumn
  have hplace := Nat.div_add_mod k (plan.stripTiles rowOffset rows).across
  have hplace' := Nat.div_add_mod k' (plan.stripTiles rowOffset rows).across
  rw [hband, hcolumn, hplace'] at hplace
  exact hne (by rw [hplace])

/-- A strip that is not aligned has a second band, and where the first band ends inside a chunk, the
second one begins inside it. -/
theorem aligned_of_tilesApart (hl : l.Proper) (hplan : plan.Follows l) (hend : rowOffset + rows ≤ l.height)
    (hrows : rows ≤ plan.stripRows) (hapart : plan.TilesApart l rowOffset rows) : plan.Aligned l rowOffset rows := by
  intro hstriped hbands
  apply Decidable.byContradiction
  intro hcut
  have hacross := stripTiles_across rowOffset rows hl hplan hstriped
  have hwidth := hl.width_pos
  have hwidthEq := hplan.width_eq
  have htile := hplan.tileRows_pos
  have hbelow : ¬ l.chunkHeight ∣ rowOffset + plan.tileRows := fun hd =>
    hcut ((Nat.dvd_add_left ((hplan.bands hstriped).2 (by omega))).mp hd)
  have hcount : 1 < (plan.stripTiles rowOffset rows).tileCount := by
    rw [TileCursor.tileCount_eq, hacross, Nat.one_mul, TileCursor.down, stripTiles_tileRows hplan]
    exact (lt_ceilDiv_iff htile).mpr (by simpa [stripTiles] using hbands)
  have hcol : 0 / plan.tileCols = 0 := Nat.zero_div _
  have hlast : (rowOffset + plan.tileRows - 1, 0) ∈ ((plan.stripTiles rowOffset rows).tileAt 0).window := by
    refine (mem_stripTile_iff hplan (by omega)).mpr ⟨by omega, ?_, by rw [hcol, Nat.zero_mod]⟩
    rw [hacross, Nat.div_one, Nat.div_eq_of_lt (by omega)]
  have hfirst : (rowOffset + plan.tileRows, 0) ∈ ((plan.stripTiles rowOffset rows).tileAt 1).window := by
    refine (mem_stripTile_iff hplan hcount).mpr ⟨by omega, ?_, by rw [hcol, hacross, Nat.mod_one]⟩
    rw [hacross, Nat.add_sub_cancel_left, Nat.div_self htile]
  have hne : (plan.stripTiles rowOffset rows).tileAt 0 ≠ (plan.stripTiles rowOffset rows).tileAt 1 := fun h =>
    absurd (congrArg Tile.index h) Nat.zero_ne_one
  refine hapart _ (mem_stripTiles_iff.mpr ⟨0, by omega, rfl⟩) _ (mem_stripTiles_iff.mpr ⟨1, hcount, rfl⟩) hne
    ((rowOffset + plan.tileRows) / l.chunkHeight) (0 / l.chunkWidth) ?_ ?_
  · exact (ImageLayout.meets_iff hl).mpr ⟨_, _, hlast, ⟨by omega, hwidth⟩, pred_div hbelow, rfl⟩
  · exact (ImageLayout.meets_iff hl).mpr ⟨_, _, hfirst, ⟨by omega, hwidth⟩, rfl, rfl⟩

/-- Bands are whole exactly where they are aligned. -/
theorem bandsWhole_iff_aligned (hl : l.Proper) (hplan : plan.Follows l) (hrows : rows ≤ plan.stripRows)
    (hstriped : l.isStriped = true) : plan.BandsWhole l rowOffset rows ↔ plan.Aligned l rowOffset rows := by
  have hacross := stripTiles_across rowOffset rows hl hplan hstriped
  have htile := hplan.tileRows_pos
  have htileAt (k : Nat) : ((plan.stripTiles rowOffset rows).tileAt k).rowOffset = rowOffset + k * plan.tileRows ∧
      ((plan.stripTiles rowOffset rows).tileAt k).rows = min plan.tileRows (rows - k * plan.tileRows) := by
    rw [TileCursor.tileAt, hacross, stripTiles_tileRows hplan, Nat.div_one]
    simp only [stripTiles, TileCursor.area_within, Window.rowEnd, true_and]
    rw [Nat.add_sub_add_left]
  have hcount {k : Nat} : k < (plan.stripTiles rowOffset rows).tileCount ↔ k * plan.tileRows < rows := by
    rw [TileCursor.tileCount_eq, hacross, Nat.one_mul, TileCursor.down, stripTiles_tileRows hplan, lt_ceilDiv_iff htile]
    rfl
  constructor
  · intro h _ hbands
    have hdvd := (hplan.bands hstriped).2 (by omega)
    have hsecond := (h _ (mem_stripTiles_iff.mpr ⟨1, hcount.mpr (by omega), rfl⟩)).1
    rw [(htileAt 1).1, Nat.one_mul] at hsecond
    rcases hsecond with hzero | hd
    · omega
    · exact (Nat.dvd_add_left hdvd).mp hd
  · intro haligned t ht
    obtain ⟨k, hk, rfl⟩ := mem_stripTiles_iff.mp ht
    have hk' := hcount.mp hk
    rw [(htileAt k).1, (htileAt k).2]
    by_cases hbands : plan.tileRows < rows
    · have hdvd := (hplan.bands hstriped).2 (by omega)
      have hoffset := haligned hstriped hbands
      have hbegin : l.chunkHeight ∣ rowOffset + k * plan.tileRows := Nat.dvd_add hoffset (Nat.dvd_mul_left_of_dvd hdvd k)
      refine ⟨Or.inr hbegin, ?_⟩
      by_cases hlast : rows - k * plan.tileRows ≤ plan.tileRows
      · exact Or.inl (by omega)
      · rw [Nat.min_eq_left (by omega)]
        exact Or.inr (Nat.dvd_add hbegin hdvd)
    · have hzero : k = 0 := Nat.eq_zero_of_not_pos fun hpos => by
        have := Nat.le_mul_of_pos_left plan.tileRows hpos
        omega
      subst hzero
      omega

instance (l : ImageLayout) (w : Window) (chunkRow chunkCol : Nat) : Decidable (l.Meets w chunkRow chunkCol) :=
  inferInstanceAs (Decidable (_ ≠ none))

/-- The tiles of a strip keep the chunks apart exactly when the strip is aligned, and what is decoded
for them is then apart too. On an image in strips the bands are then whole. An image in tiles has no
other strips. -/
theorem tilesApart_iff (hl : l.Proper) {tileSize : Nat} (hsize : 0 < tileSize) (machine : Machine)
    (mode : ProcessingMode) (hstrip : (rowOffset, rows) ∈ (ofLayout l tileSize (mode.workers machine)).strips) :
    ((ofLayout l tileSize (mode.workers machine)).TilesApart l rowOffset rows ↔
        (ofLayout l tileSize (mode.workers machine)).Aligned l rowOffset rows) ∧
      ((ofLayout l tileSize (mode.workers machine)).ReadsApart l rowOffset rows ↔
        (ofLayout l tileSize (mode.workers machine)).Aligned l rowOffset rows) ∧
      (l.isStriped = true → ((ofLayout l tileSize (mode.workers machine)).BandsWhole l rowOffset rows ↔
        (ofLayout l tileSize (mode.workers machine)).Aligned l rowOffset rows)) := by
  have hplan := ofLayout_follows hl hsize (mode.workers machine)
  generalize ofLayout l tileSize (mode.workers machine) = plan at hplan hstrip ⊢
  obtain ⟨-, hrows, hend⟩ := LabelFile.strip_bounds hplan.stripRows_pos hstrip
  rw [hplan.height_eq] at hend
  have hapart : plan.TilesApart l rowOffset rows ↔ plan.Aligned l rowOffset rows :=
    ⟨aligned_of_tilesApart hl hplan hend hrows, tilesApart_of_aligned hl hplan hrows⟩
  exact ⟨hapart, (readsApart_iff_tilesApart hl hplan hend).trans hapart, bandsWhole_iff_aligned hl hplan hrows⟩

/-- One column and six rows, whose chunks have two rows. -/
def sixRows : ImageLayout := ⟨1, 6, 8, 1, 2, none⟩

/-- Its plan for strips of three rows and two workers. -/
def sixRowsPlan : DetectionPlan := ofLayout sixRows 3 ((ProcessingMode.parallelWith 2).workers .standard)

/-- The second strip begins inside a chunk, and is aligned only if it is a single band. -/
theorem tilesApart_iff_second_strip :
    (3, 3) ∈ sixRowsPlan.strips ∧ (sixRowsPlan.TilesApart sixRows 3 3 ↔ sixRowsPlan.Aligned sixRows 3 3) :=
  have hstrip : (3, 3) ∈ sixRowsPlan.strips := by decide
  ⟨hstrip, (tilesApart_iff ⟨by decide, by decide, by decide, by decide⟩ (by decide) .standard (.parallelWith 2) hstrip).1⟩

/-- Its two bands share the chunk of rows four and five. -/
theorem ofLayout_cuts_chunk :
    (3, 3) ∈ sixRowsPlan.strips ∧ ¬ sixRowsPlan.TilesApart sixRows 3 3 ∧ ¬ sixRowsPlan.BandsWhole sixRows 3 3 := by
  refine ⟨by decide, fun h => ?_, fun h => ?_⟩
  · exact h ⟨0, 3, 0, 2, 1⟩ (by decide) ⟨1, 5, 0, 1, 1⟩ (by decide) (by decide) 2 0 (by decide) (by decide)
  · exact absurd (h ⟨1, 5, 0, 1, 1⟩ (by decide)).1 (by decide)

end DetectionPlan

end SurfaceWater
