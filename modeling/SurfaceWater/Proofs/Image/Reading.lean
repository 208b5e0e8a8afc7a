import SurfaceWater.Proofs.Blocks
import SurfaceWater.Proofs.Except
import SurfaceWater.Proofs.Image.Chunks
import SurfaceWater.Proofs.Raster

/-!
# Reading windows

A decoder gives an image its samples, pixel by pixel: those of a pixel are in its chunk. Every window
that can be read shows the same samples, whatever else it covers, and it can be read exactly when all
its chunks can be decoded.
-/

namespace SurfaceWater

theorem SampleGrid.pixel_ofFn {rows cols bands row col : Nat} (value : Nat → Nat → Nat → UInt16) (hrow : row < rows)
    (hcol : col < cols) :
    (ofFn rows cols bands value).pixel row col = Array.ofFn fun band : Fin bands => value row col band := by
  have hend : (row * cols + col) * bands + bands ≤ rows * cols * bands := by
    have := Nat.mul_le_mul_right bands (Nat.succ_le_of_lt (index_lt_size hrow hcol))
    rwa [Nat.succ_mul] at this
  have hsize : ((ofFn rows cols bands value).pixel row col).size = bands := by
    simp only [pixel, ofFn, Array.size_extract, Array.size_ofFn]
    omega
  apply Array.ext
  · rw [hsize, Array.size_ofFn]
  · intro band hband _
    rw [hsize] at hband
    simp only [pixel, ofFn, Array.getElem_extract, Array.getElem_ofFn, index_div hband, index_mod hband, index_div hcol,
      index_mod hcol]

/-- The place of a sample of a grid has a row, a column and a band. -/
theorem SampleGrid.place_bounds {rows cols bands place : Nat} (h : place < rows * cols * bands) :
    place / bands / cols < rows ∧ place / bands % cols < cols ∧ place % bands < bands := by
  have hbands : 0 < bands := Nat.pos_of_ne_zero fun hzero => by simp [hzero] at h
  have hcols : 0 < cols := Nat.pos_of_ne_zero fun hzero => by simp [hzero] at h
  have hpixel : place / bands < rows * cols := (Nat.div_lt_iff_lt_mul hbands).mpr h
  exact ⟨(Nat.div_lt_iff_lt_mul hcols).mpr hpixel, Nat.mod_lt _ hcols, Nat.mod_lt _ hbands⟩

theorem SampleGrid.ofFn_congr {rows cols bands : Nat} {value other : Nat → Nat → Nat → UInt16}
    (h : ∀ row col band, row < rows → col < cols → band < bands → value row col band = other row col band) :
    ofFn rows cols bands value = ofFn rows cols bands other := by
  have hsamples : (ofFn rows cols bands value).samples = (ofFn rows cols bands other).samples := by
    refine congrArg Array.ofFn (funext fun place => ?_)
    obtain ⟨hrow, hcol, hband⟩ := place_bounds place.isLt
    exact h _ _ _ hrow hcol hband
  unfold ofFn at hsamples ⊢
  rw [mk.injEq]
  exact ⟨rfl, rfl, rfl, hsamples⟩

namespace ImageLayout

variable {l : ImageLayout} {decode : ChunkDecoder} {w : Window}

/-- The sample of a band of a pixel, as its chunk gives it. -/
def sampleAt (l : ImageLayout) (decode : ChunkDecoder) (row col band : Nat) : UInt16 :=
  match l.fetch decode (row / l.chunkHeight) (col / l.chunkWidth) with
  | .ok chunk => chunk.sample l.bands row col band
  | .error _ => 0

theorem sampleAt_eq {row col band : Nat} {chunk : ImageChunk}
    (hfetch : l.fetch decode (row / l.chunkHeight) (col / l.chunkWidth) = .ok chunk) :
    l.sampleAt decode row col band = chunk.sample l.bands row col band := by
  rw [sampleAt, hfetch]

/-- The samples of a pixel. -/
def pixelAt (l : ImageLayout) (decode : ChunkDecoder) (row col : Nat) : Array UInt16 :=
  Array.ofFn fun band : Fin l.bands => l.sampleAt decode row col band

/-- A chunk that cannot be decoded, or decodes to samples that are neither those of its part inside the
image nor those of a full chunk. -/
def Unreadable (l : ImageLayout) (decode : ChunkDecoder) (chunkRow chunkCol : Nat) : Prop :=
  match decode (chunkRow * l.chunksAcross + chunkCol) with
  | .error _ => True
  | .ok samples =>
    samples.size ≠ (l.chunkWindow chunkRow chunkCol).cols * (l.chunkWindow chunkRow chunkCol).rows * l.bands ∧
      samples.size ≠ l.chunkWidth * l.chunkHeight * l.bands

theorem stride?_eq_none_iff {length : Nat} :
    l.stride? w length = none ↔ length ≠ w.cols * w.rows * l.bands ∧ length ≠ l.chunkWidth * l.chunkHeight * l.bands := by
  unfold stride?
  split
  · simp_all
  · split <;> simp_all

theorem exists_fetch_iff {chunkRow chunkCol : Nat} :
    (∃ chunk, l.fetch decode chunkRow chunkCol = .ok chunk) ↔ ¬ l.Unreadable decode chunkRow chunkCol := by
  unfold Unreadable
  simp only [fetch, bind_eq_ok_iff]
  cases decode (chunkRow * l.chunksAcross + chunkCol) with
  | error e => simp
  | ok samples =>
    simp only [Except.ok.injEq, exists_eq_left']
    rw [← stride?_eq_none_iff]
    cases l.stride? (l.chunkWindow chunkRow chunkCol) samples.size with
    | none => simp
    | some stride => simp [pure_eq_ok_iff]

/-- What a decoded chunk is: its part inside the image, or all of it. -/
theorem fetch_eq_ok {chunkRow chunkCol : Nat} {chunk : ImageChunk} (h : l.fetch decode chunkRow chunkCol = .ok chunk) :
    ∃ samples, decode (chunkRow * l.chunksAcross + chunkCol) = .ok samples ∧
      chunk.window = l.chunkWindow chunkRow chunkCol ∧ chunk.samples = samples ∧
      (samples.size = (l.chunkWindow chunkRow chunkCol).rows * (l.chunkWindow chunkRow chunkCol).cols * l.bands ∧
          chunk.stride = (l.chunkWindow chunkRow chunkCol).cols ∨
        samples.size ≠ (l.chunkWindow chunkRow chunkCol).rows * (l.chunkWindow chunkRow chunkCol).cols * l.bands ∧
          samples.size = l.chunkHeight * l.chunkWidth * l.bands ∧ chunk.stride = l.chunkWidth) := by
  simp only [fetch, bind_eq_ok_iff] at h
  obtain ⟨samples, hsamples, h⟩ := h
  refine ⟨samples, hsamples, ?_⟩
  rw [Nat.mul_comm (l.chunkWindow chunkRow chunkCol).rows, Nat.mul_comm l.chunkHeight]
  unfold stride? at h
  by_cases hinside :
      samples.size = (l.chunkWindow chunkRow chunkCol).cols * (l.chunkWindow chunkRow chunkCol).rows * l.bands
  · simp only [hinside, if_true] at h
    obtain rfl := pure_eq_ok_iff.mp h
    exact ⟨rfl, rfl, .inl ⟨hinside, rfl⟩⟩
  · by_cases hfull : samples.size = l.chunkWidth * l.chunkHeight * l.bands
    · simp only [if_neg hinside, if_pos hfull] at h
      obtain rfl := pure_eq_ok_iff.mp h
      exact ⟨rfl, rfl, .inr ⟨hinside, hfull, rfl⟩⟩
    · simp only [if_neg hinside, if_neg hfull] at h
      cases h

/-- The sample of a band of a pixel, counted from the corner of its chunk. The rows of a chunk have its full
width, unless only the part inside the image was decoded. -/
def storedSample? (l : ImageLayout) (decode : ChunkDecoder) (row col band : Nat) : Option UInt16 :=
  match decode (row / l.chunkHeight * ceilDiv l.width l.chunkWidth + col / l.chunkWidth) with
  | .error _ => none
  | .ok samples =>
    let rows := min l.chunkHeight (l.height - row / l.chunkHeight * l.chunkHeight)
    let cols := min l.chunkWidth (l.width - col / l.chunkWidth * l.chunkWidth)
    let stride := if samples.size = rows * cols * l.bands then cols else l.chunkWidth
    samples[(row % l.chunkHeight * stride + col % l.chunkWidth) * l.bands + band]?

/-- A chunk that was decoded has the samples of its pixels. -/
theorem storedSample?_eq_some (hl : l.Proper) {row col band : Nat} (hrow : row < l.height) (hcol : col < l.width)
    (hband : band < l.bands) {chunk : ImageChunk}
    (hfetch : l.fetch decode (row / l.chunkHeight) (col / l.chunkWidth) = .ok chunk) :
    l.storedSample? decode row col band = some (l.sampleAt decode row col band) := by
  have hrowDiv := Nat.div_add_mod' row l.chunkHeight
  have hcolDiv := Nat.div_add_mod' col l.chunkWidth
  have hrowMod := Nat.mod_lt row hl.chunkHeight_pos
  have hcolMod := Nat.mod_lt col hl.chunkWidth_pos
  have hrowPlace : row - row / l.chunkHeight * l.chunkHeight = row % l.chunkHeight := Nat.mod_eq_sub_div_mul.symm
  have hcolPlace : col - col / l.chunkWidth * l.chunkWidth = col % l.chunkWidth := Nat.mod_eq_sub_div_mul.symm
  have hlt {rows cols i j : Nat} (hi : i < rows) (hj : j < cols) : (i * cols + j) * l.bands + band < rows * cols * l.bands :=
    index_lt_size (index_lt_size hi hj) hband
  obtain ⟨samples, hsamples, hwindow, hchunk, hshape⟩ := fetch_eq_ok hfetch
  rw [sampleAt_eq hfetch, storedSample?]
  change decode (row / l.chunkHeight * ceilDiv l.width l.chunkWidth + col / l.chunkWidth) = .ok samples at hsamples
  rw [hsamples]
  simp only [ImageChunk.sample, hwindow, hchunk, chunkWindow, hrowPlace, hcolPlace] at hshape ⊢
  rcases hshape with ⟨hinside, hstride⟩ | ⟨hinside, hfull, hstride⟩
  · have hplace := hlt (show row % l.chunkHeight < min l.chunkHeight (l.height - row / l.chunkHeight * l.chunkHeight) by omega)
      (show col % l.chunkWidth < min l.chunkWidth (l.width - col / l.chunkWidth * l.chunkWidth) by omega)
    rw [← hinside] at hplace
    rw [if_pos hinside, hstride, Array.getElem?_eq_getElem hplace, Option.getD_some]
  · have hplace := hlt hrowMod hcolMod
    rw [← hfull] at hplace
    rw [if_neg hinside, hstride, Array.getElem?_eq_getElem hplace, Option.getD_some]

/-- The chunk of a pixel stands in the list of a window's chunks where `assemble` looks for it. -/
theorem getElem?_chunksOf (hl : l.Proper) {row col : Nat} (hcell : (row, col) ∈ w) :
    (l.chunksOf w)[(row / l.chunkHeight - (l.chunkRows w).1) * (l.chunkCols w).2 +
        (col / l.chunkWidth - (l.chunkCols w).1)]? = some (row / l.chunkHeight, col / l.chunkWidth) := by
  obtain ⟨hrow₁, hrow₂, hcol₁, hcol₂⟩ := Window.mem_iff.mp hcell
  obtain ⟨hi₁, hi₂⟩ := (mem_pieces_iff w.rowOffset _ hl.chunkHeight_pos (by omega)).mpr ⟨row, hrow₁, hrow₂, rfl⟩
  obtain ⟨hj₁, hj₂⟩ := (mem_pieces_iff w.colOffset _ hl.chunkWidth_pos (by omega)).mpr ⟨col, hcol₁, hcol₂, rfl⟩
  change (l.chunkRows w).1 ≤ _ at hi₁
  change _ < (l.chunkRows w).1 + (l.chunkRows w).2 at hi₂
  change (l.chunkCols w).1 ≤ _ at hj₁
  change _ < (l.chunkCols w).1 + (l.chunkCols w).2 at hj₂
  rw [chunksOf]
  dsimp only
  rw [getElem?_flatMap_block (fun a _ => by rw [List.length_map, List.length_range]) (by omega),
    List.getElem?_range (by omega), Option.bind_some, List.getElem?_map, List.getElem?_range (by omega), Option.map_some,
    Nat.add_sub_cancel' hi₁, Nat.add_sub_cancel' hj₁]

/-- The samples of the pixels of a window. -/
def gridOf (l : ImageLayout) (decode : ChunkDecoder) (w : Window) : SampleGrid :=
  .ofFn w.rows w.cols l.bands fun r c band => l.sampleAt decode (w.rowOffset + r) (w.colOffset + c) band

/-- The tile of a window with the samples of its pixels. -/
def tileOf (l : ImageLayout) (decode : ChunkDecoder) (w : Window) : BandTile where
  window := w
  grid := l.gridOf decode w
  validity := .ofFn w.rows w.cols fun r c => l.isData ((l.gridOf decode w).pixel r c)
  grid_shape := ⟨rfl, rfl⟩
  validity_shape := ⟨rfl, rfl⟩

theorem pixel_tileOf {row col : Nat} (hrow : row < w.rows) (hcol : col < w.cols) :
    (l.tileOf decode w).pixel row col = l.pixelAt decode (w.rowOffset + row) (w.colOffset + col) :=
  SampleGrid.pixel_ofFn _ hrow hcol

theorem isValid_tileOf {row col : Nat} (hrow : row < w.rows) (hcol : col < w.cols) :
    (l.tileOf decode w).isValid row col = l.isData ((l.tileOf decode w).pixel row col) := by
  rw [BandTile.isValid, tileOf, Raster.get?_ofFn _ hrow hcol]
  rfl

theorem make_tileOf {grid : SampleGrid} (h : grid = l.gridOf decode w) :
    BandTile.make w grid (Raster.ofFn w.rows w.cols fun r c => l.isData (grid.pixel r c)) = .ok (l.tileOf decode w) := by
  subst h
  rw [BandTile.make, dif_pos ⟨⟨rfl, rfl⟩, rfl, rfl⟩]
  rfl

theorem assemble_eq (hl : l.Proper) {chunks : List ImageChunk}
    (hchunks : (l.chunksOf w).mapM (fun place => l.fetch decode place.1 place.2) = .ok chunks) :
    l.assemble w chunks.toArray = .ok (l.tileOf decode w) := by
  unfold assemble
  dsimp only
  refine make_tileOf ?_
  rw [gridOf]
  apply SampleGrid.ofFn_congr
  intro r c band hr hc _
  have hcell : (w.rowOffset + r, w.colOffset + c) ∈ w := Window.mem_iff.mpr (by omega)
  have hplace := mapM_ok_getElem? hchunks (((w.rowOffset + r) / l.chunkHeight - (l.chunkRows w).1) * (l.chunkCols w).2 +
    ((w.colOffset + c) / l.chunkWidth - (l.chunkCols w).1))
  rw [getElem?_chunksOf hl hcell, Option.map_some] at hplace
  obtain ⟨chunk, hchunk, hfetch⟩ := Option.map_eq_some_iff.mp hplace.symm
  rw [List.getElem?_toArray, hchunk, sampleAt_eq hfetch.symm]

/-- A window inside the image is read when its chunks can be decoded, and shows the samples of its pixels. -/
theorem readTile_eq (hl : l.Proper) (hw : w.checkWithin l.height l.width = .ok ()) :
    l.readTile decode w =
      ((l.chunksOf w).mapM fun place => l.fetch decode place.1 place.2).map fun _ => l.tileOf decode w := by
  rw [readTile, hw]
  show ((l.chunksOf w).mapM fun place => l.fetch decode place.1 place.2) >>= _ = _
  cases hchunks : (l.chunksOf w).mapM fun place => l.fetch decode place.1 place.2 with
  | error e => rfl
  | ok chunks => exact assemble_eq hl hchunks

/-- What a window that was read shows. -/
theorem readTile_eq_ok (hl : l.Proper) {tile : BandTile} (h : l.readTile decode w = .ok tile) :
    (∀ row col, (row, col) ∈ w → ∃ chunk, l.fetch decode (row / l.chunkHeight) (col / l.chunkWidth) = .ok chunk) ∧
      tile.bands = l.bands ∧
      ∀ row col, row < w.rows → col < w.cols →
        tile.pixel row col = l.pixelAt decode (w.rowOffset + row) (w.colOffset + col) ∧
          tile.isValid row col = l.isData (l.pixelAt decode (w.rowOffset + row) (w.colOffset + col)) := by
  have hread := h
  simp only [readTile, bind_eq_ok_iff] at h
  obtain ⟨_, hw, chunks, hchunks, -⟩ := h
  rw [readTile_eq hl hw, hchunks] at hread
  obtain rfl : l.tileOf decode w = tile := Except.ok.inj hread
  refine ⟨fun row col hcell => ?_, rfl, fun row col hrow hcol => ?_⟩
  · have hmem : (row / l.chunkHeight, col / l.chunkWidth) ∈ l.chunksOf w := List.mem_of_getElem? (getElem?_chunksOf hl hcell)
    exact exists_mapM_eq_ok_iff.mp ⟨chunks, hchunks⟩ _ hmem
  · rw [isValid_tileOf hrow hcol, pixel_tileOf hrow hcol]
    exact ⟨rfl, rfl⟩

theorem window_readTile {tile : BandTile} (h : l.readTile decode w = .ok tile) : tile.window = w := by
  simp only [readTile, bind_eq_ok_iff] at h
  obtain ⟨-, -, chunks, -, hassemble⟩ := h
  unfold assemble BandTile.make at hassemble
  dsimp only at hassemble
  rw [dif_pos ⟨⟨rfl, rfl⟩, rfl, rfl⟩] at hassemble
  obtain rfl := Except.ok.inj hassemble
  rfl

/-- A window inside the image can be read when its chunks can be decoded. -/
theorem exists_readTile (hl : l.Proper) (hw : w.checkWithin l.height l.width = .ok ())
    (h : ∀ row col, (row, col) ∈ w → ∃ chunk, l.fetch decode (row / l.chunkHeight) (col / l.chunkWidth) = .ok chunk) :
    ∃ tile, l.readTile decode w = .ok tile := by
  obtain ⟨⟨hrows, hcols⟩, -⟩ := Window.checkWithin_eq_ok_iff.mp hw
  have hchunks : ∃ chunks, (l.chunksOf w).mapM (fun place => l.fetch decode place.1 place.2) = .ok chunks := by
    apply exists_mapM_eq_ok_iff.mpr
    intro place hplace
    obtain ⟨row, col, hcell, hrow, hcol⟩ := (mem_chunksOf_iff hl hrows hcols).mp hplace
    rw [← hrow, ← hcol]
    exact h row col hcell
  obtain ⟨chunks, hchunks⟩ := hchunks
  rw [readTile_eq hl hw, hchunks]
  exact ⟨_, rfl⟩

end ImageLayout

end SurfaceWater
