import Mathlib.Tactic.IntervalCases
import SurfaceWater.Proofs.Image.Copying

/-!
# Windows from any source of chunks

What a window shows is a matter of the pixels in it: not of the other pixels that are read with them, nor of
the shape that the chunks at the far edges come in.
-/

namespace SurfaceWater

/-! ### Parts of a tile -/

namespace ImageLayout

variable {l : ImageLayout} {decode other : ChunkDecoder} {v w : Window}

/-- The samples of a full chunk of which some are those of its part inside the image. -/
structure Pads (l : ImageLayout) (window : Window) (cropped full : Array UInt16) : Prop where
  size_cropped : cropped.size = window.rows * window.cols * l.bands
  size_full : full.size = l.chunkHeight * l.chunkWidth * l.bands
  sample_eq : ∀ row col band, row < window.rows → col < window.cols → band < l.bands →
    full[(row * l.chunkWidth + col) * l.bands + band]? = cropped[(row * window.cols + col) * l.bands + band]?

/-- Two decoders that differ at most in whether the chunks at the edges come cropped or padded. -/
def SameUpToPadding (l : ImageLayout) (decode other : ChunkDecoder) : Prop :=
  ∀ i j, i < l.chunksDown → j < l.chunksAcross →
    decode (i * l.chunksAcross + j) = other (i * l.chunksAcross + j) ∨
      ∃ cropped full, l.Pads (l.chunkWindow i j) cropped full ∧
        (decode (i * l.chunksAcross + j) = .ok cropped ∧ other (i * l.chunksAcross + j) = .ok full ∨
          decode (i * l.chunksAcross + j) = .ok full ∧ other (i * l.chunksAcross + j) = .ok cropped)

/-- Samples that are as many as those of a full chunk are laid out like one: a part of the image with as many
pixels is as wide as a chunk. -/
theorem cols_eq_of_size_eq {window : Window} (hrows : 0 < window.rows ∧ window.rows ≤ l.chunkHeight)
    (hcols : window.cols ≤ l.chunkWidth) (hbands : 0 < l.bands)
    (hsize : l.chunkHeight * l.chunkWidth * l.bands = window.rows * window.cols * l.bands) :
    window.cols = l.chunkWidth := by
  have hpixels := Nat.eq_of_mul_eq_mul_right hbands hsize
  have hle : window.rows * window.cols ≤ l.chunkHeight * window.cols := Nat.mul_le_mul_right _ hrows.2
  rw [← hpixels] at hle
  exact Nat.le_antisymm hcols (Nat.le_of_mul_le_mul_left hle (by omega))

theorem fetch_congr {i j : Nat} (h : decode (i * l.chunksAcross + j) = other (i * l.chunksAcross + j)) :
    l.fetch decode i j = l.fetch other i j := by
  simp only [fetch, h]

/-- The samples of a chunk that comes cropped in one place and padded in another are the same. -/
theorem storedSample?_of_pads (hl : l.Proper) {row col band : Nat} (hrow : row < l.height) (hcol : col < l.width)
    (hband : band < l.bands) {cropped full : Array UInt16}
    (hpads : l.Pads (l.chunkWindow (row / l.chunkHeight) (col / l.chunkWidth)) cropped full)
    (hdecode : decode (row / l.chunkHeight * l.chunksAcross + col / l.chunkWidth) = .ok cropped)
    (hother : other (row / l.chunkHeight * l.chunksAcross + col / l.chunkWidth) = .ok full) :
    l.storedSample? decode row col band = l.storedSample? other row col band := by
  have hcell : (row, col) ∈ l.chunkWindow (row / l.chunkHeight) (col / l.chunkWidth) :=
    (mem_chunkWindow_iff hl).mpr ⟨⟨hrow, hcol⟩, rfl, rfl⟩
  have hrowMod : row - row / l.chunkHeight * l.chunkHeight = row % l.chunkHeight := Nat.mod_eq_sub_div_mul.symm
  have hcolMod : col - col / l.chunkWidth * l.chunkWidth = col % l.chunkWidth := Nat.mod_eq_sub_div_mul.symm
  obtain ⟨hrow₁, hrow₂, hcol₁, hcol₂⟩ := Window.mem_iff.mp hcell
  have hsample := hpads.sample_eq (row % l.chunkHeight) (col % l.chunkWidth) band
    (by rw [← hrowMod]; exact Nat.sub_lt_left_of_lt_add hrow₁ hrow₂)
    (by rw [← hcolMod]; exact Nat.sub_lt_left_of_lt_add hcol₁ hcol₂) hband
  change decode (row / l.chunkHeight * ceilDiv l.width l.chunkWidth + col / l.chunkWidth) = .ok cropped at hdecode
  change other (row / l.chunkHeight * ceilDiv l.width l.chunkWidth + col / l.chunkWidth) = .ok full at hother
  have hcols (hsize : full.size = (l.chunkWindow (row / l.chunkHeight) (col / l.chunkWidth)).rows *
      (l.chunkWindow (row / l.chunkHeight) (col / l.chunkWidth)).cols * l.bands) :
      (l.chunkWindow (row / l.chunkHeight) (col / l.chunkWidth)).cols = l.chunkWidth := by
    rw [hpads.size_full] at hsize
    exact cols_eq_of_size_eq ⟨by omega, Nat.min_le_left ..⟩ (Nat.min_le_left ..) (by omega) hsize
  have hcropped := hpads.size_cropped
  rw [storedSample?, storedSample?, hdecode, hother]
  dsimp only [chunkWindow] at hcols hsample hcropped ⊢
  rw [if_pos hcropped, ← hsample]
  split
  case isTrue hsize => rw [hcols hsize]
  case isFalse => rfl

/-- A chunk is read in either shape. -/
theorem exists_fetch_of_size {i j : Nat} {samples : Array UInt16} (hdecode : decode (i * l.chunksAcross + j) = .ok samples)
    (hsize : samples.size = (l.chunkWindow i j).rows * (l.chunkWindow i j).cols * l.bands ∨
      samples.size = l.chunkHeight * l.chunkWidth * l.bands) : ∃ chunk, l.fetch decode i j = .ok chunk := by
  rw [exists_fetch_iff, Unreadable, hdecode, Nat.mul_comm (l.chunkWindow i j).cols, Nat.mul_comm l.chunkWidth]
  intro hno
  exact hsize.elim hno.1 hno.2

theorem sampleAt_of_pads (hl : l.Proper) {row col band : Nat} (hrow : row < l.height) (hcol : col < l.width)
    (hband : band < l.bands) {cropped full : Array UInt16}
    (hpads : l.Pads (l.chunkWindow (row / l.chunkHeight) (col / l.chunkWidth)) cropped full)
    (hdecode : decode (row / l.chunkHeight * l.chunksAcross + col / l.chunkWidth) = .ok cropped)
    (hother : other (row / l.chunkHeight * l.chunksAcross + col / l.chunkWidth) = .ok full) :
    l.sampleAt decode row col band = l.sampleAt other row col band := by
  obtain ⟨_, hchunk⟩ := exists_fetch_of_size hdecode (.inl hpads.size_cropped)
  obtain ⟨_, hotherChunk⟩ := exists_fetch_of_size hother (.inr hpads.size_full)
  have hstored := storedSample?_of_pads hl hrow hcol hband hpads hdecode hother
  rw [storedSample?_eq_some hl hrow hcol hband hchunk, storedSample?_eq_some hl hrow hcol hband hotherChunk] at hstored
  exact Option.some.inj hstored

namespace SameUpToPadding

theorem map_fetch (h : l.SameUpToPadding decode other) {i j : Nat} (hi : i < l.chunksDown) (hj : j < l.chunksAcross) :
    (l.fetch decode i j).map (fun _ => ()) = (l.fetch other i j).map fun _ => () := by
  rcases h i j hi hj with heq | ⟨cropped, full, hpads, ⟨hcropped, hfull⟩ | ⟨hfull, hcropped⟩⟩
  · rw [fetch_congr heq]
  all_goals
    obtain ⟨chunk, hchunk⟩ := exists_fetch_of_size hcropped (.inl hpads.size_cropped)
    obtain ⟨chunk', hchunk'⟩ := exists_fetch_of_size hfull (.inr hpads.size_full)
    rw [hchunk, hchunk']
    rfl

theorem sampleAt_eq (h : l.SameUpToPadding decode other) (hl : l.Proper) {row col band : Nat} (hrow : row < l.height)
    (hcol : col < l.width) (hband : band < l.bands) : l.sampleAt decode row col band = l.sampleAt other row col band := by
  have hi : row / l.chunkHeight < l.chunksDown := div_lt_ceilDiv hl.chunkHeight_pos hrow
  have hj : col / l.chunkWidth < l.chunksAcross := div_lt_ceilDiv hl.chunkWidth_pos hcol
  rcases h _ _ hi hj with heq | ⟨cropped, full, hpads, ⟨hcropped, hfull⟩ | ⟨hfull, hcropped⟩⟩
  · rw [sampleAt, sampleAt, fetch_congr heq]
  · exact sampleAt_of_pads hl hrow hcol hband hpads hcropped hfull
  · exact (sampleAt_of_pads hl hrow hcol hband hpads hcropped hfull).symm

/-- Whether the chunks at the edges come cropped or padded does not show in a window. -/
theorem readTile_eq (h : l.SameUpToPadding decode other) (hl : l.Proper) (w : Window) :
    l.readTile decode w = l.readTile other w := by
  cases hw : w.checkWithin l.height l.width with
  | error e =>
    rw [readTile, readTile, hw]
    rfl
  | ok _ =>
    obtain ⟨-, hbottom, hright⟩ := Window.checkWithin_eq_ok_iff.mp hw
    have hgrid : l.gridOf decode w = l.gridOf other w := by
      apply SampleGrid.ofFn_congr
      intro r c band hr hc hband
      exact h.sampleAt_eq hl (by omega) (by omega) hband
    have htile : l.tileOf decode w = l.tileOf other w := by
      unfold tileOf
      simp only [hgrid]
    have hfetches : ∀ place ∈ l.chunksOf w, (l.fetch decode place.1 place.2).map (fun _ => ()) =
        (l.fetch other place.1 place.2).map fun _ => () := by
      intro place hplace
      obtain ⟨hi, hj⟩ := bounds_of_mem_chunksOf hl hw place hplace
      exact h.map_fetch hi hj
    rw [ImageLayout.readTile_eq hl hw, ImageLayout.readTile_eq hl hw, htile]
    exact mapM_map_congr hfetches

end SameUpToPadding

/-! ### Any window of any source -/

variable {source : ChunkSource}

end ImageLayout

end SurfaceWater
