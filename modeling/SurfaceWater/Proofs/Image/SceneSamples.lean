import Mathlib.Tactic.Ring
import SurfaceWater.Image.Scene
import SurfaceWater.Proofs.Blocks
import SurfaceWater.Proofs.Raster
import SurfaceWater.Proofs.Tile.Walk

/-!
# Samples of made-up scenes

However a scene is put together, it keeps a sample for every band of every pixel, and its chunks hold these
samples where a reader looks for them: strips as far as the image has rows, tiles with padding at the edges.
-/

namespace SurfaceWater

namespace SceneImage

/-! ### Histories -/

/-- What comes of filling an image or listing its pixels, and then changing it step by step. -/
inductive Made : SceneImage → Prop
  | filled (width height bands : Nat) (value : UInt16) : Made (.filled width height bands value)
  | ofPixels (width height : Nat) (pixels : List (List UInt16)) (count : pixels.length = width * height)
      (alike : ∀ p ∈ pixels, ∀ q ∈ pixels, p.length = q.length) : Made (.ofPixels width height pixels)
  | setSample {image : SceneImage} (row col band : Nat) (value : UInt16) :
      Made image → Made (image.setSample row col band value)
  | setPixel {image : SceneImage} (row col : Nat) (values : List UInt16) : Made image → Made (image.setPixel row col values)
  | shaped {image : SceneImage} (shape : ChunkShape) : Made image → Made { image with shape }
  | placed {image : SceneImage} (geo : Option GeoTags) : Made image → Made { image with geo }
  | declaring {image : SceneImage} (noData : Option String) : Made image → Made { image with noData }

/-- The samples of a pixel stand next to each other, and none is missing. -/
structure Interleaved (image : SceneImage) : Prop where
  size_eq : image.samples.size = image.width * image.height * image.bands
  bandPlanes_eq : image.bandPlanes = false

variable {image : SceneImage}

theorem Interleaved.setSample (h : image.Interleaved) (row col band : Nat) (value : UInt16) :
    (image.setSample row col band value).Interleaved where
  size_eq := Array.size_setIfInBounds.trans h.size_eq
  bandPlanes_eq := h.bandPlanes_eq

theorem Interleaved.setPixel (h : image.Interleaved) (row col : Nat) (values : List UInt16) :
    (image.setPixel row col values).Interleaved := by
  rw [SceneImage.setPixel]
  generalize values.zipIdx = steps
  induction steps generalizing image with
  | nil => exact h
  | cons step steps ih => exact ih (h.setSample row col step.2 step.1)

theorem interleaved_ofPixels {width height : Nat} {pixels : List (List UInt16)} (hcount : pixels.length = width * height)
    (halike : ∀ p ∈ pixels, ∀ q ∈ pixels, p.length = q.length) : (ofPixels width height pixels).Interleaved := by
  refine ⟨?_, rfl⟩
  cases pixels with
  | nil =>
    change 0 = width * height * 0
    rw [Nat.mul_zero]
  | cons first rest =>
    have hlengths := length_flatMap_block (f := id) (n := first.length) fun p hp => halike p hp first List.mem_cons_self
    rw [List.flatMap_id, hcount] at hlengths
    exact hlengths

theorem Made.interleaved (h : image.Made) : image.Interleaved := by
  induction h with
  | filled width height bands value => exact ⟨Array.size_replicate, rfl⟩
  | ofPixels width height pixels count alike => exact interleaved_ofPixels count alike
  | setSample row col band value _ ih => exact ih.setSample row col band value
  | setPixel row col values _ ih => exact ih.setPixel row col values
  | shaped shape _ ih => exact ⟨ih.size_eq, ih.bandPlanes_eq⟩
  | placed geo _ ih => exact ⟨ih.size_eq, ih.bandPlanes_eq⟩
  | declaring noData _ ih => exact ⟨ih.size_eq, ih.bandPlanes_eq⟩

theorem getElem?_samples (h : image.Interleaved) {row col band : Nat} (hrow : row < image.height) (hcol : col < image.width)
    (hband : band < image.bands) :
    image.samples[(row * image.width + col) * image.bands + band]? = some (image.sample row col band) := by
  have hlt := index_lt_size (index_lt_size hrow hcol) hband
  rw [Nat.mul_comm image.height, ← h.size_eq] at hlt
  rw [sample, sampleIndex, Array.getElem?_eq_getElem hlt, Option.getD_some]

/-! ### Chunks -/

def chunkWidth (image : SceneImage) : Nat :=
  match image.shape with
  | .strips _ => image.width
  | .tiles width _ => width

def chunkHeight (image : SceneImage) : Nat :=
  match image.shape with
  | .strips rows => rows
  | .tiles _ height => height

/-- A list holds the samples of the chunk whose first pixel is given, row after row of the chunk's width. -/
structure HoldsChunk (image : SceneImage) (row col : Nat) (chunk : List UInt16) : Prop where
  le_length : min image.chunkHeight (image.height - row) * image.chunkWidth * image.bands ≤ chunk.length
  getElem? : ∀ i j band, i < image.chunkHeight → j < image.chunkWidth → band < image.bands → row + i < image.height →
    col + j < image.width →
    chunk[(i * image.chunkWidth + j) * image.bands + band]? = some (image.sample (row + i) (col + j) band)

theorem length_padded (image : SceneImage) (row col width height : Nat) :
    (image.padded row col width height).length = height * width * image.bands := by
  have hline (r : Nat) : ((List.range width).flatMap fun c => (List.range image.bands).map fun band =>
      if row + r < image.height ∧ col + c < image.width then image.sample (row + r) (col + c) band else 0).length =
        width * image.bands := by
    rw [length_flatMap_block fun c _ => (by rw [List.length_map, List.length_range]), List.length_range]
  rw [padded, length_flatMap_block fun r _ => hline r, List.length_range, Nat.mul_assoc]

/-- Beyond the edges of the image a tile is zero. -/
theorem getElem?_padded {row col width height r c band : Nat} (hr : r < height) (hc : c < width)
    (hband : band < image.bands) :
    (image.padded row col width height)[(r * width + c) * image.bands + band]? =
      some (if row + r < image.height ∧ col + c < image.width then image.sample (row + r) (col + c) band else 0) := by
  have hpixel (r c : Nat) : ((List.range image.bands).map fun band =>
      if row + r < image.height ∧ col + c < image.width then image.sample (row + r) (col + c) band else 0).length =
        image.bands := by
    rw [List.length_map, List.length_range]
  have hline (r : Nat) : ((List.range width).flatMap fun c => (List.range image.bands).map fun band =>
      if row + r < image.height ∧ col + c < image.width then image.sample (row + r) (col + c) band else 0).length =
        width * image.bands := by
    rw [length_flatMap_block fun c _ => hpixel r c, List.length_range]
  have hindex : (r * width + c) * image.bands + band = r * (width * image.bands) + (c * image.bands + band) := by ring
  rw [padded, hindex, getElem?_flatMap_block (fun r _ => hline r) (index_lt_size hc hband), List.getElem?_range hr,
    Option.bind_some, getElem?_flatMap_block (fun c _ => hpixel r c) hband, List.getElem?_range hc, Option.bind_some,
    List.getElem?_map, List.getElem?_range hband, Option.map_some]

section

variable {rows : Nat} (hshape : image.shape = .strips rows)

include hshape

theorem chunks_strips (hrows : 0 < rows) : image.chunks =
    groups (rows * (image.width * image.bands)) (ceilDiv image.samples.size (rows * (image.width * image.bands)))
      image.samples.toList := by
  rw [chunks, hshape]
  dsimp only
  rw [Nat.max_eq_left hrows]

theorem exists_chunk_strips (h : image.Interleaved) (hrows : 0 < rows) (hwidth : 0 < image.width)
    (hbands : 0 < image.bands) {i : Nat} (hi : i * rows < image.height) :
    ∃ chunk, image.chunks[i]? = some chunk ∧ image.HoldsChunk (i * rows) 0 chunk := by
  have hline : 0 < image.width * image.bands := Nat.mul_pos hwidth hbands
  have hsize : image.samples.toList.length = image.height * (image.width * image.bands) := by
    rw [Array.length_toList, h.size_eq, Nat.mul_comm image.width, Nat.mul_assoc]
  have hcount : i < ceilDiv image.samples.size (rows * (image.width * image.bands)) := by
    rw [lt_ceilDiv_iff (Nat.mul_pos hrows hline), ← Array.length_toList, hsize, ← Nat.mul_assoc]
    exact Nat.mul_lt_mul_of_pos_right hi hline
  have hheight : image.chunkHeight = rows := by rw [chunkHeight, hshape]
  have hwidth' : image.chunkWidth = image.width := by rw [chunkWidth, hshape]
  rw [chunks_strips hshape hrows, getElem?_groups hcount]
  refine ⟨_, rfl, ?_, ?_⟩
  · rw [hheight, hwidth', List.length_take, List.length_drop, hsize, ← Nat.mul_assoc i, ← Nat.sub_mul,
      Nat.mul_min_mul_right, Nat.mul_assoc]
  · intro r col band hr hcol hband hrow hcolumn
    rw [hheight] at hr
    rw [hwidth'] at hcol ⊢
    have hplace : (r * image.width + col) * image.bands + band < rows * (image.width * image.bands) := by
      rw [← Nat.mul_assoc]
      exact index_lt_size (index_lt_size hr hcol) hband
    have hindex : i * (rows * (image.width * image.bands)) + ((r * image.width + col) * image.bands + band) =
        ((i * rows + r) * image.width + col) * image.bands + band := by ring
    rw [List.getElem?_take_of_lt hplace, List.getElem?_drop, Array.getElem?_toList, hindex, Nat.zero_add,
      getElem?_samples h hrow hcol hband]

theorem length_chunks_strips (h : image.Interleaved) (hrows : 0 < rows) (hwidth : 0 < image.width)
    (hbands : 0 < image.bands) : image.chunks.length = ceilDiv image.height rows := by
  have hline : 0 < image.width * image.bands := Nat.mul_pos hwidth hbands
  have hsize : image.samples.size = image.height * (image.width * image.bands) := by
    rw [h.size_eq, Nat.mul_comm image.width, Nat.mul_assoc]
  rw [chunks_strips hshape hrows, length_groups, hsize, ceilDiv_mul_right hline]

end

section

variable {width height : Nat} (hshape : image.shape = .tiles width height)

include hshape

theorem exists_chunk_tiles {i j : Nat} (hi : i < ceilDiv image.height height)
    (hj : j < ceilDiv image.width width) :
    ∃ chunk, image.chunks[i * ceilDiv image.width width + j]? = some chunk ∧
      image.HoldsChunk (i * height) (j * width) chunk := by
  have hheight : image.chunkHeight = height := by rw [chunkHeight, hshape]
  have hwidth : image.chunkWidth = width := by rw [chunkWidth, hshape]
  have hchunks : image.chunks = (List.range (ceilDiv image.height height)).flatMap fun i =>
      (List.range (ceilDiv image.width width)).map fun j => image.padded (i * height) (j * width) width height := by
    rw [chunks, hshape]
  rw [hchunks, getElem?_flatMap_block (fun i _ => by rw [List.length_map, List.length_range]) hj, List.getElem?_range hi,
    Option.bind_some, List.getElem?_map, List.getElem?_range hj, Option.map_some]
  refine ⟨_, rfl, ?_, ?_⟩
  · rw [hheight, hwidth, length_padded]
    exact Nat.mul_le_mul_right _ (Nat.mul_le_mul_right _ (Nat.min_le_left ..))
  · intro r col band hr hcol hband hrow hcolumn
    rw [hheight] at hr
    rw [hwidth] at hcol ⊢
    rw [getElem?_padded hr hcol hband, if_pos ⟨hrow, hcolumn⟩]

theorem length_chunks_tiles : image.chunks.length = ceilDiv image.height height * ceilDiv image.width width := by
  rw [chunks, hshape]
  dsimp only
  rw [length_flatMap_block fun i _ => (by rw [List.length_map, List.length_range]), List.length_range]

end

/-! ### Chunks in the order of the file -/

theorem storedChunks_eq (h : image.Interleaved) : image.storedChunks = image.chunks := by
  rw [storedChunks, h.bandPlanes_eq, if_neg Bool.false_ne_true]

section

variable (h : image.Interleaved) (hwidth : 0 < image.width) (hbands : 0 < image.bands)
  (hchunkHeight : 0 < image.chunkHeight)

include h hwidth hbands hchunkHeight

theorem exists_storedChunk {i j : Nat} (hi : i < ceilDiv image.height image.chunkHeight)
    (hj : j < ceilDiv image.width image.chunkWidth) :
    ∃ chunk, image.storedChunks[i * ceilDiv image.width image.chunkWidth + j]? = some chunk ∧
      image.HoldsChunk (i * image.chunkHeight) (j * image.chunkWidth) chunk := by
  rw [storedChunks_eq h]
  cases hshape : image.shape with
  | strips rows =>
    have hheight : image.chunkHeight = rows := by rw [chunkHeight, hshape]
    have hacross : ceilDiv image.width image.chunkWidth = 1 := by
      rw [show image.chunkWidth = image.width by rw [chunkWidth, hshape], ceilDiv_eq_one hwidth (Nat.le_refl _)]
    rw [hacross] at hj ⊢
    obtain rfl : j = 0 := by omega
    rw [hheight] at hchunkHeight hi ⊢
    rw [Nat.mul_one, Nat.add_zero, Nat.zero_mul]
    exact exists_chunk_strips hshape h hchunkHeight hwidth hbands ((lt_ceilDiv_iff hchunkHeight).mp hi)
  | tiles width height =>
    have hheight : image.chunkHeight = height := by rw [chunkHeight, hshape]
    have hwidth : image.chunkWidth = width := by rw [chunkWidth, hshape]
    rw [hheight] at hi ⊢
    rw [hwidth] at hj ⊢
    exact exists_chunk_tiles hshape hi hj

theorem length_storedChunks : image.storedChunks.length =
    ceilDiv image.height image.chunkHeight * ceilDiv image.width image.chunkWidth := by
  rw [storedChunks_eq h]
  cases hshape : image.shape with
  | strips rows =>
    have hheight : image.chunkHeight = rows := by rw [chunkHeight, hshape]
    have hacross : ceilDiv image.width image.chunkWidth = 1 := by
      rw [show image.chunkWidth = image.width by rw [chunkWidth, hshape], ceilDiv_eq_one hwidth (Nat.le_refl _)]
    rw [hacross, hheight, Nat.mul_one, length_chunks_strips hshape h (hheight ▸ hchunkHeight) hwidth hbands]
  | tiles width height =>
    rw [length_chunks_tiles hshape, chunkHeight, chunkWidth, hshape]

end

end SceneImage

end SurfaceWater
