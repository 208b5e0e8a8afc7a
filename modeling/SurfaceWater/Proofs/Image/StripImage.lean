import SurfaceWater.Proofs.Image.Codec
import SurfaceWater.Proofs.Image.Declared
import SurfaceWater.Proofs.Image.Reading
import SurfaceWater.Proofs.Image.Strips
import SurfaceWater.Proofs.Tile.Walk

/-!
# Reading strips back

An image whose chunks are strips of bytes shows, at every row and column, the byte at that place of the
strip of the row. A reader finds this out by itself: the layout says where the strips are, and each strip is
as long as its part of the image.
-/

namespace SurfaceWater

namespace LabelFile

variable {rows cols stripRows : Nat} {noData : UInt8} {strips : List (List UInt8)}

/-- A path leads to a raster of bytes, kept as an image of one band. -/
def ReadsAs (codec : ImageCodec) (storage : Storage) (path : String) (rows cols : Nat)
    (value : Nat → Nat → UInt8) : Prop :=
  ∃ reader tile, ImageReader.load codec storage path = .ok reader ∧
    (reader.layout.height = rows ∧ reader.layout.width = cols ∧ reader.layout.bands = 1) ∧
    reader.readTile codec storage reader.layout.fullWindow = .ok tile ∧
    ∀ row col, row < rows → col < cols → tile.pixel row col = #[(value row col).toUInt16]

theorem ReadsAs.congr {codec : ImageCodec} {storage : Storage} {path : String} {value other : Nat → Nat → UInt8}
    (h : ReadsAs codec storage path rows cols value)
    (hvalue : ∀ row col, row < rows → col < cols → value row col = other row col) :
    ReadsAs codec storage path rows cols other := by
  obtain ⟨reader, tile, hreader, hshape, htile, hpixel⟩ := h
  refine ⟨reader, tile, hreader, hshape, htile, ?_⟩
  intro row col hrow hcol
  rw [hpixel row col hrow hcol, hvalue row col hrow hcol]

/-- The layout of a label file, with the value that it declares for missing data. -/
def layout (rows cols stripRows : Nat) (noData : UInt8) : ImageLayout :=
  ⟨cols, rows, 1, cols, stripRows, some (Binary.ofNat noData.toNat)⟩

theorem Sizes.proper (h : Sizes rows cols stripRows) (noData : UInt8) : (layout rows cols stripRows noData).Proper :=
  ⟨h.cols_pos, h.rows_pos, h.cols_pos, h.stripRows_pos⟩

theorem Sizes.stripRows_lt (h : Sizes rows cols stripRows) : stripRows < UInt32.size :=
  Nat.lt_of_le_of_lt h.stripRows_le h.rows_lt

/-- There is a strip for every row, with the bytes of its rows. -/
theorem Sizes.exists_strip (h : Sizes rows cols stripRows)
    (hstrips : strips.map List.length = stripSizes rows cols stripRows) {k : Nat} (hk : k * stripRows < rows) :
    ∃ strip, strips[k]? = some strip ∧ strip.length = min stripRows (rows - k * stripRows) * cols := by
  have hsize : (strips.map List.length)[k]? = (stripSizes rows cols stripRows)[k]? := by rw [hstrips]
  rw [stripSizes, strips_eq h.stripRows_pos, List.map_map, List.getElem?_map, List.getElem?_map,
    List.getElem?_range ((lt_ceilDiv_iff h.stripRows_pos).mpr hk), Option.map_some] at hsize
  obtain ⟨strip, hstrip, hlength⟩ := Option.map_eq_some_iff.mp hsize
  exact ⟨strip, hstrip, hlength⟩

end LabelFile

namespace DecodedImage.ShowsStrips

open LabelFile

variable {image : DecodedImage} {rows cols stripRows : Nat} {noData : UInt8} {strips : List (List UInt8)}
  (h : image.ShowsStrips rows cols stripRows noData strips) (hsizes : Sizes rows cols stripRows)

include h

theorem samples_eq {k : Nat} {strip : List UInt8} (hk : strips[k]? = some strip) :
    image.samples k = .ok (strip.map UInt8.toUInt16).toArray := by
  rw [samples, h.chunk_eq k strip hk, ← List.map_toArray]

include hsizes

theorem ofImage_eq : ImageLayout.ofImage image = .ok (layout rows cols stripRows noData) := by
  obtain ⟨planarity, hplanarity, hjoined⟩ := h.planarity_eq
  have hwrites := writesNatural_toString noData.toNat
  have hcols : (UInt32.ofNat cols).toNat = cols := UInt32.toNat_ofNat_of_lt hsizes.cols_lt
  have hrows : (UInt32.ofNat rows).toNat = rows := UInt32.toNat_ofNat_of_lt hsizes.rows_lt
  have hstripRows : (UInt32.ofNat stripRows).toNat = stripRows := UInt32.toNat_ofNat_of_lt hsizes.stripRows_lt
  have hwidth : UInt32.ofNat cols ≠ 0 := fun hzero =>
    Nat.ne_of_gt hsizes.cols_pos (by rw [← hcols, hzero]; rfl)
  have hheight : UInt32.ofNat rows ≠ 0 := fun hzero =>
    Nat.ne_of_gt hsizes.rows_pos (by rw [← hrows, hzero]; rfl)
  unfold ImageLayout.ofImage
  simp only [h.dimensions_eq, h.colorModel_eq, hplanarity, h.chunkDimensions_eq, h.noData_eq, ColorModel.bands?,
    Option.bind_some, hwrites.trimmed_eq, hwrites.read?_eq, hcols, hrows, hstripRows, hwidth, hheight, hjoined, or_self,
    if_false, decide_true, Bool.true_or, if_true, Nat.max_eq_left hsizes.cols_pos, Nat.max_eq_left hsizes.stripRows_pos]
  rfl

variable (hstrips : strips.map List.length = stripSizes rows cols stripRows)

include hstrips

/-- A pixel is the byte at its place in the strip of its row. -/
theorem sampleAt {row col : Nat} (hrow : row < rows) (hcol : col < cols) :
    ∃ chunk strip, (layout rows cols stripRows noData).fetch image.samples (row / stripRows) (col / cols) = .ok chunk ∧
      strips[row / stripRows]? = some strip ∧
      chunk.sample 1 row col 0 = ((strip[row % stripRows * cols + col]?).getD 0).toUInt16 := by
  have hoffset : row / stripRows * stripRows < rows := Nat.lt_of_le_of_lt (Nat.div_mul_le_self ..) hrow
  obtain ⟨strip, hstrip, hshape⟩ := hsizes.exists_strip hstrips hoffset
  have hread := h.samples_eq hstrip
  have hacross : ceilDiv cols cols = 1 := ceilDiv_eq_one hsizes.cols_pos (Nat.le_refl _)
  have hcolumn : col / cols = 0 := Nat.div_eq_of_lt hcol
  have hplace : row - row / stripRows * stripRows = row % stripRows := Nat.mod_eq_sub_div_mul.symm
  have hsize : (strip.map UInt8.toUInt16).toArray.size = cols * min stripRows (rows - row / stripRows * stripRows) * 1 := by
    rw [List.size_toArray, List.length_map, hshape, Nat.mul_comm, Nat.mul_one]
  refine ⟨⟨⟨row / stripRows * stripRows, 0, min stripRows (rows - row / stripRows * stripRows), cols⟩, cols,
    (strip.map UInt8.toUInt16).toArray⟩, strip, ?_, hstrip, ?_⟩
  · simp only [ImageLayout.fetch, ImageLayout.chunksAcross, ImageLayout.chunkWindow, ImageLayout.stride?, layout, hacross, hcolumn,
      Nat.mul_one, Nat.add_zero, Nat.zero_mul, Nat.sub_zero, Nat.min_self, hread, bind_eq_ok_iff, Except.ok.injEq,
      exists_eq_left', hsize, if_true]
    rfl
  · simp only [ImageChunk.sample, hplace, Nat.sub_zero, Nat.mul_one, Nat.add_zero, List.getElem?_toArray, List.getElem?_map]
    cases strip[row % stripRows * cols + col]? <;> rfl

/-- A file of strips shows their bytes. -/
theorem exists_reader {codec : ImageCodec} {storage : Storage} {path : String} {value : Nat → Nat → UInt8}
    (hload : codec.load storage path = .ok image)
    (hvalue : ∀ row col strip, row < rows → col < cols → strips[row / stripRows]? = some strip →
      strip[row % stripRows * cols + col]? = some (value row col)) :
    ∃ reader tile, ImageReader.load codec storage path = .ok reader ∧ reader.layout = layout rows cols stripRows noData ∧
      reader.readTile codec storage reader.layout.fullWindow = .ok tile ∧
      ∀ row col, row < rows → col < cols → tile.pixel row col = #[(value row col).toUInt16] := by
  have hl : (layout rows cols stripRows noData).Proper := hsizes.proper noData
  have hdecoder : codec.decoder storage path = image.samples := funext (ImageCodec.decoder_eq hload)
  have hwindow : (Window.full rows cols).checkWithin rows cols = .ok () :=
    Window.checkWithin_eq_ok_iff.mpr
      ⟨⟨hsizes.rows_pos, hsizes.cols_pos⟩, Nat.le_of_eq (Nat.zero_add _), Nat.le_of_eq (Nat.zero_add _)⟩
  obtain ⟨tile, htile⟩ : ∃ tile, (layout rows cols stripRows noData).readTile image.samples (.full rows cols) = .ok tile := by
    refine ImageLayout.exists_readTile hl hwindow fun row col hcell => ?_
    obtain ⟨-, hrow, -, hcol⟩ := Window.mem_iff.mp hcell
    obtain ⟨chunk, -, hfetch, -⟩ := h.sampleAt hsizes hstrips (Nat.zero_add rows ▸ hrow) (Nat.zero_add cols ▸ hcol)
    exact ⟨chunk, hfetch⟩
  obtain ⟨-, -, hpixels⟩ := ImageLayout.readTile_eq_ok hl htile
  refine ⟨⟨path, layout rows cols stripRows noData⟩, tile,
    ImageReader.load_eq_ok_iff.mpr ⟨rfl, image, hload, h.ofImage_eq hsizes⟩, rfl, ?_, ?_⟩
  · rw [ImageReader.readTile, ImageReader.decoder, hdecoder]
    exact htile
  intro row col hrow hcol
  obtain ⟨chunk, strip, hfetch, hstrip, hsample⟩ := h.sampleAt hsizes hstrips hrow hcol
  rw [hvalue row col strip hrow hcol hstrip, Option.getD_some] at hsample
  have hpixel := (hpixels row col hrow hcol).1
  simp only [Window.full, Nat.zero_add] at hpixel
  rw [hpixel, ← hsample]
  have hchunk : (layout rows cols stripRows noData).fetch image.samples
      (row / (layout rows cols stripRows noData).chunkHeight) (col / (layout rows cols stripRows noData).chunkWidth) =
        .ok chunk := hfetch
  simp only [ImageLayout.pixelAt, ImageLayout.sampleAt_eq hchunk]
  rfl

end DecodedImage.ShowsStrips

end SurfaceWater
