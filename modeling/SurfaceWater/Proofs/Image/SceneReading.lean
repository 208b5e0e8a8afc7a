import SurfaceWater.Proofs.Image.SceneImage
import SurfaceWater.Proofs.Image.Uncompressed
import SurfaceWater.Proofs.Storage.Staging

/-!
# Reading made-up scenes

A scene that was encoded is read back as it was: its shape, its declared value, its place on the ground and,
in every window, the samples of its pixels. Where a chunk reaches beyond the image, only the part inside is
read.
-/

namespace SurfaceWater

open ImageEncoding

theorem ColorModel.exists_ofPhotometric? (samples : Nat) :
    ∃ model, ofPhotometric? 1 samples 16 = some model ∧ model.bands? = some samples := by
  by_cases hone : samples = 1
  · rw [hone]
    exact ⟨.gray 16, rfl, rfl⟩
  · refine ⟨.multiband 16 samples, ?_, rfl⟩
    simp only [ofPhotometric?]

namespace SceneImage

variable {image : SceneImage} {d : ImageDirectory}

/-! ### Chunks -/

theorem length_chunkBytes (chunk : List UInt16) : (chunkBytes chunk).length = chunk.length * 2 :=
  length_flatMap_block fun _ _ => ByteOrder.length_littleBytes 2 _

/-- A stretch of a chunk is found in the bytes of the chunk. -/
theorem slice?_chunkBytes {bytes : List UInt8} {offset start count : Nat} {chunk : List UInt16}
    (hchunk : Carries bytes offset (chunkBytes chunk)) (hend : start + count ≤ chunk.length) :
    Bytes.slice? bytes.toArray (offset + start * 2) (count * 2) =
      some (chunkBytes ((chunk.drop start).take count)) := by
  have hwidth : ∀ sample ∈ chunk, (ByteOrder.littleBytes 2 sample.toNat).length = 2 :=
    fun _ _ => ByteOrder.length_littleBytes 2 _
  have hpart : ((chunkBytes chunk).drop (start * 2)).take (count * 2) = chunkBytes ((chunk.drop start).take count) := by
    rw [chunkBytes, drop_flatMap_block hwidth, take_flatMap_block fun _ _ => ByteOrder.length_littleBytes 2 _, chunkBytes]
  have hstretch : Carries bytes (offset + start * 2) (chunkBytes ((chunk.drop start).take count)) := by
    rw [← hpart]
    exact hchunk.stretch (by rw [length_chunkBytes]; omega)
  have hslice := hstretch.slice?
  rwa [length_chunkBytes, List.length_take, List.length_drop, Nat.min_eq_left (by omega)] at hslice

theorem decodeRow_chunkBytes {f : ImageFile} (hbits : f.bits = 16) (horder : f.directory.order = .little)
    (samples : List UInt16) : f.decodeRow samples.length (chunkBytes samples) = samples := by
  have hback : (fun pair => UInt16.ofNat (ByteOrder.little.number pair)) ∘
      (fun sample : UInt16 => ByteOrder.littleBytes 2 sample.toNat) = id := by
    funext sample
    have hlt : sample.toNat < 256 ^ 2 := sample.toNat_lt
    rw [Function.comp_apply, ByteOrder.number, ByteOrder.littleNumber_littleBytes hlt, UInt16.ofNat_toNat, id]
  rw [ImageFile.decodeRow, if_neg (by rw [hbits]; decide), chunkBytes,
    groups_flatMap fun _ _ => ByteOrder.length_littleBytes 2 _, List.map_map, horder, hback, List.map_id]

/-- The rows of a chunk as far as they are inside the image. -/
def visible (image : SceneImage) (row col : Nat) (chunk : List UInt16) : List UInt16 :=
  (List.range (min image.chunkHeight (image.height - row))).flatMap fun r =>
    (chunk.drop (r * image.chunkWidth * image.bands)).take (min image.chunkWidth (image.width - col) * image.bands)

theorem row_le_length {row col r : Nat} {chunk : List UInt16} (hchunk : image.HoldsChunk row col chunk)
    (hr : r < min image.chunkHeight (image.height - row)) :
    r * image.chunkWidth * image.bands + min image.chunkWidth (image.width - col) * image.bands ≤ chunk.length := by
  calc r * image.chunkWidth * image.bands + min image.chunkWidth (image.width - col) * image.bands
      ≤ r * image.chunkWidth * image.bands + image.chunkWidth * image.bands :=
        Nat.add_le_add_left (Nat.mul_le_mul_right _ (Nat.min_le_left ..)) _
    _ = (r + 1) * image.chunkWidth * image.bands := by ring
    _ ≤ min image.chunkHeight (image.height - row) * image.chunkWidth * image.bands :=
        Nat.mul_le_mul_right _ (Nat.mul_le_mul_right _ hr)
    _ ≤ chunk.length := hchunk.le_length

section

variable {row col : Nat} {chunk : List UInt16} (hchunk : image.HoldsChunk row col chunk)

include hchunk

theorem length_visible_row {r : Nat} (hr : r ∈ List.range (min image.chunkHeight (image.height - row))) :
    ((chunk.drop (r * image.chunkWidth * image.bands)).take
      (min image.chunkWidth (image.width - col) * image.bands)).length =
        min image.chunkWidth (image.width - col) * image.bands := by
  have hle := row_le_length hchunk (List.mem_range.mp hr)
  rw [List.length_take, List.length_drop]
  omega

theorem length_visible : (image.visible row col chunk).length =
    min image.chunkHeight (image.height - row) * min image.chunkWidth (image.width - col) * image.bands := by
  rw [visible, length_flatMap_block fun r hr => length_visible_row hchunk hr, List.length_range, Nat.mul_assoc]

theorem getElem?_visible {r c band : Nat} (hr : r < min image.chunkHeight (image.height - row))
    (hc : c < min image.chunkWidth (image.width - col)) (hband : band < image.bands) :
    (image.visible row col chunk)[(r * min image.chunkWidth (image.width - col) + c) * image.bands + band]? =
      some (image.sample (row + r) (col + c) band) := by
  have hindex : (r * min image.chunkWidth (image.width - col) + c) * image.bands + band =
      r * (min image.chunkWidth (image.width - col) * image.bands) + (c * image.bands + band) := by ring
  have hplace : r * image.chunkWidth * image.bands + (c * image.bands + band) =
      (r * image.chunkWidth + c) * image.bands + band := by ring
  rw [visible, hindex, getElem?_flatMap_block (fun r hr => length_visible_row hchunk hr) (index_lt_size hc hband),
    List.getElem?_range hr, Option.bind_some, List.getElem?_take_of_lt (index_lt_size hc hband), List.getElem?_drop, hplace]
  exact hchunk.getElem? r c band (by omega) (by omega) hband (by omega) (by omega)

end

section

variable (h : image.Encodable) (himage : image.Interleaved) (hbytes : d.bytes = image.encode.toArray)
  (horder : d.order = .little)

include h himage hbytes horder

/-- A chunk of the file decodes to its rows inside the image. -/
theorem samples_eq {i j : Nat} (hi : i < ceilDiv image.height image.chunkHeight)
    (hj : j < ceilDiv image.width image.chunkWidth) :
    ∃ chunk, image.HoldsChunk (i * image.chunkHeight) (j * image.chunkWidth) chunk ∧
      (image.file d).decoded.samples (i * ceilDiv image.width image.chunkWidth + j) =
        .ok (image.visible (i * image.chunkHeight) (j * image.chunkWidth) chunk).toArray := by
  obtain ⟨chunk, hstored, hchunk⟩ := exists_storedChunk himage h.width_pos h.bands_pos h.chunkHeight_pos hi hj
  refine ⟨chunk, hchunk, ?_⟩
  generalize hindex : i * ceilDiv image.width image.chunkWidth + j = index at hstored
  have hwindow : (image.file d).chunkWindow index = ⟨i * image.chunkHeight, j * image.chunkWidth,
      min image.chunkHeight (image.height - i * image.chunkHeight),
      min image.chunkWidth (image.width - j * image.chunkWidth)⟩ := by
    simp only [ImageFile.chunkWindow, file, ← hindex, index_div hj, index_mod hj]
  have hfile : image.fileChunks[index]? = some (chunkBytes chunk) := by
    rw [fileChunks, List.getElem?_map, hstored, Option.map_some]
  have hcarries := carries_chunk image.fileFields hfile
  rw [← encode_eq] at hcarries
  have hoffset : (image.file d).offsets[index]? = some (headerSize + (image.fileChunks.take index).flatten.length) := by
    rw [file, List.getElem?_toArray, getElem?_chunkOffsets, hfile, Option.map_some]
  generalize headerSize + (image.fileChunks.take index).flatten.length = offset at hcarries hoffset
  have hrow : ∀ r ∈ List.range (min image.chunkHeight (image.height - i * image.chunkHeight)),
      ((d.bytes.slice? (offset + r * image.chunkWidth * image.bands * 2)
        (min image.chunkWidth (image.width - j * image.chunkWidth) * image.bands * 2)).bind fun bytes =>
          some ((image.file d).decodeRow (min image.chunkWidth (image.width - j * image.chunkWidth) * image.bands) bytes)) =
        some ((chunk.drop (r * image.chunkWidth * image.bands)).take
          (min image.chunkWidth (image.width - j * image.chunkWidth) * image.bands)) := by
    intro r hr
    have hlength := length_visible_row hchunk hr
    rw [hbytes, slice?_chunkBytes hcarries (row_le_length hchunk (List.mem_range.mp hr)), Option.bind_some]
    have hdecoded := decodeRow_chunkBytes (f := image.file d) rfl horder ((chunk.drop (r * image.chunkWidth * image.bands)).take
      (min image.chunkWidth (image.width - j * image.chunkWidth) * image.bands))
    rw [hlength] at hdecoded
    rw [hdecoded]
  have hsamples : (image.file d).chunkSamples? index =
      some (image.visible (i * image.chunkHeight) (j * image.chunkWidth) chunk).toArray := by
    rw [ImageFile.chunkSamples?, hwindow, hoffset]
    simp only [file, Option.bind_eq_bind, Option.bind_some, Option.pure_def, ne_eq, not_true_eq_false, if_false,
      show 16 / 8 = 2 from rfl] at hrow ⊢
    rw [mapM_eq_some_map hrow, Option.bind_some, visible, List.flatMap_def]
  have hlt : index < UInt32.size := by
    rw [List.getElem?_eq_some_iff] at hfile
    exact Nat.lt_trans hfile.1 h.length_fileChunks_lt
  have htoNat : (UInt32.ofNat index).toNat = index := UInt32.toNat_ofNat_of_lt hlt
  have hchunk? : (image.file d).decoded.chunk? (UInt32.ofNat index) =
      some (.words (image.visible (i * image.chunkHeight) (j * image.chunkWidth) chunk).toArray) := by
    show (image.file d).chunk? (UInt32.ofNat index).toNat = _
    rw [ImageFile.chunk?, htoNat, hsamples]
    rfl
  rw [DecodedImage.samples, hchunk?]

end

/-! ### Windows -/

/-- The number that the image declares for missing data. -/
def declared? (image : SceneImage) : Option Nat := image.noData.bind naturalOfText?

/-- The value whose pixels are missing. -/
def missing (image : SceneImage) : UInt16 := UInt16.ofNat (image.declared?.getD 0)

def layout (image : SceneImage) : ImageLayout where
  width := image.width
  height := image.height
  bands := image.bands
  chunkWidth := image.chunkWidth
  chunkHeight := image.chunkHeight
  noData := image.declared?.map Binary.ofNat

theorem Encodable.proper_layout (h : image.Encodable) : image.layout.Proper :=
  ⟨h.width_pos, h.height_pos, h.chunkWidth_pos, h.chunkHeight_pos⟩

theorem Encodable.maskValue_layout (h : image.Encodable) : image.layout.maskValue = some image.missing := by
  cases htext : image.noData with
  | none =>
    have hdeclared : image.declared? = none := by rw [declared?, htext, Option.bind_none]
    rw [ImageLayout.maskValue, missing, layout, hdeclared]
    rfl
  | some text =>
    obtain ⟨n, hn, hlt⟩ := h.noData text htext
    have hdeclared : image.declared? = some n := by rw [declared?, htext, Option.bind_some, hn]
    rw [missing, hdeclared, Option.getD_some]
    exact ImageLayout.maskValue_ofNat (by rw [layout, hdeclared, Option.map_some]) hlt

theorem Encodable.isData_eq_false_iff (h : image.Encodable) {samples : Fin image.bands → UInt16} :
    image.layout.isData (Array.ofFn samples) = false ↔ ∀ band, samples band = image.missing := by
  rw [ImageLayout.isData, h.maskValue_layout]
  simp only [ne_eq, decide_not, Array.any_eq_false', Array.mem_ofFn, forall_exists_index, forall_apply_eq_imp_iff,
    Bool.not_eq_true', Bool.not_eq_false, decide_eq_true_eq]

theorem Encodable.ofImage_eq (h : image.Encodable) (hd : d.Has image.fileFields) :
    ImageLayout.ofImage (image.file d).decoded = .ok image.layout := by
  have hwidth : max image.chunkWidth 1 = image.chunkWidth := Nat.max_eq_left h.chunkWidth_pos
  have hheight : max image.chunkHeight 1 = image.chunkHeight := Nat.max_eq_left h.chunkHeight_pos
  obtain ⟨model, hmodel, hbands⟩ := ColorModel.exists_ofPhotometric? image.bands
  have hnoData : (d.text? ImageLayout.noDataTag).bind (fun text =>
      Binary.read? (String.ofList (Text.dropTrailing (· = '\x00') (Text.trim text.toList)))) = image.layout.noData := by
    rw [layout]
    cases htext : image.noData with
    | none =>
      have hnoText : d.text? ImageLayout.noDataTag = none := by
        refine hd.optionalText (by simp) (by simp) fun _ => ne_of_not_mem_tags (not_mem_tags (by decide)
          (mt (fun hmem => (sublist_shapeTags _).subset hmem) (by decide))
          (mt (fun hmem => (sublist_geoTags _).subset hmem) (by decide)) ?_)
        rw [htext]
        exact List.not_mem_nil
      rw [hnoText, declared?, htext]
      rfl
    | some text =>
      obtain ⟨n, hn, -⟩ := h.noData text htext
      have hwrites := writesNatural_of_naturalOfText? hn
      have hmem : EncodedField.text ImageLayout.noDataTag.toNat text ∈ image.fileFields := by
        simp [fileFields, fields, htext]
      rw [hd.text? hmem hwrites.isTagText, Option.bind_some, hwrites.trimmed_eq, hwrites.read?_eq, declared?, htext,
        Option.bind_some, hn, Option.map_some]
  have hcols : (UInt32.ofNat image.width).toNat = image.width := UInt32.toNat_ofNat_of_lt h.width_lt
  have hrows : (UInt32.ofNat image.height).toNat = image.height := UInt32.toNat_ofNat_of_lt h.height_lt
  have hchunkCols : (UInt32.ofNat image.chunkWidth).toNat = image.chunkWidth := UInt32.toNat_ofNat_of_lt h.chunkWidth_lt
  have hchunkRows : (UInt32.ofNat image.chunkHeight).toNat = image.chunkHeight := UInt32.toNat_ofNat_of_lt h.chunkHeight_lt
  have hcolsNe : UInt32.ofNat image.width ≠ 0 := fun hzero =>
    Nat.ne_of_gt h.width_pos (by rw [← hcols, hzero]; rfl)
  have hrowsNe : UInt32.ofNat image.height ≠ 0 := fun hzero =>
    Nat.ne_of_gt h.height_pos (by rw [← hrows, hzero]; rfl)
  have hplanarity : some (1 : UInt16) ≠ some ImageLayout.bandsApart := by decide
  unfold ImageLayout.ofImage
  simp only [ImageFile.decoded, file, hmodel, hbands, hcols, hrows, hchunkCols, hchunkRows, hcolsNe, hrowsNe, hplanarity,
    hwidth, hheight, hnoData, or_self, if_false, Bool.false_eq_true]
  rfl

/-! ### Georeferences -/

theorem ne_of_not_mem_geoTags {tag : Nat} (htag : tag ∈ [33550, 33922, 34264, 34735, 34736, 34737])
    (hgeo : tag ∉ geoTags image.geo) : ∀ field ∈ image.fileFields, field.tag ≠ tag := by
  have hapart : ∀ tag ∈ [33550, 33922, 34264, 34735, 34736, 34737], tag ∉ [256, 257, 258, 259, 262, 277, 284, 339] ∧
      tag ∉ [273, 278, 279, 322, 323, 324, 325] ∧ tag ∉ [42113] := by decide
  obtain ⟨hbase, hshape, hnoData⟩ := hapart tag htag
  exact ne_of_not_mem_tags (not_mem_tags hbase (mt (fun hmem => (sublist_shapeTags _).subset hmem) hshape) hgeo
    (mt (fun hmem => (EncodedField.sublist_toList_tag ..).subset hmem) hnoData))

theorem geoReference?_eq_none (hd : d.Has image.fileFields) (hgeo : image.geo = none) :
    (image.file d).decoded.geoReference? = none := by
  have habsent (tag : Nat) : tag ∉ geoTags image.geo := by
    rw [hgeo]
    exact List.not_mem_nil
  have hscale : (image.file d).decoded.doubles? GeoReference.pixelScaleTag = none :=
    hd.optionalDoubles (by simp) fun _ => ne_of_not_mem_geoTags (by decide) (habsent _)
  have htransformation : (image.file d).decoded.doubles? GeoReference.transformationTag = none :=
    hd.optionalDoubles (by simp) fun _ => ne_of_not_mem_geoTags (by decide) (habsent _)
  rw [DecodedImage.geoReference?, Option.map_eq_none_iff]
  simp only [GeoReference.geoTransform?, hscale, htransformation]
  rfl

theorem Encodable.geoReference?_eq (h : image.Encodable) (hd : d.Has image.fileFields) {tags : GeoTags}
    (hgeo : image.geo = some tags) : (image.file d).decoded.geoReference? = some tags.reference := by
  have hproper := h.geo tags hgeo
  have hfields : ∀ field ∈ geoFields tags, field ∈ image.fileFields := by
    intro field hfield
    simp [fileFields, fields, hgeo, hfield]
  have habsent {tag : Nat} (htag : tag ∉ [33550, 33922, 34735, 34737]) : tag ∉ geoTags image.geo := by
    rw [hgeo]
    exact mt (fun hmem => (sublist_geoTags _).subset hmem) htag
  have hscale : d.doubles? GeoReference.pixelScaleTag = some tags.pixelScale :=
    hd.doubles? (hfields _ (by simp [geoFields]))
  have htiepoint : d.doubles? GeoReference.tiepointsTag = some tags.tiepoint :=
    hd.doubles? (hfields _ (by simp [geoFields]))
  have hkeys : d.shorts? GeoReference.geoKeysTag = some tags.geoKeys :=
    hd.shortList? (hfields _ (by simp [geoFields]))
  have htransformation : d.doubles? GeoReference.transformationTag = none :=
    hd.optionalDoubles (by simp) fun _ => ne_of_not_mem_geoTags (by decide) (habsent (by decide))
  have hdoubles : d.doubles? GeoReference.geoDoublesTag = none :=
    hd.optionalDoubles (by simp) fun _ => ne_of_not_mem_geoTags (by decide) (habsent (by decide))
  have hascii : d.text? GeoReference.geoAsciiTag = tags.geoAscii := by
    refine hd.optionalText (fun text htext => hfields _ ?_) hproper.geoAscii_text fun hnone => ?_
    · simp [geoFields, Option.mem_def.mp htext]
    · exact ne_of_not_mem_geoTags (by decide) (by rw [hgeo, geoTags, hnone]; decide)
  obtain ⟨transform, htransform⟩ := hproper.exists_geoTransform
  have hcarries : (image.file d).decoded.Carries tags.reference :=
    ⟨hscale, htiepoint, htransformation, hkeys, hdoubles, hascii⟩
  rw [hcarries.geoReference?_eq, htransform, Option.map_some]

/-! ### Pixels -/

section

variable (h : image.Encodable) (himage : image.Interleaved) (hbytes : d.bytes = image.encode.toArray)
  (horder : d.order = .little)

include h himage hbytes horder

/-- The chunk of a pixel can be fetched, and it has the samples of the pixel. -/
theorem exists_fetch {row col : Nat} (hrow : row < image.height) (hcol : col < image.width) :
    ∃ chunk, image.layout.fetch (image.file d).decoded.samples (row / image.chunkHeight) (col / image.chunkWidth) = .ok chunk ∧
      ∀ band < image.bands, chunk.sample image.bands row col band = image.sample row col band := by
  have hrowStart : row / image.chunkHeight * image.chunkHeight ≤ row := Nat.div_mul_le_self ..
  have hcolStart : col / image.chunkWidth * image.chunkWidth ≤ col := Nat.div_mul_le_self ..
  have hrowEnd : row < row / image.chunkHeight * image.chunkHeight + image.chunkHeight :=
    Nat.lt_div_mul_add h.chunkHeight_pos
  have hcolEnd : col < col / image.chunkWidth * image.chunkWidth + image.chunkWidth := Nat.lt_div_mul_add h.chunkWidth_pos
  obtain ⟨chunk, hchunk, hread⟩ := samples_eq h himage hbytes horder
    ((lt_ceilDiv_iff h.chunkHeight_pos).mpr (Nat.lt_of_le_of_lt hrowStart hrow))
    ((lt_ceilDiv_iff h.chunkWidth_pos).mpr (Nat.lt_of_le_of_lt hcolStart hcol))
  have hsize := length_visible hchunk
  have hsample (band : Nat) (hband : band < image.bands) := getElem?_visible
    (r := row - row / image.chunkHeight * image.chunkHeight) (c := col - col / image.chunkWidth * image.chunkWidth) hchunk
    (by omega) (by omega) hband
  generalize row / image.chunkHeight = i at *
  generalize col / image.chunkWidth = j at *
  generalize image.visible (i * image.chunkHeight) (j * image.chunkWidth) chunk = samples at *
  refine ⟨⟨image.layout.chunkWindow i j, min image.chunkWidth (image.width - j * image.chunkWidth), samples.toArray⟩, ?_, ?_⟩
  · have hstride : image.layout.stride? (image.layout.chunkWindow i j) samples.toArray.size =
        some (min image.chunkWidth (image.width - j * image.chunkWidth)) := by
      rw [ImageLayout.stride?, List.size_toArray, hsize, if_pos]
      · rfl
      · exact congrArg (· * image.bands) (Nat.mul_comm ..)
    simp only [ImageLayout.fetch, bind_eq_ok_iff]
    refine ⟨samples.toArray, hread, ?_⟩
    rw [hstride]
    rfl
  · intro band hband
    rw [ImageChunk.sample]
    dsimp only [ImageLayout.chunkWindow, layout]
    rw [List.getElem?_toArray, hsample band hband, Option.getD_some, Nat.add_sub_cancel' hrowStart,
      Nat.add_sub_cancel' hcolStart]

end

/-- A window shows the samples of its pixels, if the chunks do. -/
theorem exists_readTile (h : image.Encodable) {decode : ChunkDecoder}
    (hfetch : ∀ row col, row < image.height → col < image.width → ∃ chunk,
      image.layout.fetch decode (row / image.chunkHeight) (col / image.chunkWidth) = .ok chunk ∧
        ∀ band < image.bands, chunk.sample image.bands row col band = image.sample row col band)
    {w : Window} (hw : w.checkWithin image.height image.width = .ok ()) :
    ∃ tile, image.layout.readTile decode w = .ok tile ∧ (tile.window = w ∧ tile.bands = image.bands) ∧
      ∀ row col, row < w.rows → col < w.cols →
        tile.pixel row col =
          (Array.ofFn fun band : Fin image.bands => image.sample (w.rowOffset + row) (w.colOffset + col) band) ∧
        (tile.isValid row col = false ↔
          ∀ band < image.bands, image.sample (w.rowOffset + row) (w.colOffset + col) band = image.missing) := by
  obtain ⟨-, hbottom, hright⟩ := Window.checkWithin_eq_ok_iff.mp hw
  have hcells {row col : Nat} (hcell : (row, col) ∈ w) : row < image.height ∧ col < image.width := by
    have hbounds := Window.mem_iff.mp hcell
    omega
  obtain ⟨tile, htile⟩ := ImageLayout.exists_readTile h.proper_layout hw fun row col hcell => by
    obtain ⟨chunk, hchunk, -⟩ := hfetch row col (hcells hcell).1 (hcells hcell).2
    exact ⟨chunk, hchunk⟩
  obtain ⟨-, hbands, hpixels⟩ := ImageLayout.readTile_eq_ok h.proper_layout htile
  refine ⟨tile, htile, ⟨ImageLayout.window_readTile htile, hbands⟩, ?_⟩
  intro row col hrow hcol
  obtain ⟨hpixel, hvalid⟩ := hpixels row col hrow hcol
  have hcell : (w.rowOffset + row, w.colOffset + col) ∈ w := Window.mem_iff.mpr (by omega)
  obtain ⟨chunk, hchunk, hsample⟩ := hfetch _ _ (hcells hcell).1 (hcells hcell).2
  have hsamples : image.layout.pixelAt decode (w.rowOffset + row) (w.colOffset + col) =
      Array.ofFn fun band : Fin image.bands => image.sample (w.rowOffset + row) (w.colOffset + col) band := by
    unfold ImageLayout.pixelAt
    congr 1
    funext band
    exact (ImageLayout.sampleAt_eq hchunk).trans (hsample band band.isLt)
  rw [hpixel, hvalid, hsamples, h.isData_eq_false_iff]
  exact ⟨rfl, fun hall band hband => hall ⟨band, hband⟩, fun hall band => hall band band.isLt⟩

/-! ### The whole image -/

section

variable (h : image.Encodable) (himage : image.Made) {storage : Storage} {path : String}
  (hentry : storage.entry path = .ok (.file image.encode.toArray))

include h himage hentry

/-- The decoder finds the image that was encoded. -/
theorem exists_decoded : ∃ d : ImageDirectory, (d.bytes = image.encode.toArray ∧ d.Has image.fileFields) ∧
    ImageCodec.uncompressed.load storage path = .ok (image.file d).decoded := by
  obtain ⟨d, hread, hbytes, hd⟩ := h.exists_directory
  refine ⟨d, ⟨hbytes, hd⟩, ImageCodec.load_eq_ok_iff.mpr ⟨_, hentry, ?_⟩⟩
  rw [ImageCodec.open?_uncompressed, (h.recorded himage.interleaved hd).open?_eq hread, Option.map_some]

theorem load_eq : ImageReader.load .uncompressed storage path = .ok ⟨path, image.layout⟩ := by
  obtain ⟨d, ⟨-, hd⟩, hload⟩ := exists_decoded h himage hentry
  exact ImageReader.load_eq_ok_iff.mpr ⟨rfl, _, hload, h.ofImage_eq hd⟩

theorem geoReference_load_eq : GeoReference.load .uncompressed storage path =
    match image.geo with
    | some tags => .ok tags.reference
    | none => .error (.noGeoReference path) := by
  obtain ⟨d, ⟨-, hd⟩, hload⟩ := exists_decoded h himage hentry
  rw [GeoReference.load_eq hload]
  cases hgeo : image.geo with
  | none => rw [geoReference?_eq_none hd hgeo, Option.elim_none]
  | some tags => rw [h.geoReference?_eq hd hgeo, Option.elim_some]

/-- The chunks of all pixels are found in the storage, each with the samples of its pixels. -/
theorem exists_fetch_decoder {row col : Nat} (hrow : row < image.height) (hcol : col < image.width) :
    ∃ chunk, image.layout.fetch (ImageCodec.uncompressed.decoder storage path) (row / image.chunkHeight)
        (col / image.chunkWidth) = .ok chunk ∧
      ∀ band < image.bands, chunk.sample image.bands row col band = image.sample row col band := by
  obtain ⟨d, ⟨hbytes, hd⟩, hload⟩ := exists_decoded h himage hentry
  rw [show ImageCodec.uncompressed.decoder storage path = (image.file d).decoded.samples from
    funext (ImageCodec.decoder_eq hload)]
  exact exists_fetch h himage.interleaved hbytes hd.order_eq hrow hcol

end

/-- What was encoded is read back: the shape and the declared value, the place on the ground, and the samples of
every window, whose pixels are missing when all their samples have the declared value. -/
theorem encode_reads_back (himage : image.Made) (h : image.Encodable) {storage : Storage} {path : String}
    (hentry : storage.entry path = .ok (.file image.encode.toArray)) :
    ∃ reader, ImageReader.load .uncompressed storage path = .ok reader ∧ reader.layout = image.layout ∧
      GeoReference.load .uncompressed storage path = (match image.geo with
        | some tags => .ok tags.reference
        | none => .error (.noGeoReference path)) ∧
      ∀ w : Window, w.checkWithin image.height image.width = .ok () →
        ∃ tile, reader.readTile .uncompressed storage w = .ok tile ∧ (tile.window = w ∧ tile.bands = image.bands) ∧
          ∀ row col, row < w.rows → col < w.cols →
            tile.pixel row col =
              (Array.ofFn fun band : Fin image.bands => image.sample (w.rowOffset + row) (w.colOffset + col) band) ∧
            (tile.isValid row col = false ↔
              ∀ band < image.bands, image.sample (w.rowOffset + row) (w.colOffset + col) band = image.missing) := by
  exact ⟨⟨path, image.layout⟩, load_eq h himage hentry, rfl, geoReference_load_eq h himage hentry,
    fun w hw => exists_readTile h (fun row col => exists_fetch_decoder h himage hentry) hw⟩

/-- Three columns and two rows in tiles of two by two, of which the second reaches beyond the image. -/
def threeByTwo : SceneImage :=
  { (ofPixels 3 2 [[1], [2], [3], [4], [7], [6]]).setSample 1 2 0 9 with shape := .tiles 2 2, noData := some "+7" }

theorem encode_reads_back_threeByTwo :
    ∃ reader tile, ImageReader.load .uncompressed ((Storage.empty []).insert ["scene.tif"] (.file threeByTwo.encode.toArray))
        "scene.tif" = .ok reader ∧ reader.layout.noData = some (Binary.ofNat 7) ∧
      reader.readTile .uncompressed ((Storage.empty []).insert ["scene.tif"] (.file threeByTwo.encode.toArray))
        ⟨1, 1, 1, 2⟩ = .ok tile ∧
      tile.isValid 0 0 = false ∧ tile.pixel 0 1 = #[9] := by
  have hlisted : (ofPixels 3 2 [[1], [2], [3], [4], [7], [6]]).Made := .ofPixels 3 2 _ rfl (by decide)
  have hmade : threeByTwo.Made := ((hlisted.setSample 1 2 0 9).shaped (.tiles 2 2)).declaring (some "+7")
  have hstart : directoryStart threeByTwo.fileChunks threeByTwo.fileFields < UInt32.size := by decide +kernel
  have hencodable : threeByTwo.Encodable :=
    { width_pos := by decide, height_pos := by decide, bands_pos := by decide, chunkWidth_pos := by decide
      chunkHeight_pos := by decide, width_lt := by decide, height_lt := by decide, bands_lt := by decide
      chunkWidth_lt := by decide, chunkHeight_lt := by decide, start_lt := hstart
      noData := by
        intro text htext
        obtain rfl : "+7" = text := Option.some.inj htext
        exact ⟨7, by decide +kernel, by decide⟩
      geo := by
        intro tags hgeo
        obtain rfl : GeoTags.utm10North = tags := Option.some.inj hgeo
        exact GeoTags.proper_utm10North }
  have hdestination : (Storage.empty []).destination "scene.tif" = .ok ["scene.tif"] := by decide +kernel
  have hentry : ((Storage.empty []).insert ["scene.tif"] (.file threeByTwo.encode.toArray)).entry "scene.tif" =
      .ok (.file threeByTwo.encode.toArray) := Storage.entry_insert_destination hdestination
  obtain ⟨reader, hload, hlayout, -, hread⟩ := encode_reads_back hmade hencodable hentry
  obtain ⟨tile, htile, -, hpixels⟩ := hread ⟨1, 1, 1, 2⟩ rfl
  refine ⟨reader, tile, hload, ?_, htile, ?_, ?_⟩
  · have hdeclared : threeByTwo.declared? = some 7 := by decide +kernel
    rw [hlayout, layout, hdeclared, Option.map_some]
  · exact (hpixels 0 0 (by decide) (by decide)).2.mpr (by decide +kernel)
  · rw [(hpixels 0 1 (by decide) (by decide)).1]
    decide +kernel

end SceneImage

end SurfaceWater
