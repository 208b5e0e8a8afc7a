import SurfaceWater.Image.Reader
import SurfaceWater.Proofs.Image.Declared
import SurfaceWater.Proofs.Image.Fields
import SurfaceWater.Proofs.Image.Opening
import SurfaceWater.Proofs.Image.Reading
import SurfaceWater.Proofs.Image.SceneSamples

/-!
# Made-up scenes as images

A scene that was encoded is an image with the same samples, kept in the chunks that its shape asks for. Its
directory has the fields that went in and no others, each chunk is found at its offset, and a reader sees
the rows of a chunk as far as they are inside the image.
-/

namespace SurfaceWater

open ImageEncoding

namespace GeoTags

/-- The tags place an image, and its text can be written. -/
structure Proper (tags : GeoTags) : Prop where
  pixelScale_le : 2 ≤ tags.pixelScale.length
  tiepoint_le : 6 ≤ tags.tiepoint.length
  geoKeys_ne : tags.geoKeys ≠ []
  geoAscii_text : ∀ text ∈ tags.geoAscii, isTagText text = true

def reference (tags : GeoTags) : GeoReference where
  pixelScale := some tags.pixelScale
  tiepoints := some tags.tiepoint
  transformation := none
  geoKeys := some tags.geoKeys
  geoDoubles := none
  geoAscii := tags.geoAscii

theorem Proper.exists_geoTransform {tags : GeoTags} (htags : tags.Proper) :
    ∃ transform, tags.reference.geoTransform? = some transform := by
  have hscale := htags.pixelScale_le
  have htiepoint := htags.tiepoint_le
  obtain ⟨scale, tiepoint, geoKeys, geoAscii⟩ := tags
  match scale, tiepoint, hscale, htiepoint with
  | width :: height :: _, i :: j :: k :: x :: y :: z :: _, _, _ => exact ⟨_, rfl⟩

theorem proper_utm10North : utm10North.Proper :=
  ⟨by decide, by decide, by decide, by decide +kernel⟩

end GeoTags

namespace SceneImage

variable {image : SceneImage}

/-! ### Fields -/

def chunkBytes (chunk : List UInt16) : List UInt8 := chunk.flatMap fun sample => ByteOrder.littleBytes 2 sample.toNat

def fileChunks (image : SceneImage) : List (List UInt8) := image.storedChunks.map chunkBytes

def fileFields (image : SceneImage) : List EncodedField :=
  image.fields (chunkOffsets headerSize image.fileChunks) (image.fileChunks.map List.length)

theorem encode_eq (image : SceneImage) : image.encode = ImageEncoding.encode image.fileChunks image.fileFields := rfl

/-- The image has pixels, and its sizes and offsets fit their fields. -/
structure Encodable (image : SceneImage) : Prop where
  width_pos : 0 < image.width
  height_pos : 0 < image.height
  bands_pos : 0 < image.bands
  chunkWidth_pos : 0 < image.chunkWidth
  chunkHeight_pos : 0 < image.chunkHeight
  width_lt : image.width < UInt32.size
  height_lt : image.height < UInt32.size
  bands_lt : image.bands < UInt16.size
  chunkWidth_lt : image.chunkWidth < UInt32.size
  chunkHeight_lt : image.chunkHeight < UInt32.size
  start_lt : directoryStart image.fileChunks image.fileFields < UInt32.size
  noData : ∀ text ∈ image.noData, ∃ n, naturalOfText? text = some n ∧ n < UInt16.size
  geo : ∀ tags ∈ image.geo, tags.Proper

def shapeTags : ChunkShape → List Nat
  | .strips _ => [273, 278, 279]
  | .tiles .. => [322, 323, 324, 325]

def geoTags : Option GeoTags → List Nat
  | none => []
  | some tags => [33550, 33922, 34735] ++ (tags.geoAscii.map fun _ => 34737).toList

/-- The tags of the fields of an image. -/
def tags (image : SceneImage) : List Nat :=
  [256, 257, 258, 259, 262, 277, 284, 339] ++ shapeTags image.shape ++ geoTags image.geo ++
    (image.noData.map fun _ => 42113).toList

theorem map_tag_geoFields (geo : GeoTags) : (geoFields geo).map EncodedField.tag = geoTags (some geo) := by
  rw [geoFields, List.map_append]
  exact congrArg ([33550, 33922, 34735] ++ ·) (EncodedField.map_tag_toList _ fun _ => rfl)

theorem map_tag_fileFields (image : SceneImage) : image.fileFields.map EncodedField.tag = image.tags := by
  have hshape : (image.shapeFields (chunkOffsets headerSize image.fileChunks)
      (image.fileChunks.map List.length)).map EncodedField.tag = shapeTags image.shape := by
    rw [shapeFields]
    cases image.shape <;> rfl
  have hgeo : ((image.geo.map geoFields).getD []).map EncodedField.tag = geoTags image.geo := by
    cases image.geo with
    | none => rfl
    | some geo => exact map_tag_geoFields geo
  have hnoData : (image.noData.map (EncodedField.text ImageLayout.noDataTag.toNat)).toList.map EncodedField.tag =
      (image.noData.map fun _ => 42113).toList := EncodedField.map_tag_toList _ fun _ => rfl
  rw [fileFields, fields, tags, List.map_append, List.map_append, List.map_append, hshape, hgeo, hnoData]
  rfl

theorem sublist_shapeTags (shape : ChunkShape) : (shapeTags shape).Sublist [273, 278, 279, 322, 323, 324, 325] := by
  cases shape with
  | strips rows => show [273, 278, 279].Sublist _; decide
  | tiles width height => show [322, 323, 324, 325].Sublist _; decide

theorem sublist_geoTags (geo : Option GeoTags) : (geoTags geo).Sublist [33550, 33922, 34735, 34737] := by
  cases geo with
  | none => exact List.nil_sublist _
  | some geo => exact .append (.refl [33550, 33922, 34735]) (EncodedField.sublist_toList_tag ..)

theorem sublist_tags (image : SceneImage) : image.tags.Sublist ([256, 257, 258, 259, 262, 277, 284, 339] ++
    [273, 278, 279, 322, 323, 324, 325] ++ [33550, 33922, 34735, 34737] ++ [42113]) :=
  .append (.append (.append (.refl _) (sublist_shapeTags _)) (sublist_geoTags _)) (EncodedField.sublist_toList_tag ..)

/-- The tag of a field that the image has no value for is missing. -/
theorem not_mem_tags {tag : Nat} (hbase : tag ∉ [256, 257, 258, 259, 262, 277, 284, 339])
    (hshape : tag ∉ shapeTags image.shape) (hgeo : tag ∉ geoTags image.geo)
    (hnoData : tag ∉ (image.noData.map fun _ => 42113).toList) : tag ∉ image.tags := by
  simp only [tags, List.mem_append, not_or]
  exact ⟨⟨⟨hbase, hshape⟩, hgeo⟩, hnoData⟩

theorem wellFormed_fileFields {field : EncodedField} (h : field ∈ image.fileFields) : field.WellFormed := by
  simp only [fileFields, fields, List.mem_append] at h
  rcases h with ((h | h) | h) | h
  · simp only [List.mem_cons, List.not_mem_nil, or_false] at h
    rcases h with rfl | rfl | rfl | rfl | rfl | rfl | rfl | rfl
    all_goals first
      | exact EncodedField.wellFormed_longs (by decide) _
      | exact EncodedField.wellFormed_shorts (by decide) _
  · rw [shapeFields] at h
    split at h
    all_goals
      simp only [List.mem_cons, List.not_mem_nil, or_false] at h
      rcases h with rfl | h
      · exact EncodedField.wellFormed_longs (by decide) _
      rcases h with rfl | h
      · exact EncodedField.wellFormed_longs (by decide) _
    · obtain rfl := h
      exact EncodedField.wellFormed_longs (by decide) _
    · rcases h with rfl | rfl <;> exact EncodedField.wellFormed_longs (by decide) _
  · obtain ⟨geo, -, h⟩ : ∃ geo, image.geo = some geo ∧ field ∈ geoFields geo := by
      cases hgeo : image.geo with
      | none =>
        rw [hgeo] at h
        exact absurd h List.not_mem_nil
      | some geo =>
        rw [hgeo] at h
        exact ⟨geo, rfl, h⟩
    simp only [geoFields, List.mem_append, List.mem_cons, List.not_mem_nil, or_false] at h
    rcases h with (rfl | rfl | rfl) | h
    · exact EncodedField.wellFormed_doubles (by decide) _
    · exact EncodedField.wellFormed_doubles (by decide) _
    · exact EncodedField.wellFormed_shorts (by decide) _
    · exact EncodedField.wellFormed_of_mem_toList (EncodedField.wellFormed_text (by decide)) h
  · exact EncodedField.wellFormed_of_mem_toList (EncodedField.wellFormed_text (by decide)) h

theorem Encodable.exists_directory (h : image.Encodable) : ∃ d, ImageDirectory.read? image.encode.toArray = some d ∧
    d.bytes = image.encode.toArray ∧ d.Has image.fileFields := by
  have hcount : image.fileFields.length < UInt16.size := by
    have hle := image.sublist_tags.length_le
    rw [← map_tag_fileFields, List.length_map] at hle
    exact Nat.lt_of_le_of_lt hle (by decide)
  have hnodup : (image.fileFields.map EncodedField.tag).Nodup := by
    rw [map_tag_fileFields]
    exact image.sublist_tags.nodup (by decide)
  exact has_encode h.start_lt hcount (fun field => wellFormed_fileFields) hnodup

theorem not_mem_tags_of_shape {tag : Nat} (hshape : tag ∉ shapeTags image.shape)
    (hrest : tag ∉ [256, 257, 258, 259, 262, 277, 284, 339] ++ [33550, 33922, 34735, 34737] ++ [42113]) :
    tag ∉ image.tags := by
  simp only [List.mem_append, not_or] at hrest
  exact not_mem_tags hrest.1.1 hshape (mt (fun hmem => (sublist_geoTags _).subset hmem) hrest.1.2)
    (mt (fun hmem => (EncodedField.sublist_toList_tag ..).subset hmem) hrest.2)

theorem ne_of_not_mem_tags {tag : Nat} (htag : tag ∉ image.tags) : ∀ field ∈ image.fileFields, field.tag ≠ tag := by
  intro field hfield heq
  rw [← map_tag_fileFields] at htag
  exact htag (heq ▸ List.mem_map_of_mem hfield)

/-! ### Opening -/

def file (image : SceneImage) (d : ImageDirectory) : ImageFile where
  directory := d
  width := image.width
  height := image.height
  photometric := 1
  compression := 1
  samples := image.bands
  bits := 16
  sampleFormat := 1
  planar := false
  chunkWidth := image.chunkWidth
  chunkHeight := image.chunkHeight
  offsets := (chunkOffsets headerSize image.fileChunks).toArray

section

variable (h : image.Encodable) (himage : image.Interleaved)

include h himage

omit himage in
theorem Encodable.offsets_lt : ∀ offset ∈ chunkOffsets headerSize image.fileChunks, offset < UInt32.size :=
  fun _ hoffset => Nat.lt_of_le_of_lt (offset_le_directoryStart hoffset) h.start_lt

omit himage in
theorem Encodable.sizes_lt : ∀ size ∈ image.fileChunks.map List.length, size < UInt32.size :=
  fun _ hsize => Nat.lt_of_le_of_lt (size_le_directoryStart hsize) h.start_lt

omit himage in
/-- There are fewer chunks than numbers of 32 bits. -/
theorem Encodable.length_fileChunks_lt : image.fileChunks.length < UInt32.size := by
  have hcount (tag : Nat)
      (hmem : EncodedField.longs tag (chunkOffsets headerSize image.fileChunks) ∈ image.fileFields) :
      image.fileChunks.length < UInt32.size := by
    have hfits := (fits_of_mem h.start_lt (fun _ => wellFormed_fileFields) hmem).count_lt
    rwa [EncodedField.longs, length_chunkOffsets] at hfits
  cases hshape : image.shape with
  | strips rows => exact hcount ImageFile.stripOffsetsTag (by simp [fileFields, fields, shapeFields, hshape])
  | tiles width height => exact hcount ImageFile.tileOffsetsTag (by simp [fileFields, fields, shapeFields, hshape])

theorem length_fileChunks : image.fileChunks.length =
    ceilDiv image.height image.chunkHeight * ceilDiv image.width image.chunkWidth := by
  rw [fileChunks, List.length_map, length_storedChunks himage h.width_pos h.bands_pos h.chunkHeight_pos]

variable {d : ImageDirectory} (hd : d.Has image.fileFields)

include hd

theorem chunks?_strips {rows : Nat} (hshape : image.shape = .strips rows) :
    ImageFile.chunks? d image.width image.height 1 =
      some (image.chunkWidth, image.chunkHeight, chunkOffsets headerSize image.fileChunks) := by
  have hwidth : image.chunkWidth = image.width := by rw [chunkWidth, hshape]
  have hheight : image.chunkHeight = rows := by rw [chunkHeight, hshape]
  have hlength := length_fileChunks h himage
  rw [hwidth, ceilDiv_eq_one h.width_pos (Nat.le_refl _), Nat.mul_one] at hlength
  have hoffsets : d.numbers? ImageFile.stripOffsetsTag = some (some (chunkOffsets headerSize image.fileChunks)) :=
    hd.longs? (by simp [fileFields, fields, shapeFields, hshape]) h.offsets_lt
  have hsizes : d.numbers? ImageFile.stripSizesTag = some (some (image.fileChunks.map List.length)) :=
    hd.longs? (by simp [fileFields, fields, shapeFields, hshape]) h.sizes_lt
  have hrows : d.long? ImageFile.rowsPerStripTag = some (some image.chunkHeight) :=
    hd.long? (by simp [fileFields, fields, shapeFields, hshape, hheight]) h.chunkHeight_lt
  have htileOffsets : d.field? ImageFile.tileOffsetsTag = none :=
    hd.absent _ (ne_of_not_mem_tags <| not_mem_tags_of_shape (by rw [hshape]; simp [shapeTags, ImageFile.tileOffsetsTag]) (by decide))
  have htileSizes : d.field? ImageFile.tileSizesTag = none :=
    hd.absent _ (ne_of_not_mem_tags <| not_mem_tags_of_shape (by rw [hshape]; simp [shapeTags, ImageFile.tileSizesTag]) (by decide))
  rw [hwidth]
  exact ImageFile.chunks?_of_strips hoffsets hsizes hrows htileOffsets htileSizes h.chunkHeight_pos
    ((length_chunkOffsets ..).trans hlength) ((List.length_map _).trans hlength)

theorem chunks?_tiles {width height : Nat} (hshape : image.shape = .tiles width height) :
    ImageFile.chunks? d image.width image.height 1 =
      some (image.chunkWidth, image.chunkHeight, chunkOffsets headerSize image.fileChunks) := by
  have hwidth : image.chunkWidth = width := by rw [chunkWidth, hshape]
  have hheight : image.chunkHeight = height := by rw [chunkHeight, hshape]
  have hlength := length_fileChunks h himage
  rw [Nat.mul_comm] at hlength
  have hoffsets : d.numbers? ImageFile.tileOffsetsTag = some (some (chunkOffsets headerSize image.fileChunks)) :=
    hd.longs? (by simp [fileFields, fields, shapeFields, hshape]) h.offsets_lt
  have hsizes : d.numbers? ImageFile.tileSizesTag = some (some (image.fileChunks.map List.length)) :=
    hd.longs? (by simp [fileFields, fields, shapeFields, hshape]) h.sizes_lt
  have htileWidth : d.long? ImageFile.tileWidthTag = some (some image.chunkWidth) :=
    hd.long? (by simp [fileFields, fields, shapeFields, hshape, hwidth]) h.chunkWidth_lt
  have htileHeight : d.long? ImageFile.tileHeightTag = some (some image.chunkHeight) :=
    hd.long? (by simp [fileFields, fields, shapeFields, hshape, hheight]) h.chunkHeight_lt
  have hstripOffsets : d.field? ImageFile.stripOffsetsTag = none :=
    hd.absent _ (ne_of_not_mem_tags <| not_mem_tags_of_shape (by rw [hshape]; simp [shapeTags, ImageFile.stripOffsetsTag]) (by decide))
  have hstripSizes : d.field? ImageFile.stripSizesTag = none :=
    hd.absent _ (ne_of_not_mem_tags <| not_mem_tags_of_shape (by rw [hshape]; simp [shapeTags, ImageFile.stripSizesTag]) (by decide))
  exact ImageFile.chunks?_of_tiles hoffsets hsizes htileWidth htileHeight hstripOffsets hstripSizes h.chunkWidth_pos
    h.chunkHeight_pos ((length_chunkOffsets ..).trans hlength) ((List.length_map _).trans hlength)

theorem Encodable.recorded : (image.file d).Recorded where
  width_eq := hd.long? (by simp [fileFields, fields, file]) h.width_lt
  height_eq := hd.long? (by simp [fileFields, fields, file]) h.height_lt
  photometric_eq := hd.short? (by simp [fileFields, fields, file]) (by decide : 1 < UInt16.size)
  compression_eq := hd.short? (by simp [fileFields, fields, file]) (by decide : 1 < UInt16.size)
  samples_eq := hd.short? (by simp [fileFields, fields, file]) h.bands_lt
  sampleFormat_eq := hd.shorts? (by simp [fileFields, fields, file]) fun n hn =>
    Nat.lt_of_le_of_lt (Nat.le_of_eq (List.eq_of_mem_replicate hn)) (by decide : 1 < UInt16.size)
  bits_eq := hd.shorts? (by simp [fileFields, fields, file]) fun n hn =>
    Nat.lt_of_le_of_lt (Nat.le_of_eq (List.eq_of_mem_replicate hn)) (by decide : 16 < UInt16.size)
  planar_eq := ⟨some 1, hd.short? (by simp [fileFields, fields, himage.bandPlanes_eq]) (by decide), rfl, rfl⟩
  chunks_eq := by
    refine ⟨_, ?_, rfl⟩
    cases hshape : image.shape with
    | strips rows => exact chunks?_strips h himage hd hshape
    | tiles width height => exact chunks?_tiles h himage hd hshape
  width_pos := h.width_pos
  height_pos := h.height_pos
  samples_pos := h.bands_pos
  photometric_mem := (by decide : 1 ∈ ImageFile.photometrics)
  sampleFormat_lt := (by decide : 1 < UInt16.size)
  bits_pos := (by decide : 0 < 16)
  bits_lt := (by decide : 16 < 256)

end

end SceneImage

end SurfaceWater
