import SurfaceWater.Proofs.Image.Fields
import SurfaceWater.Proofs.Image.Opening
import SurfaceWater.Proofs.Image.StripImage

/-!
# Strips that are not compressed

The codec for images that are not compressed returns strips: the file of a session is an image of one band whose
chunks are the strips that went in, in order from the top, with the tags beside them. It takes a session if the
offset of its directory has 32 bits, since the directory follows everything that the file has an offset of.
-/

namespace SurfaceWater

namespace UncompressedImage

open ImageEncoding

variable {rows cols stripRows : Nat} {g : GeoReference} {noData : UInt8} {strips : List (List UInt8)}

/-! ### Fields -/

/-- The fields that the tags of a raster become. -/
def tagFields (g : GeoReference) (noData : UInt8) : List EncodedField :=
  (g.pixelScale.map (.doubles GeoReference.pixelScaleTag.toNat)).toList ++
    (g.tiepoints.map (.doubles GeoReference.tiepointsTag.toNat)).toList ++
    (g.transformation.map (.doubles GeoReference.transformationTag.toNat)).toList ++
    (g.geoDoubles.map (.doubles GeoReference.geoDoublesTag.toNat)).toList ++
    (g.geoKeys.map fun keys => .shorts GeoReference.geoKeysTag.toNat (keys.map UInt16.toNat)).toList ++
    (g.geoAscii.map (.text GeoReference.geoAsciiTag.toNat)).toList ++
    [.text ImageLayout.noDataTag.toNat (toString noData.toNat)]

theorem filterMap_toList {α β : Type} (value : Option α) {make : α → EncoderCall × ImageFault} {f : EncoderCall → Option β}
    {field : α → β} (h : ∀ a, f (make a).1 = some (field a)) :
    ((value.map make).toList.map Prod.fst).filterMap f = (value.map field).toList := by
  cases value with
  | none => rfl
  | some a => exact List.filterMap_cons_some (h a)

theorem filterMap_field?_tags (g : GeoReference) (noData : UInt8) :
    ((LabelFile.tags g noData).map Prod.fst).filterMap EncoderCall.field? = tagFields g noData := by
  simp only [LabelFile.tags, tagFields, List.map_append, List.filterMap_append]
  congr 1
  congr 1
  · congr 1
    · congr 1
      · congr 1
        · congr 1
          · exact filterMap_toList _ fun _ => rfl
          · exact filterMap_toList _ fun _ => rfl
        · exact filterMap_toList _ fun _ => rfl
      · exact filterMap_toList _ fun _ => rfl
    · exact filterMap_toList _ fun _ => rfl
  · exact filterMap_toList _ fun _ => rfl

/-- A tag is a list or a text. -/
theorem isTag_of_mem {call : EncoderCall} (h : call ∈ (LabelFile.tags g noData).map Prod.fst) :
    (∃ tag values, call = .doubles tag values) ∨ (∃ tag values, call = .shorts tag values) ∨
      ∃ tag value, call = .text tag value ∧ (value ∈ g.geoAscii ∨ value = toString noData.toNat) := by
  simp only [LabelFile.tags, List.map_append, List.mem_append, List.mem_map, Option.mem_toList,
    Option.map_eq_some_iff] at h
  rcases h with (((((h | h) | h) | h) | h) | h) | h
  · obtain ⟨_, ⟨values, -, rfl⟩, rfl⟩ := h
    exact .inl ⟨_, values, rfl⟩
  · obtain ⟨_, ⟨values, -, rfl⟩, rfl⟩ := h
    exact .inl ⟨_, values, rfl⟩
  · obtain ⟨_, ⟨values, -, rfl⟩, rfl⟩ := h
    exact .inl ⟨_, values, rfl⟩
  · obtain ⟨_, ⟨values, -, rfl⟩, rfl⟩ := h
    exact .inl ⟨_, values, rfl⟩
  · obtain ⟨_, ⟨values, -, rfl⟩, rfl⟩ := h
    exact .inr (.inl ⟨_, values, rfl⟩)
  · obtain ⟨_, ⟨text, htext, rfl⟩, rfl⟩ := h
    exact .inr (.inr ⟨_, text, rfl, .inl htext⟩)
  · obtain ⟨_, hmem, rfl⟩ := h
    obtain rfl := List.mem_singleton.mp hmem
    exact .inr (.inr ⟨_, _, rfl, .inr rfl⟩)

/-- What an encoder was told before the end of a session. -/
def told (rows cols stripRows : Nat) (g : GeoReference) (noData : UInt8) (strips : List (List UInt8)) :
    List EncoderCall :=
  LabelFile.headerCalls rows cols stripRows g noData ++ strips.map .strip

theorem session_eq (rows cols stripRows : Nat) (g : GeoReference) (noData : UInt8) (strips : List (List UInt8)) :
    LabelFile.session rows cols stripRows g noData strips = told rows cols stripRows g noData strips ++ [.finish] := rfl

@[simp]
theorem stripsOf_append (calls others : List EncoderCall) : stripsOf (calls ++ others) = stripsOf calls ++ stripsOf others :=
  List.filterMap_append

@[simp]
theorem stripsOf_map_strip (strips : List (List UInt8)) : stripsOf (strips.map .strip) = strips := by
  rw [stripsOf, List.filterMap_map]
  exact List.filterMap_some

theorem stripsOf_headerCalls (rows cols stripRows : Nat) (g : GeoReference) (noData : UInt8) :
    stripsOf (LabelFile.headerCalls rows cols stripRows g noData) = [] := by
  have htags : stripsOf ((LabelFile.tags g noData).map Prod.fst) = [] := by
    refine List.filterMap_eq_nil_iff.mpr fun call hcall => ?_
    rcases isTag_of_mem hcall with ⟨_, _, rfl⟩ | ⟨_, _, rfl⟩ | ⟨_, _, rfl, -⟩ <;> rfl
  rw [LabelFile.headerCalls, stripsOf_append, htags]
  rfl

theorem stripsOf_told : stripsOf (told rows cols stripRows g noData strips) = strips := by
  rw [told, stripsOf_append, stripsOf_headerCalls, stripsOf_map_strip, List.nil_append]

theorem fieldsOf_told (h : LabelFile.Sizes rows cols stripRows) :
    fieldsOf (told rows cols stripRows g noData strips) = fields cols rows stripRows (tagFields g noData) strips := by
  have hsize : (told rows cols stripRows g noData strips).findSome? EncoderCall.size? =
      some ((UInt32.ofNat cols).toNat, (UInt32.ofNat rows).toNat) := rfl
  have hstripRows : (told rows cols stripRows g noData strips).findSome? EncoderCall.stripRows? =
      some (UInt32.ofNat stripRows).toNat := rfl
  have hstrips : (strips.map EncoderCall.strip).filterMap EncoderCall.field? = [] := by
    rw [List.filterMap_map]
    exact List.filterMap_eq_nil_iff.mpr fun _ _ => rfl
  have hfields : (told rows cols stripRows g noData strips).filterMap EncoderCall.field? = tagFields g noData := by
    rw [told, LabelFile.headerCalls, List.filterMap_append, List.filterMap_append, filterMap_field?_tags, hstrips,
      List.append_nil]
    rfl
  have hcols : (UInt32.ofNat cols).toNat = cols := UInt32.toNat_ofNat_of_lt h.cols_lt
  have hrows : (UInt32.ofNat rows).toNat = rows := UInt32.toNat_ofNat_of_lt h.rows_lt
  have hheight : (UInt32.ofNat stripRows).toNat = stripRows := UInt32.toNat_ofNat_of_lt h.stripRows_lt
  rw [fieldsOf, hsize, hstripRows, hfields, stripsOf_told, hcols, hrows, hheight]
  rfl

theorem written_session (h : LabelFile.Sizes rows cols stripRows) :
    ImageCodec.uncompressed.written (LabelFile.session rows cols stripRows g noData strips) =
      (encode strips (fields cols rows stripRows (tagFields g noData) strips)).toArray := by
  have hend : (LabelFile.session rows cols stripRows g noData strips).getLast? = some .finish := by
    rw [session_eq, List.getLast?_concat]
  have hstrips : stripsOf (LabelFile.session rows cols stripRows g noData strips) = strips := by
    rw [session_eq, stripsOf_append, stripsOf_told]
    exact List.append_nil _
  have hfields : fieldsOf (LabelFile.session rows cols stripRows g noData strips) =
      fields cols rows stripRows (tagFields g noData) strips := by
    rw [← fieldsOf_told h, session_eq]
    have hsize : [EncoderCall.finish].findSome? EncoderCall.size? = none := rfl
    have hstripRows : [EncoderCall.finish].findSome? EncoderCall.stripRows? = none := rfl
    have hfield : [EncoderCall.finish].filterMap EncoderCall.field? = [] := rfl
    have hstrip : stripsOf [EncoderCall.finish] = [] := rfl
    simp only [fieldsOf, stripsOf_append, List.filterMap_append, List.findSome?_append, hsize, hstripRows, hfield, hstrip,
      Option.or_none, List.append_nil]
  show written _ = _
  rw [written, if_pos hend, hstrips, hfields]

/-! ### Directories -/

def baseTags : List Nat := [256, 257, 258, 259, 262, 273, 277, 278, 279, 339]

def geoTags (g : GeoReference) : List Nat :=
  (g.pixelScale.map fun _ => 33550).toList ++ (g.tiepoints.map fun _ => 33922).toList ++
    (g.transformation.map fun _ => 34264).toList ++ (g.geoDoubles.map fun _ => 34736).toList ++
    (g.geoKeys.map fun _ => 34735).toList ++ (g.geoAscii.map fun _ => 34737).toList ++ [42113]

def allTags : List Nat := baseTags ++ [33550, 33922, 34264, 34736, 34735, 34737, 42113]

theorem map_tag_tagFields (g : GeoReference) (noData : UInt8) :
    (tagFields g noData).map EncodedField.tag = geoTags g := by
  simp only [tagFields, geoTags, List.map_append]
  congr 1
  congr 1
  · congr 1
    · congr 1
      · congr 1
        · congr 1
          · exact EncodedField.map_tag_toList _ fun _ => rfl
          · exact EncodedField.map_tag_toList _ fun _ => rfl
        · exact EncodedField.map_tag_toList _ fun _ => rfl
      · exact EncodedField.map_tag_toList _ fun _ => rfl
    · exact EncodedField.map_tag_toList _ fun _ => rfl
  · exact EncodedField.map_tag_toList _ fun _ => rfl

theorem map_tag_fields (rows cols stripRows : Nat) (g : GeoReference) (noData : UInt8) (strips : List (List UInt8)) :
    (fields cols rows stripRows (tagFields g noData) strips).map EncodedField.tag = baseTags ++ geoTags g := by
  rw [fields, List.map_append, map_tag_tagFields]
  rfl

theorem sublist_tags (g : GeoReference) : (baseTags ++ geoTags g).Sublist allTags := by
  refine .append (.refl _) ?_
  have hgeo : (geoTags g).Sublist ([33550] ++ [33922] ++ [34264] ++ [34736] ++ [34735] ++ [34737] ++ [42113]) := by
    refine .append (.append (.append (.append (.append (.append ?_ ?_) ?_) ?_) ?_) ?_) (.refl _)
    all_goals exact EncodedField.sublist_toList_tag ..
  exact hgeo

theorem wellFormed_tagFields {field : EncodedField} (h : field ∈ tagFields g noData) : field.WellFormed := by
  simp only [tagFields, List.mem_append] at h
  rcases h with (((((h | h) | h) | h) | h) | h) | h
  · exact EncodedField.wellFormed_of_mem_toList (EncodedField.wellFormed_doubles (by decide)) h
  · exact EncodedField.wellFormed_of_mem_toList (EncodedField.wellFormed_doubles (by decide)) h
  · exact EncodedField.wellFormed_of_mem_toList (EncodedField.wellFormed_doubles (by decide)) h
  · exact EncodedField.wellFormed_of_mem_toList (EncodedField.wellFormed_doubles (by decide)) h
  · exact EncodedField.wellFormed_of_mem_toList (fun keys => EncodedField.wellFormed_shorts (by decide) _) h
  · exact EncodedField.wellFormed_of_mem_toList (EncodedField.wellFormed_text (by decide)) h
  · obtain rfl := List.mem_singleton.mp h
    exact EncodedField.wellFormed_text (by decide) _

theorem wellFormed_fields {field : EncodedField} (h : field ∈ fields cols rows stripRows (tagFields g noData) strips) :
    field.WellFormed := by
  rw [fields, List.mem_append] at h
  rcases h with h | h
  · simp only [List.mem_cons, List.not_mem_nil, or_false] at h
    rcases h with rfl | rfl | rfl | rfl | rfl | rfl | rfl | rfl | rfl | rfl
    all_goals first
      | exact EncodedField.wellFormed_longs (by decide) _
      | exact EncodedField.wellFormed_shorts (by decide) _
  · exact wellFormed_tagFields h

/-- The bytes of a file have a directory with its fields. -/
theorem has_fields (hstart : directoryStart strips (fields cols rows stripRows (tagFields g noData) strips) < UInt32.size) :
    ∃ d, ImageDirectory.read? (encode strips (fields cols rows stripRows (tagFields g noData) strips)).toArray = some d ∧
      d.bytes = (encode strips (fields cols rows stripRows (tagFields g noData) strips)).toArray ∧
      d.Has (fields cols rows stripRows (tagFields g noData) strips) := by
  have hcount : (fields cols rows stripRows (tagFields g noData) strips).length < UInt16.size := by
    have hle := (sublist_tags g).length_le
    rw [← map_tag_fields rows cols stripRows g noData strips, List.length_map] at hle
    exact Nat.lt_of_le_of_lt hle (by decide)
  have hnodup : ((fields cols rows stripRows (tagFields g noData) strips).map EncodedField.tag).Nodup := by
    rw [map_tag_fields]
    exact (sublist_tags g).nodup (by decide)
  exact has_encode hstart hcount (fun field => wellFormed_fields) hnodup

theorem ne_of_not_mem_tags {tag : Nat} (htag : tag ∉ baseTags ++ geoTags g) :
    ∀ field ∈ fields cols rows stripRows (tagFields g noData) strips, field.tag ≠ tag := by
  intro field hfield heq
  rw [← map_tag_fields rows cols stripRows g noData strips, ← heq] at htag
  exact htag (List.mem_map_of_mem hfield)

theorem field?_eq_none {d : ImageDirectory} (hd : d.Has (fields cols rows stripRows (tagFields g noData) strips)) {tag : Nat}
    (htag : tag ∉ allTags) : d.field? tag = none :=
  hd.absent tag (ne_of_not_mem_tags (mt (fun hmem => (sublist_tags g).subset hmem) htag))

/-! ### Images -/

/-- The strips cover the rows, and the directory of the file has an offset. -/
structure Fits (rows cols stripRows : Nat) (g : GeoReference) (noData : UInt8) (strips : List (List UInt8)) : Prop
    extends LabelFile.Sizes rows cols stripRows where
  sizes_eq : strips.map List.length = LabelFile.stripSizes rows cols stripRows
  start_lt : directoryStart strips (fields cols rows stripRows (tagFields g noData) strips) < UInt32.size

/-- The image of a file. -/
def image (d : ImageDirectory) (rows cols stripRows : Nat) (strips : List (List UInt8)) : ImageFile where
  directory := d
  width := cols
  height := rows
  photometric := 1
  compression := 1
  samples := 1
  bits := 8
  sampleFormat := 1
  planar := false
  chunkWidth := cols
  chunkHeight := stripRows
  offsets := (chunkOffsets headerSize strips).toArray

namespace Fits

variable (h : Fits rows cols stripRows g noData strips) {d : ImageDirectory}
  (hd : d.Has (fields cols rows stripRows (tagFields g noData) strips))

include h

theorem strips_length : strips.length = ceilDiv rows stripRows := by
  have hlength := congrArg List.length h.sizes_eq
  rwa [LabelFile.stripSizes, LabelFile.strips_eq h.stripRows_pos, List.length_map, List.length_map, List.length_map,
    List.length_range] at hlength

section

include hd

theorem chunks? : ImageFile.chunks? d cols rows 1 = some (cols, stripRows, chunkOffsets headerSize strips) := by
  have hoffsets : d.numbers? ImageFile.stripOffsetsTag = some (some (chunkOffsets headerSize strips)) :=
    hd.longs? (by simp [fields]) fun offset hoffset => Nat.lt_of_le_of_lt (offset_le_directoryStart hoffset) h.start_lt
  have hsizes : d.numbers? ImageFile.stripSizesTag = some (some (strips.map List.length)) :=
    hd.longs? (by simp [fields]) fun size hsize => Nat.lt_of_le_of_lt (size_le_directoryStart hsize) h.start_lt
  have hrows : d.long? ImageFile.rowsPerStripTag = some (some stripRows) := hd.long? (by simp [fields]) h.stripRows_lt
  exact ImageFile.chunks?_of_strips hoffsets hsizes hrows (field?_eq_none hd (by decide)) (field?_eq_none hd (by decide))
    h.stripRows_pos ((length_chunkOffsets ..).trans h.strips_length) ((List.length_map _).trans h.strips_length)

theorem recorded : (image d rows cols stripRows strips).Recorded where
  width_eq := hd.long? (by simp [fields, image]) h.cols_lt
  height_eq := hd.long? (by simp [fields, image]) h.rows_lt
  photometric_eq := hd.short? (by simp [fields, image]) (by decide : 1 < UInt16.size)
  compression_eq := hd.short? (by simp [fields, image]) (by decide : 1 < UInt16.size)
  samples_eq := hd.short? (by simp [fields, image]) (by decide : 1 < UInt16.size)
  sampleFormat_eq := hd.shorts? (by simp [fields, image]) (by decide : ∀ n ∈ [1], n < UInt16.size)
  bits_eq := hd.shorts? (by simp [fields, image]) (by decide : ∀ n ∈ [8], n < UInt16.size)
  planar_eq := by
    refine ⟨none, ?_, rfl, rfl⟩
    rw [ImageDirectory.short?, ImageDirectory.numberBelow?]
    dsimp only [image]
    rw [field?_eq_none hd (by decide)]
  chunks_eq := ⟨_, h.chunks? hd, rfl⟩
  width_pos := h.cols_pos
  height_pos := h.rows_pos
  samples_pos := Nat.one_pos
  photometric_mem := (by decide : 1 ∈ ImageFile.photometrics)
  sampleFormat_lt := (by decide : 1 < UInt16.size)
  bits_pos := (by decide : 0 < 8)
  bits_lt := (by decide : 8 < 256)

end

/-- The strips stand in the file one row of pixels after another. -/
theorem chunkSamples? (hbytes : d.bytes = (encode strips (fields cols rows stripRows (tagFields g noData) strips)).toArray)
    {k : Nat} {strip : List UInt8} (hk : strips[k]? = some strip) :
    (image d rows cols stripRows strips).chunkSamples? k = some (strip.map UInt8.toUInt16).toArray := by
  have hrow : k * stripRows < rows := by
    rw [← lt_ceilDiv_iff h.stripRows_pos, ← h.strips_length]
    exact (List.getElem?_eq_some_iff.mp hk).1
  obtain ⟨found, hfound, hshape⟩ := h.exists_strip h.sizes_eq hrow
  obtain rfl : found = strip := Option.some.inj (hfound.symm.trans hk)
  have hacross : ceilDiv cols cols = 1 := ceilDiv_eq_one h.cols_pos (Nat.le_refl _)
  have hwindow : (image d rows cols stripRows strips).chunkWindow k =
      ⟨k * stripRows, 0, min stripRows (rows - k * stripRows), cols⟩ := by
    simp only [ImageFile.chunkWindow, image, hacross, Nat.div_one, Nat.mod_one, Nat.zero_mul, Nat.sub_zero, Nat.min_self]
  have hoffset : (image d rows cols stripRows strips).offsets[k]? =
      some (headerSize + (strips.take k).flatten.length) := by
    rw [image, List.getElem?_toArray, getElem?_chunkOffsets, hk, Option.map_some]
  have hcarries := carries_chunk (fields cols rows stripRows (tagFields g noData) strips) hk
  have hrows : (List.range (min stripRows (rows - k * stripRows))).mapM (fun row =>
      (d.bytes.slice? (headerSize + (strips.take k).flatten.length + row * cols) cols).bind fun bytes =>
        some (bytes.map UInt8.toUInt16)) =
      some ((List.range (min stripRows (rows - k * stripRows))).map fun row =>
        ((found.map UInt8.toUInt16).drop (row * cols)).take cols) := by
    apply mapM_eq_some_map
    intro row hmem
    rw [hbytes, hcarries.slice?_row hshape (List.mem_range.mp hmem), Option.bind_some, ← List.map_drop, ← List.map_take]
  have hflat : ((List.range (min stripRows (rows - k * stripRows))).map fun row =>
      ((found.map UInt8.toUInt16).drop (row * cols)).take cols).flatten = found.map UInt8.toUInt16 := by
    rw [← List.flatMap_def]
    exact flatMap_stretches ((List.length_map _).trans hshape)
  rw [ImageFile.chunkSamples?, hwindow, hoffset]
  simp only [image, ImageFile.decodeRow, Option.bind_eq_bind, Option.bind_some, Nat.mul_one, Option.pure_def, ne_eq,
    not_true_eq_false, if_false, if_true, show 8 / 8 = 1 from rfl, hrows, hflat]

theorem shows (hd : d.Has (fields cols rows stripRows (tagFields g noData) strips))
    (hbytes : d.bytes = (encode strips (fields cols rows stripRows (tagFields g noData) strips)).toArray) :
    (image d rows cols stripRows strips).decoded.ShowsStrips rows cols stripRows noData strips where
  dimensions_eq := rfl
  colorModel_eq := rfl
  planarity_eq := ⟨some 1, rfl, by decide⟩
  chunkDimensions_eq := rfl
  chunk_eq k strip hk := by
    have hlt : k < UInt32.size := by
      have hcount : k < strips.length := (List.getElem?_eq_some_iff.mp hk).1
      have hle : ceilDiv rows stripRows ≤ rows := ceilDiv_le h.stripRows_pos
      rw [h.strips_length] at hcount
      exact Nat.lt_trans (Nat.lt_of_lt_of_le hcount hle) h.rows_lt
    have hindex : (UInt32.ofNat k).toNat = k := UInt32.toNat_ofNat_of_lt hlt
    have hback : (strip.map UInt8.toUInt16).map UInt16.toUInt8 = strip := by
      rw [List.map_map]
      exact (List.map_congr_left fun byte _ => UInt8.toUInt8_toUInt16 byte).trans (List.map_id strip)
    show (image d rows cols stripRows strips).chunk? (UInt32.ofNat k).toNat = _
    rw [ImageFile.chunk?, hindex, h.chunkSamples? hbytes hk]
    simp only [image, Option.bind_eq_bind, Option.bind_some, List.map_toArray, hback]
    rfl
  noData_eq := hd.text? (by simp [fields, tagFields]) (writesNatural_toString noData.toNat).isTagText

omit h in
theorem carries (hd : d.Has (fields cols rows stripRows (tagFields g noData) strips))
    (htext : ∀ text ∈ g.geoAscii, isTagText text = true) :
    (image d rows cols stripRows strips).decoded.Carries g := by
  have hmem {field : EncodedField} (hfield : field ∈ tagFields g noData) :
      field ∈ fields cols rows stripRows (tagFields g noData) strips := List.mem_append_right _ hfield
  constructor
  · exact hd.optionalDoubles (fun list hlist => hmem (by simp [tagFields, Option.mem_def.mp hlist]))
      fun hnone => ne_of_not_mem_tags (by simp [baseTags, geoTags, hnone, GeoReference.pixelScaleTag])
  · exact hd.optionalDoubles (fun list hlist => hmem (by simp [tagFields, Option.mem_def.mp hlist]))
      fun hnone => ne_of_not_mem_tags (by simp [baseTags, geoTags, hnone, GeoReference.tiepointsTag])
  · exact hd.optionalDoubles (fun list hlist => hmem (by simp [tagFields, Option.mem_def.mp hlist]))
      fun hnone => ne_of_not_mem_tags (by simp [baseTags, geoTags, hnone, GeoReference.transformationTag])
  · exact hd.optionalShorts (fun list hlist => hmem (by simp [tagFields, Option.mem_def.mp hlist]))
      fun hnone => ne_of_not_mem_tags (by simp [baseTags, geoTags, hnone, GeoReference.geoKeysTag])
  · exact hd.optionalDoubles (fun list hlist => hmem (by simp [tagFields, Option.mem_def.mp hlist]))
      fun hnone => ne_of_not_mem_tags (by simp [baseTags, geoTags, hnone, GeoReference.geoDoublesTag])
  · exact hd.optionalText (fun text hvalue => hmem (by simp [tagFields, Option.mem_def.mp hvalue])) htext
      fun hnone => ne_of_not_mem_tags (by simp [baseTags, geoTags, hnone, GeoReference.geoAsciiTag])

end Fits

/-! ### Sessions -/

/-- The bytes before the directory of a file. -/
def directoryOffset (rows cols stripRows : Nat) (g : GeoReference) (noData : UInt8) : Nat :=
  let blank := (LabelFile.stripSizes rows cols stripRows).map fun n => List.replicate n 0
  directoryStart blank (fields cols rows stripRows (tagFields g noData) blank)

theorem directoryStart_eq (h : strips.map List.length = LabelFile.stripSizes rows cols stripRows) :
    directoryStart strips (fields cols rows stripRows (tagFields g noData) strips) =
      directoryOffset rows cols stripRows g noData := by
  have hblank : strips.map List.length =
      ((LabelFile.stripSizes rows cols stripRows).map fun n => List.replicate n (0 : UInt8)).map List.length := by
    rw [List.map_map, h]
    refine (List.map_id _).symm.trans (List.map_congr_left fun n _ => ?_)
    exact (List.length_replicate ..).symm
  have hfields : fields cols rows stripRows (tagFields g noData) strips = fields cols rows stripRows (tagFields g noData)
      ((LabelFile.stripSizes rows cols stripRows).map fun n => List.replicate n 0) := by
    rw [fields, fields, chunkOffsets_congr hblank, hblank]
  have hvalues : valuesStart strips =
      valuesStart ((LabelFile.stripSizes rows cols stripRows).map fun n => List.replicate n 0) := by
    rw [valuesStart, valuesStart, List.length_flatten, List.length_flatten, hblank]
  rw [directoryOffset, hfields, directoryStart, directoryStart, placed, placed, hvalues]

theorem accepts_eq : ImageCodec.uncompressed.accepts = accepts := rfl

theorem accepts_finish {calls : List EncoderCall} : ImageCodec.uncompressed.accepts calls .finish = true ↔
    directoryStart (stripsOf calls) (fieldsOf calls) < UInt32.size := by
  rw [accepts_eq]
  unfold accepts
  exact decide_eq_true_iff

theorem takes_tags {calls : List EncoderCall} (hcalls : ∀ call ∈ calls, ∀ before, accepts before call = true)
    (before : List EncoderCall) : ImageCodec.uncompressed.takes before calls = true := by
  induction calls generalizing before with
  | nil => rfl
  | cons call calls ih =>
    rw [ImageCodec.takes, Bool.and_eq_true]
    exact ⟨hcalls call List.mem_cons_self before, ih (fun other hother => hcalls other (List.mem_cons_of_mem _ hother)) _⟩

/-- Strips are taken as long as there are offsets for them. -/
theorem takes_strips {before : List EncoderCall}
    (h : headerSize + (stripsOf before ++ strips).flatten.length < UInt32.size) :
    ImageCodec.uncompressed.takes before (strips.map .strip) = true := by
  induction strips generalizing before with
  | nil => rfl
  | cons strip strips ih =>
    have hstrip : stripsOf [EncoderCall.strip strip] = [strip] := rfl
    rw [List.map_cons, ImageCodec.takes, Bool.and_eq_true]
    constructor
    · rw [List.flatten_append, List.flatten_cons, List.length_append, List.length_append] at h
      show (_ && _) = true
      rw [Bool.and_eq_true, decide_eq_true_eq, decide_eq_true_eq]
      omega
    · apply ih
      rwa [stripsOf_append, hstrip, List.append_assoc, List.singleton_append]

theorem takes_session (h : Fits rows cols stripRows g noData strips) (htext : ∀ text ∈ g.geoAscii, isTagText text = true) :
    ImageCodec.uncompressed.takes [] (LabelFile.session rows cols stripRows g noData strips) = true := by
  have htags : ∀ call ∈ (LabelFile.tags g noData).map Prod.fst, ∀ before, accepts before call = true := by
    intro call hcall before
    rcases isTag_of_mem hcall with ⟨_, _, rfl⟩ | ⟨_, _, rfl⟩ | ⟨_, _, rfl, hvalue | rfl⟩
    · rfl
    · rfl
    · exact htext _ hvalue
    · exact (writesNatural_toString noData.toNat).isTagText
  have hwidth : UInt32.ofNat cols ≠ 0 := fun hzero =>
    Nat.ne_of_gt h.cols_pos (by rw [← UInt32.toNat_ofNat_of_lt h.cols_lt]; exact congrArg UInt32.toNat hzero)
  have hheight : UInt32.ofNat rows ≠ 0 := fun hzero =>
    Nat.ne_of_gt h.rows_pos (by rw [← UInt32.toNat_ofNat_of_lt h.rows_lt]; exact congrArg UInt32.toNat hzero)
  have hshape : ImageCodec.uncompressed.takes [] [.start, .image (.ofNat cols) (.ofNat rows), .rowsPerStrip (.ofNat stripRows)] =
      true := by
    show (true && ((decide _ && decide _) && (true && true))) = true
    simp [hwidth, hheight]
  rw [session_eq, told, ImageCodec.takes_append, ImageCodec.takes_append, LabelFile.headerCalls, ImageCodec.takes_append,
    ← LabelFile.headerCalls]
  refine ⟨⟨⟨hshape, takes_tags htags _⟩, takes_strips ?_⟩, ?_⟩
  · rw [List.nil_append, stripsOf_headerCalls, List.nil_append]
    exact Nat.lt_of_le_of_lt valuesStart_le h.start_lt
  · rw [List.nil_append, ImageCodec.takes_singleton, ← told, accepts_finish, stripsOf_told, fieldsOf_told h.toSizes]
    exact h.start_lt

/-- The end of a session is only taken if the file has a place for its directory. -/
theorem start_lt_of_takes (h : LabelFile.Sizes rows cols stripRows)
    (htakes : ImageCodec.uncompressed.takes [] (LabelFile.session rows cols stripRows g noData strips) = true) :
    directoryStart strips (fields cols rows stripRows (tagFields g noData) strips) < UInt32.size := by
  rw [session_eq] at htakes
  have hfinish := (ImageCodec.takes_append.mp htakes).2
  rwa [List.nil_append, ImageCodec.takes_singleton, accepts_finish, stripsOf_told, fieldsOf_told h] at hfinish

end UncompressedImage

namespace ImageCodec

open UncompressedImage

theorem open?_uncompressed (bytes : Bytes) : uncompressed.open? bytes = (ImageFile.open? bytes).map ImageFile.decoded := rfl

/-- What was written without compression is found again. -/
theorem returnsStrips_uncompressed : uncompressed.ReturnsStrips where
  exists_image rows cols stripRows g noData strips hsizes hstrips htakes := by
    have h : Fits rows cols stripRows g noData strips := ⟨hsizes, hstrips, start_lt_of_takes hsizes htakes⟩
    obtain ⟨d, hread, hbytes, hd⟩ := has_fields h.start_lt
    have hopen : uncompressed.open? (uncompressed.written (LabelFile.session rows cols stripRows g noData strips)) =
        some (UncompressedImage.image d rows cols stripRows strips).decoded := by
      rw [written_session hsizes, open?_uncompressed, (h.recorded hd).open?_eq hread]
      rfl
    exact ⟨_, hopen, h.shows hd hbytes, fun hstorable => Fits.carries hd hstorable.geoAscii_text⟩

/-- A raster can be written without compression if there is an offset for the directory of its file. -/
theorem encodable_uncompressed {rows cols stripRows : Nat} {g : GeoReference} {noData : UInt8}
    (h : LabelFile.Sizes rows cols stripRows) (hoffset : directoryOffset rows cols stripRows g noData < UInt32.size)
    (htext : ∀ text ∈ g.geoAscii, isTagText text = true) :
    LabelFile.Encodable uncompressed rows cols stripRows g noData where
  toSizes := h
  takes _ hstrips := takes_session ⟨h, hstrips, directoryStart_eq hstrips ▸ hoffset⟩ htext

end ImageCodec

end SurfaceWater
