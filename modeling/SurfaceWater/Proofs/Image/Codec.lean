import SurfaceWater.Image.LabelFile
import SurfaceWater.Image.Reader
import SurfaceWater.Image.Uncompressed
import SurfaceWater.Proofs.Except
import SurfaceWater.Proofs.Image.Chunks

/-!
# What is expected of a codec

Nothing is known of a codec but what it answers. A reader keeps to the sizes of the image that it was
told, and those are words of 32 bits. An encoder is told of a raster in one session: what comes before the
strips, the strips in order from the top, and the end. It returns strips if an image that it was told of is
found in its file again with the bytes of every strip, each in a chunk of its own, and with the tags.
-/

namespace SurfaceWater

/-! ### Loading -/

namespace ImageCodec

variable {codec : ImageCodec} {storage other : Storage} {path : String} {image : DecodedImage}

theorem load_eq_ok_iff : codec.load storage path = .ok image ↔
    ∃ bytes, storage.entry path = .ok (.file bytes) ∧ codec.open? bytes = some image := by
  unfold load
  cases hentry : storage.entry path with
  | error fault => simp
  | ok entry =>
    cases entry with
    | directory => simp
    | file bytes =>
      cases hopen : codec.open? bytes with
      | none => simp [hopen]
      | some found => simp [hopen]

theorem load_congr (h : storage.entry path = other.entry path) : codec.load storage path = codec.load other path := by
  rw [load, load, h]

theorem decoder_congr (h : storage.entry path = other.entry path) :
    codec.decoder storage path = codec.decoder other path := by
  funext index
  rw [decoder, decoder, load_congr h]

theorem decoder_eq (h : codec.load storage path = .ok image) (index : Nat) :
    codec.decoder storage path index = image.samples index := by
  rw [decoder, h]
  rfl

end ImageCodec

theorem GeoReference.load_eq {codec : ImageCodec} {storage : Storage} {path : String} {image : DecodedImage}
    (himage : codec.load storage path = .ok image) :
    load codec storage path = image.geoReference?.elim (.error (.noGeoReference path)) .ok := by
  rw [load, himage]
  cases hreference : image.geoReference? with
  | none => simp only [hreference, bind, Except.bind]; rfl
  | some reference => simp only [hreference, bind, Except.bind]; rfl

theorem ImageLayout.ofImage_eq_ok {image : DecodedImage} {l : ImageLayout} (h : ofImage image = .ok l) :
    l.Proper ∧ l.width < UInt32.size ∧ l.height < UInt32.size := by
  unfold ofImage at h
  cases hdimensions : image.dimensions? with
  | none => simp only [hdimensions] at h; cases h
  | some dimensions =>
    obtain ⟨width, height⟩ := dimensions
    cases hmodel : image.colorModel? with
    | none => simp only [hdimensions, hmodel] at h; cases h
    | some model =>
      cases hbands : model.bands? with
      | none => simp only [hdimensions, hmodel, hbands] at h; cases h
      | some bands =>
        cases hplanarity : image.planarity? with
        | none => simp only [hdimensions, hmodel, hbands, hplanarity] at h; cases h
        | some planarity =>
          simp only [hdimensions, hmodel, hbands, hplanarity, guard_eq_ok_iff, pure_eq_ok_iff] at h
          obtain ⟨-, hsize, rfl⟩ := h
          obtain ⟨hwidth, hheight⟩ := not_or.mp hsize
          have hpos {n : UInt32} (hn : ¬ n = 0) : 0 < n.toNat :=
            Nat.pos_of_ne_zero fun hzero => hn (UInt32.toNat_inj.mp hzero)
          exact ⟨⟨hpos hwidth, hpos hheight, Nat.lt_of_lt_of_le Nat.one_pos (Nat.le_max_right ..),
            Nat.lt_of_lt_of_le Nat.one_pos (Nat.le_max_right ..)⟩, width.toNat_lt, height.toNat_lt⟩

namespace ImageReader

variable {codec : ImageCodec} {storage other : Storage} {path : String} {reader : ImageReader}

theorem load_eq_ok_iff : load codec storage path = .ok reader ↔
    reader.path = path ∧ ∃ image, codec.load storage path = .ok image ∧ ImageLayout.ofImage image = .ok reader.layout := by
  simp only [load, bind_eq_ok_iff, pure_eq_ok_iff]
  constructor
  · intro h
    obtain ⟨image, himage, layout, hlayout, rfl⟩ := h
    exact ⟨rfl, image, himage, hlayout⟩
  · intro h
    obtain ⟨rfl, image, himage, hlayout⟩ := h
    exact ⟨image, himage, reader.layout, hlayout, rfl⟩

theorem proper_of_load (h : load codec storage path = .ok reader) :
    reader.layout.Proper ∧ reader.layout.width < UInt32.size ∧ reader.layout.height < UInt32.size := by
  obtain ⟨-, image, -, hlayout⟩ := load_eq_ok_iff.mp h
  exact ImageLayout.ofImage_eq_ok hlayout

end ImageReader

/-! ### Sessions -/

namespace ImageCodec

variable {codec : ImageCodec} {before calls others : List EncoderCall} {call : EncoderCall}

/-- The encoder carries out further calls, one after another. -/
def takes (codec : ImageCodec) : List EncoderCall → List EncoderCall → Bool
  | _, [] => true
  | before, call :: calls => codec.accepts before call && takes codec (before ++ [call]) calls

theorem takes_append : codec.takes before (calls ++ others) = true ↔
    codec.takes before calls = true ∧ codec.takes (before ++ calls) others = true := by
  induction calls generalizing before with
  | nil => simp [takes]
  | cons call calls ih =>
    rw [List.cons_append, takes, takes, Bool.and_eq_true, Bool.and_eq_true, ih, List.append_assoc, and_assoc]
    rfl

theorem takes_singleton : codec.takes before [call] = true ↔ codec.accepts before call = true := by
  rw [takes, takes, Bool.and_true]

theorem tell_eq_ok_iff {fault : ImageFault} {after : List EncoderCall} :
    codec.tell before call fault = .ok after ↔ codec.takes before [call] = true ∧ before ++ [call] = after := by
  rw [takes_singleton, tell]
  split
  case isTrue haccepted => simp [haccepted]
  case isFalse hrefused => simp [hrefused]

/-- To tell one thing after another is to tell them all. -/
theorem foldlM_tell_eq_ok_iff {items : List (EncoderCall × ImageFault)} {after : List EncoderCall} :
    items.foldlM (fun calls item => codec.tell calls item.1 item.2) before = .ok after ↔
      codec.takes before (items.map Prod.fst) = true ∧ before ++ items.map Prod.fst = after := by
  induction items generalizing before with
  | nil =>
    rw [List.foldlM_nil, pure_eq_ok_iff, List.map_nil, List.append_nil]
    exact (and_iff_right rfl).symm
  | cons item items ih =>
    rw [List.foldlM_cons, bind_eq_ok_iff, List.map_cons, ← List.singleton_append, takes_append]
    simp only [tell_eq_ok_iff, ih, and_assoc, exists_and_left, exists_eq_left', List.append_assoc]

end ImageCodec

namespace LabelFile

/-- The sizes of a raster and of its strips, which have 32 bits. -/
structure Sizes (rows cols stripRows : Nat) : Prop where
  rows_pos : 0 < rows
  cols_pos : 0 < cols
  stripRows_pos : 0 < stripRows
  stripRows_le : stripRows ≤ rows
  rows_lt : rows < UInt32.size
  cols_lt : cols < UInt32.size

/-- The bytes of each strip. -/
def stripSizes (rows cols stripRows : Nat) : List Nat :=
  (strips rows stripRows rows 0).map fun (_, height) => height * cols

/-- What an encoder is told before the first strip. -/
def headerCalls (rows cols stripRows : Nat) (g : GeoReference) (noData : UInt8) : List EncoderCall :=
  [.start, .image (.ofNat cols) (.ofNat rows), .rowsPerStrip (.ofNat stripRows)] ++ (tags g noData).map Prod.fst

/-- What an encoder is told of a raster in strips. -/
def session (rows cols stripRows : Nat) (g : GeoReference) (noData : UInt8) (strips : List (List UInt8)) :
    List EncoderCall :=
  headerCalls rows cols stripRows g noData ++ strips.map .strip ++ [.finish]

/-- The encoder carries out every session for a raster of these sizes, whatever its bytes are. -/
structure Encodable (codec : ImageCodec) (rows cols stripRows : Nat) (g : GeoReference) (noData : UInt8) : Prop
    extends Sizes rows cols stripRows where
  takes : ∀ strips : List (List UInt8), strips.map List.length = stripSizes rows cols stripRows →
    codec.takes [] (session rows cols stripRows g noData strips) = true

theorem word_eq_ok_iff {name : String} {n : Nat} {m : UInt32} :
    word name n = .ok m ↔ n < UInt32.size ∧ UInt32.ofNat n = m := by
  unfold word
  split
  case isTrue hlt => simp [hlt]
  case isFalse hlarge => simp [hlarge]

theorem header_eq_ok_iff {codec : ImageCodec} {rows cols stripRows : Nat} {g : GeoReference} {noData : UInt8}
    {calls : List EncoderCall} : header codec rows cols stripRows g noData = .ok calls ↔
      (cols < UInt32.size ∧ rows < UInt32.size ∧ stripRows < UInt32.size) ∧
        codec.takes [] (headerCalls rows cols stripRows g noData) = true ∧
          headerCalls rows cols stripRows g noData = calls := by
  have hcalls : headerCalls rows cols stripRows g noData = [.start] ++ ([.image (.ofNat cols) (.ofNat rows)] ++
      ([.rowsPerStrip (.ofNat stripRows)] ++ (tags g noData).map Prod.fst)) := rfl
  rw [hcalls]
  simp only [header, bind_eq_ok_iff, ImageCodec.tell_eq_ok_iff, word_eq_ok_iff, ImageCodec.foldlM_tell_eq_ok_iff,
    ImageCodec.takes_append, List.nil_append, List.append_assoc]
  constructor
  · intro h
    obtain ⟨_, ⟨hstart, rfl⟩, _, ⟨hcols, rfl⟩, _, ⟨hrows, rfl⟩, _, ⟨himage, rfl⟩, _, ⟨hstripRows, rfl⟩, _,
      ⟨hrowsPerStrip, rfl⟩, htags, rfl⟩ := h
    exact ⟨⟨hcols, hrows, hstripRows⟩, ⟨hstart, himage, by simpa using hrowsPerStrip, by simpa using htags⟩, by simp⟩
  · intro h
    obtain ⟨⟨hcols, hrows, hstripRows⟩, ⟨hstart, himage, hrowsPerStrip, htags⟩, rfl⟩ := h
    exact ⟨_, ⟨hstart, rfl⟩, _, ⟨hcols, rfl⟩, _, ⟨hrows, rfl⟩, _, ⟨himage, rfl⟩, _, ⟨hstripRows, rfl⟩, _,
      ⟨by simpa using hrowsPerStrip, rfl⟩, by simpa using htags, by simp⟩

end LabelFile

/-! ### Images of strips -/

/-- Every list of a georeference has members, and its text can be kept in a tag. -/
structure GeoReference.Storable (g : GeoReference) : Prop where
  pixelScale_ne : g.pixelScale ≠ some []
  tiepoints_ne : g.tiepoints ≠ some []
  transformation_ne : g.transformation ≠ some []
  geoKeys_ne : g.geoKeys ≠ some []
  geoDoubles_ne : g.geoDoubles ≠ some []
  geoAscii_text : ∀ text ∈ g.geoAscii, isTagText text = true

namespace DecodedImage

/-- An image has one byte for every pixel, and its chunks are strips. -/
structure ShowsStrips (image : DecodedImage) (rows cols stripRows : Nat) (noData : UInt8)
    (strips : List (List UInt8)) : Prop where
  dimensions_eq : image.dimensions? = some (.ofNat cols, .ofNat rows)
  colorModel_eq : image.colorModel? = some (.gray 8)
  planarity_eq : ∃ planarity, image.planarity? = some planarity ∧ planarity ≠ some ImageLayout.bandsApart
  chunkDimensions_eq : image.chunkDimensions = (.ofNat cols, .ofNat stripRows)
  chunk_eq : ∀ k strip, strips[k]? = some strip → image.chunk? (.ofNat k) = some (.bytes strip.toArray)
  noData_eq : image.text? ImageLayout.noDataTag = some (toString noData.toNat)

/-- An image has the tags of a georeference. -/
structure Carries (image : DecodedImage) (g : GeoReference) : Prop where
  pixelScale_eq : image.doubles? GeoReference.pixelScaleTag = g.pixelScale
  tiepoints_eq : image.doubles? GeoReference.tiepointsTag = g.tiepoints
  transformation_eq : image.doubles? GeoReference.transformationTag = g.transformation
  geoKeys_eq : image.shorts? GeoReference.geoKeysTag = g.geoKeys
  geoDoubles_eq : image.doubles? GeoReference.geoDoublesTag = g.geoDoubles
  geoAscii_eq : image.text? GeoReference.geoAsciiTag = g.geoAscii

theorem Carries.geoReference?_eq {image : DecodedImage} {g : GeoReference} (h : image.Carries g) :
    image.geoReference? = g.geoTransform?.map fun _ => g := by
  simp only [geoReference?, h.pixelScale_eq, h.tiepoints_eq, h.transformation_eq, h.geoKeys_eq, h.geoDoubles_eq,
    h.geoAscii_eq]

end DecodedImage

/-- What was written in a session is found in the file again. -/
structure ImageCodec.ReturnsStrips (codec : ImageCodec) : Prop where
  exists_image : ∀ rows cols stripRows g noData strips, LabelFile.Sizes rows cols stripRows →
    strips.map List.length = LabelFile.stripSizes rows cols stripRows →
    codec.takes [] (LabelFile.session rows cols stripRows g noData strips) = true →
    ∃ image, codec.open? (codec.written (LabelFile.session rows cols stripRows g noData strips)) = some image ∧
      image.ShowsStrips rows cols stripRows noData strips ∧ (g.Storable → image.Carries g)

end SurfaceWater
