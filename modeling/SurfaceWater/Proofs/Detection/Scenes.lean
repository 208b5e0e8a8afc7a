import Mathlib.Data.List.ProdSigma
import SurfaceWater.Detection.Run
import SurfaceWater.Proofs.Detection.Labels
import SurfaceWater.Proofs.Image.Codec
import SurfaceWater.Proofs.Storage.Staging

/-!
# Scenes

The files of a scene, all of which can be read, with what the detector says of each pixel. The labels of a
detection are those of the pixels, one by one: nothing of the chunks, the tiles or the workers shows in them.
-/

namespace SurfaceWater

/-! ### Pixels -/

namespace ImageLayout

variable {l : ImageLayout} {decode : ChunkDecoder} {row col : Nat}

/-- The pixel of an image. It has no data where all samples have the value of missing pixels. -/
def rawPixel (l : ImageLayout) (decode : ChunkDecoder) (row col : Nat) : RawPixel where
  dn := .ofFn fun band => (l.storedSample? decode row col band).getD 0
  valid :=
    match l.maskValue with
    | none => true
    | some mask => decide (∃ band : Fin bandCount, (l.storedSample? decode row col band).getD 0 ≠ mask)

section

variable (hl : l.Proper) (hbands : l.bands = bandCount) (hrow : row < l.height) (hcol : col < l.width)
  (hdecodes : l.Decodes decode row col)

include hl hbands hrow hcol hdecodes

/-- A pixel whose chunk can be decoded has all its samples. -/
theorem storedSample?_eq (band : Fin bandCount) :
    l.storedSample? decode row col band = some (Vector.get (l.rawPixel decode row col).dn band) := by
  obtain ⟨chunk, hchunk⟩ := hdecodes
  have hband : band.val < l.bands := Nat.lt_of_lt_of_eq band.isLt hbands.symm
  have hsample : l.storedSample? decode row col band = some _ := storedSample?_eq_some hl hrow hcol hband hchunk
  have hvalue : Vector.get (l.rawPixel decode row col).dn band = (l.storedSample? decode row col band).getD 0 :=
    Vector.getElem_ofFn band.isLt
  rw [hvalue, hsample, Option.getD_some]

theorem pixelAt_eq : l.pixelAt decode row col = (l.rawPixel decode row col).dn.toArray := by
  obtain ⟨chunk, hchunk⟩ := hdecodes
  apply Array.ext
  · rw [pixelAt, Array.size_ofFn, Vector.size_toArray, hbands]
  · intro band hband _
    rw [pixelAt, Array.size_ofFn] at hband
    have hsample := storedSample?_eq_some hl hrow hcol hband hchunk
    simp only [pixelAt, rawPixel, Array.getElem_ofFn, Vector.toArray_ofFn, hsample, Option.getD_some]

theorem isData_pixelAt : l.isData (l.pixelAt decode row col) = (l.rawPixel decode row col).valid := by
  rw [pixelAt_eq hl hbands hrow hcol hdecodes, isData]
  simp only [rawPixel]
  cases l.maskValue with
  | none => rfl
  | some mask =>
    rw [Bool.eq_iff_iff, Vector.toArray_ofFn, Array.any_eq_true, decide_eq_true_eq, Fin.exists_iff]
    simp only [Array.size_ofFn, Array.getElem_ofFn, decide_eq_true_eq]

end

/-- An image that has all its chunks decodes at every pixel. -/
theorem decodes_of_readable (hl : l.Proper)
    (hchunks : ∀ i j, i < l.chunksDown → j < l.chunksAcross → ¬ l.Unreadable decode i j) (hrow : row < l.height)
    (hcol : col < l.width) : l.Decodes decode row col :=
  exists_fetch_iff.mpr
    (hchunks _ _ (div_lt_ceilDiv hl.chunkHeight_pos hrow) (div_lt_ceilDiv hl.chunkWidth_pos hcol))

end ImageLayout

theorem WaterDetection.labelAt_eq {C : Type} [PixelClassifier C] {d : WaterDetection C} {decode : ChunkDecoder}
    (hl : d.reader.layout.Proper) (hbands : d.reader.layout.bands = bandCount) {row col : Nat}
    (hrow : row < d.reader.layout.height) (hcol : col < d.reader.layout.width)
    (hdecodes : d.reader.layout.Decodes decode row col) :
    d.labelAt decode row col = (d.detector.detect (d.reader.layout.rawPixel decode row col)).value := by
  rw [labelAt, ImageLayout.isData_pixelAt hl hbands hrow hcol hdecodes,
    ImageLayout.pixelAt_eq hl hbands hrow hcol hdecodes, RawPixel.ofSamples?,
    dif_pos (d.reader.layout.rawPixel decode row col).dn.size_toArray]

/-- A pixel without data is labelled so, and any other is land or water. -/
theorem WaterDetector.detect_cases (d : WaterDetector) (pixel : RawPixel) :
    (pixel.valid = false ∧ d.detect pixel = .noData) ∨
      (pixel.valid = true ∧ (d.detect pixel = .land ∨ d.detect pixel = .water)) := by
  have hdetect : d.detect pixel = WaterRule.classify d.classifier (d.calibrator.reflectance pixel) := rfl
  have hvalid : (d.calibrator.reflectance pixel).valid = pixel.valid := rfl
  rw [hdetect, WaterRule.classify, hvalid]
  cases pixel.valid with
  | false => exact .inl ⟨rfl, rfl⟩
  | true =>
    cases d.classifier.isWater (d.calibrator.reflectance pixel) with
    | false => exact .inr ⟨rfl, .inl rfl⟩
    | true => exact .inr ⟨rfl, .inr rfl⟩

/-! ### Files -/

theorem DetectionParams.validate_eq_ok_iff {params : DetectionParams} :
    params.validate = .ok () ↔
      0 < params.tileSize ∧ params.mode ≠ .parallelWith 0 ∧ params.rule.validate = .ok () := by
  simp only [validate, guard_eq_ok_iff, Nat.pos_iff_ne_zero, ne_eq]

/-- The files of a scene, all of which can be read. -/
structure ReadableScene (codec : ImageCodec) (storage : Storage) (inputs : List String) where
  image : String
  reader : ImageReader
  metadata : SceneMetadata
  reference : GeoReference
  find_eq : InputFiles.find inputs InputFiles.imageExtension = .ok image
  reader_eq : ImageReader.load codec storage image = .ok reader
  bands_eq : reader.layout.bands = bandCount
  chunks_decode : ∀ i j, i < reader.layout.chunksDown → j < reader.layout.chunksAcross →
    ¬ reader.layout.Unreadable (reader.decoder codec storage) i j
  metadata_eq : SceneMetadata.load storage inputs = .ok metadata
  reference_eq : GeoReference.load codec storage image = .ok reference

namespace ReadableScene

variable {codec codec' : ImageCodec} {storage storage' : Storage} {inputs inputs' : List String}

section

variable (scene : ReadableScene codec storage inputs)

def height : Nat := scene.reader.layout.height

def width : Nat := scene.reader.layout.width

/-- A sample that the image has. -/
def sample? (row col band : Nat) : Option UInt16 :=
  scene.reader.layout.storedSample? (scene.reader.decoder codec storage) row col band

def pixel (row col : Nat) : RawPixel := scene.reader.layout.rawPixel (scene.reader.decoder codec storage) row col

/-- What the detector says of a pixel. -/
def label (rule : WaterRule) (row col : Nat) : UInt8 :=
  ((WaterDetector.ofMetadata scene.metadata rule).detect (scene.pixel row col)).value

/-- The cells of the image, each as its row and its column. -/
def cells : List (Nat × Nat) := List.range scene.height ×ˢ List.range scene.width

/-- The labels of some rows, one row after another. -/
def labelBytes (rule : WaterRule) (request : Nat × Nat) : List UInt8 :=
  ((List.range request.2).map (request.1 + ·)).flatMap fun row => (List.range scene.width).map (scene.label rule row)

/-- The rows of a strip of the labels. -/
def stripRows (params : DetectionParams) : Nat := min params.tileSize scene.height

def detection (machine : Machine) (params : DetectionParams) : WaterDetection :=
  ⟨scene.reader, .ofMetadata scene.metadata params.rule,
    .ofLayout scene.reader.layout params.tileSize (params.mode.workers machine), params.mode.workers machine⟩

/-- A run over a scene may have its parameters, and there is room for what it writes. -/
structure HasRoom (output : String) (params : DetectionParams) : Prop where
  params_valid : params.validate = .ok ()
  writable : storage.Writable output
  encodable : LabelFile.Encodable codec scene.height scene.width (scene.stripRows params) scene.reference
    WaterLabel.noData.value

end

/-- Two images have the same pixels, however they are kept. -/
structure SamePixels (scene : ReadableScene codec storage inputs) (other : ReadableScene codec' storage' inputs') :
    Prop where
  width_eq : scene.width = other.width
  height_eq : scene.height = other.height
  maskValue_eq : scene.reader.layout.maskValue = other.reader.layout.maskValue
  sample_eq : ∀ row col (band : Fin bandCount), row < scene.height → col < scene.width →
    scene.sample? row col band = other.sample? row col band

theorem SamePixels.pixel_eq {scene : ReadableScene codec storage inputs} {other : ReadableScene codec' storage' inputs'}
    (h : scene.SamePixels other) {row col : Nat} (hrow : row < scene.height) (hcol : col < scene.width) :
    scene.pixel row col = other.pixel row col := by
  have hsample (band : Fin bandCount) :
      scene.reader.layout.storedSample? (scene.reader.decoder codec storage) row col band =
        other.reader.layout.storedSample? (other.reader.decoder codec' storage') row col band :=
    h.sample_eq row col band hrow hcol
  simp only [pixel, ImageLayout.rawPixel, hsample, h.maskValue_eq]

variable (scene : ReadableScene codec storage inputs) {machine : Machine} {params : DetectionParams} {row col : Nat}

theorem mem_cells_iff : (row, col) ∈ scene.cells ↔ row < scene.height ∧ col < scene.width := by
  rw [cells, List.mem_product, List.mem_range, List.mem_range]

theorem proper : scene.reader.layout.Proper := (ImageReader.proper_of_load scene.reader_eq).1

theorem decodes (hrow : row < scene.height) (hcol : col < scene.width) :
    scene.reader.layout.Decodes (scene.reader.decoder codec storage) row col :=
  ImageLayout.decodes_of_readable scene.proper scene.chunks_decode hrow hcol

theorem labelAt_detection (hrow : row < scene.height) (hcol : col < scene.width) :
    (scene.detection machine params).labelAt (scene.reader.decoder codec storage) row col = scene.label params.rule row col :=
  WaterDetection.labelAt_eq scene.proper scene.bands_eq hrow hcol (scene.decodes hrow hcol)

/-- Every pixel has all its samples. -/
theorem sample?_eq (hrow : row < scene.height) (hcol : col < scene.width) (band : Fin bandCount) :
    scene.sample? row col band = some (Vector.get (scene.pixel row col).dn band) :=
  ImageLayout.storedSample?_eq scene.proper scene.bands_eq hrow hcol (scene.decodes hrow hcol) band

theorem label_cases (rule : WaterRule) (row col : Nat) :
    ((scene.pixel row col).valid = false ∧ scene.label rule row col = 255) ∨
      ((scene.pixel row col).valid = true ∧ (scene.label rule row col = 1 ∨ scene.label rule row col = 2)) := by
  unfold label
  rcases (WaterDetector.ofMetadata scene.metadata rule).detect_cases (scene.pixel row col) with
    ⟨hvalid, hlabel⟩ | ⟨hvalid, hlabel | hlabel⟩
  · exact .inl ⟨hvalid, congrArg WaterLabel.value hlabel⟩
  · exact .inr ⟨hvalid, .inl (congrArg WaterLabel.value hlabel)⟩
  · exact .inr ⟨hvalid, .inr (congrArg WaterLabel.value hlabel)⟩

/-- Labels say that there is no data exactly where all samples have the value of missing pixels. -/
theorem label_eq_noData_iff (rule : WaterRule) (hrow : row < scene.height) (hcol : col < scene.width) :
    scene.label rule row col = 255 ↔ ∃ mask, scene.reader.layout.maskValue = some mask ∧
      ∀ band : Fin bandCount, scene.sample? row col band = some mask := by
  have hvalid : scene.label rule row col = 255 ↔ (scene.pixel row col).valid = false := by
    rcases scene.label_cases rule row col with ⟨hvalid, hlabel⟩ | ⟨hvalid, hlabel | hlabel⟩
    · simp only [hvalid, hlabel]
    · simp [hvalid, hlabel]
    · simp [hvalid, hlabel]
  have hsample (band : Fin bandCount) (mask : UInt16) :
      (scene.reader.layout.storedSample? (scene.reader.decoder codec storage) row col band).getD 0 = mask ↔
        scene.sample? row col band = some mask := by
    have hstored : scene.reader.layout.storedSample? (scene.reader.decoder codec storage) row col band = _ :=
      scene.sample?_eq hrow hcol band
    rw [hstored, Option.getD_some, scene.sample?_eq hrow hcol band, Option.some.injEq]
  rw [hvalid]
  simp only [pixel, ImageLayout.rawPixel]
  cases scene.reader.layout.maskValue with
  | none => simp
  | some mask => simp [hsample]

end ReadableScene

end SurfaceWater
