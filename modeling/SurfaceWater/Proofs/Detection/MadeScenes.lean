import SurfaceWater.Proofs.Detection.Scenes
import SurfaceWater.Proofs.Image.SceneReading
import SurfaceWater.SceneFiles

/-!
# The files of made-up scenes

A made-up scene can be read like any other: its image is found in the storage, with all chunks, and a scene that
is read from it has the pixels that were made up. So what a run says of such a scene can be told from the samples
that went in.
-/

namespace SurfaceWater

/-- The pixel of an image that has a sample for every band. -/
def SceneImage.pixel (image : SceneImage) (row col : Nat) : RawPixel where
  dn := .ofFn fun band => image.sample row col band
  valid := decide (∃ band : Fin bandCount, image.sample row col band ≠ image.missing)

namespace SceneFiles

theorem find_image : InputFiles.find inputs InputFiles.imageExtension = .ok imageName :=
  toOption_eq_some_iff.mp (by decide +kernel)

/-- The metadata file is kept beside the image and does not hide it. -/
theorem entry_image (files : SceneFiles) :
    files.storage.entry imageName = .ok (.file files.image.encode.toArray) := by
  have hstorage : files.storage =
      ((Storage.empty home).insert (home ++ [imageName]) (.file files.image.encode.toArray)).insert
        (home ++ [metadataName]) (.file (Text.encode files.document.text).toArray) := rfl
  have hdestination : (Storage.empty home).destination imageName = .ok (home ++ [imageName]) :=
    toOption_eq_some_iff.mp (by decide +kernel)
  rw [hstorage]
  apply Storage.entry_insert_of_kept
  · intro other hother
    obtain rfl := List.mem_singleton.mp hother
    show home ++ [imageName] ≠ home ++ [metadataName]
    decide
  · exact Storage.entry_insert_destination hdestination

/-- The image of a scene can be encoded and has all bands, and it is placed on the ground. -/
structure Proper (files : SceneFiles) : Prop where
  made : files.image.Made
  encodable : files.image.Encodable
  bands_eq : files.image.bands = bandCount
  placed : ∃ tags, files.image.geo = some tags

variable {files : SceneFiles} (h : files.Proper)

include h

theorem load_image : ImageReader.load .uncompressed files.storage imageName = .ok ⟨imageName, files.image.layout⟩ :=
  SceneImage.load_eq h.encodable h.made files.entry_image

/-- A made-up scene can be read if its metadata can. -/
theorem exists_scene {metadata : SceneMetadata} (hmetadata : SceneMetadata.load files.storage inputs = .ok metadata) :
    ∃ scene : ReadableScene .uncompressed files.storage inputs, scene.metadata = metadata := by
  obtain ⟨tags, hgeo⟩ := h.placed
  have hreference : GeoReference.load .uncompressed files.storage imageName = .ok tags.reference := by
    rw [SceneImage.geoReference_load_eq h.encodable h.made files.entry_image, hgeo]
  refine ⟨⟨imageName, ⟨imageName, files.image.layout⟩, metadata, tags.reference, find_image, load_image h, h.bands_eq, ?_,
    hmetadata, hreference⟩, rfl⟩
  intro i j hi hj
  have hcorner : i * files.image.chunkHeight < files.image.height ∧ j * files.image.chunkWidth < files.image.width :=
    ImageLayout.corner_lt h.encodable.proper_layout hi hj
  obtain ⟨chunk, hchunk, -⟩ := SceneImage.exists_fetch_decoder h.encodable h.made files.entry_image hcorner.1 hcorner.2
  rw [Nat.mul_div_cancel _ h.encodable.chunkHeight_pos, Nat.mul_div_cancel _ h.encodable.chunkWidth_pos] at hchunk
  exact ImageLayout.exists_fetch_iff.mp ⟨chunk, hchunk⟩

variable (scene : ReadableScene .uncompressed files.storage inputs)

omit h in
theorem image_eq : scene.image = imageName := Except.ok.inj (scene.find_eq.symm.trans find_image)

theorem reader_eq : scene.reader = ⟨imageName, files.image.layout⟩ := by
  have hreader := scene.reader_eq
  rw [image_eq scene, load_image h] at hreader
  exact (Except.ok.inj hreader).symm

theorem reference_eq {tags : GeoTags} (hgeo : files.image.geo = some tags) : scene.reference = tags.reference := by
  have hreference := scene.reference_eq
  rw [image_eq scene, SceneImage.geoReference_load_eq h.encodable h.made files.entry_image, hgeo] at hreference
  exact (Except.ok.inj hreference).symm

theorem height_eq : scene.height = files.image.height := congrArg (·.layout.height) (reader_eq h scene)

theorem width_eq : scene.width = files.image.width := congrArg (·.layout.width) (reader_eq h scene)

/-- The pixels that are read are those that were made up. -/
theorem pixel_eq {row col : Nat} (hrow : row < files.image.height) (hcol : col < files.image.width) :
    scene.pixel row col = files.image.pixel row col := by
  have hsample (band : Fin bandCount) :
      files.image.layout.storedSample? (ImageCodec.uncompressed.decoder files.storage imageName) row col band =
        some (files.image.sample row col band) := by
    obtain ⟨chunk, hchunk, hsample⟩ := SceneImage.exists_fetch_decoder h.encodable h.made files.entry_image hrow hcol
    have hband : band.val < files.image.bands := Nat.lt_of_lt_of_eq band.isLt h.bands_eq.symm
    rw [ImageLayout.storedSample?_eq_some h.encodable.proper_layout hrow hcol hband hchunk, ImageLayout.sampleAt_eq hchunk]
    exact congrArg some (hsample band hband)
  rw [ReadableScene.pixel, reader_eq h scene]
  simp only [ImageLayout.rawPixel, ImageReader.decoder, hsample, Option.getD_some, h.encodable.maskValue_layout]
  rfl

end SceneFiles

/-! ### A shore -/

namespace SceneFiles

/-- A pixel of these samples in blue and near infrared. -/
def shorePixel (blue nir : UInt16) : List UInt16 := [100, blue, 100, 100, 100, 100, nir, 100]

/-- Two pixels are missing, three are deep water, two shallow water, and two are land. -/
def shorePixels : List (List UInt16) :=
  [List.replicate bandCount 9, shorePixel 1000 100, shorePixel 100 1000,
    shorePixel 100 1000, shorePixel 200 100, shorePixel 1000 100,
    shorePixel 200 100, shorePixel 1000 100, List.replicate bandCount 9]

/-- Three by three pixels in tiles of two by two, of which three reach beyond the image. -/
def shore : SceneFiles :=
  ⟨{ SceneImage.ofPixels 3 3 shorePixels with shape := .tiles 2 2, noData := some "9" }, .standard⟩

/-- The labels of the shore where shallow water has some label. -/
def shoreLabel (shallow : UInt8) (row col : Nat) : UInt8 :=
  (([[255, 2, 1], [1, shallow, 2], [shallow, 2, 255]] : List (List UInt8)).getD row []).getD col 0

/-- A run over the shore, with two threads and strips of two rows, that finds all water. -/
def shoreParams : DetectionParams := ⟨2, .parallelWith 2, .ndwiAbove 0⟩

theorem proper_shore : shore.Proper where
  made := .declaring (some "9") (.shaped (.tiles 2 2) (.ofPixels 3 3 shorePixels rfl (by decide)))
  encodable :=
    { width_pos := by decide, height_pos := by decide, bands_pos := by decide, chunkWidth_pos := by decide
      chunkHeight_pos := by decide, width_lt := by decide, height_lt := by decide, bands_lt := by decide
      chunkWidth_lt := by decide, chunkHeight_lt := by decide, start_lt := by decide +kernel
      noData := by
        intro text htext
        obtain rfl : "9" = text := Option.some.inj htext
        exact ⟨9, by decide +kernel, by decide⟩
      geo := by
        intro tags hgeo
        obtain rfl : GeoTags.utm10North = tags := Option.some.inj hgeo
        exact GeoTags.proper_utm10North }
  bands_eq := rfl
  placed := ⟨.utm10North, rfl⟩

/-- The metadata of the shore can be read. With it a detector finds either all water or only the deep water. -/
theorem exists_metadata_shore : ∃ metadata, SceneMetadata.load shore.storage inputs = .ok metadata ∧
    ∀ row col : Fin 3,
      ((WaterDetector.ofMetadata metadata (WaterRule.ndwiAbove 0)).detect (shore.image.pixel row col)).value =
        shoreLabel 2 row col ∧
      ((WaterDetector.ofMetadata metadata (WaterRule.ndwiAbove 0.5)).detect (shore.image.pixel row col)).value =
        shoreLabel 1 row col := by
  have hlabels : ((SceneMetadata.load shore.storage inputs).toOption.any fun metadata =>
      decide (∀ row col : Fin 3,
        ((WaterDetector.ofMetadata metadata (WaterRule.ndwiAbove 0)).detect (shore.image.pixel row col)).value =
          shoreLabel 2 row col ∧
        ((WaterDetector.ofMetadata metadata (WaterRule.ndwiAbove 0.5)).detect (shore.image.pixel row col)).value =
          shoreLabel 1 row col)) = true := by
    decide +kernel
  obtain ⟨metadata, hmetadata, hlabels⟩ := (Option.any_eq_true _ _).mp hlabels
  exact ⟨metadata, toOption_eq_some_iff.mp hmetadata, of_decide_eq_true hlabels⟩

theorem exists_scene_shore : ∃ scene : ReadableScene .uncompressed shore.storage inputs,
    (scene.height = 3 ∧ scene.width = 3) ∧ ∀ row col, row < 3 → col < 3 →
      scene.label (.ndwiAbove 0) row col = shoreLabel 2 row col ∧
      scene.label (.ndwiAbove 0.5) row col = shoreLabel 1 row col := by
  obtain ⟨metadata, hmetadata, hlabels⟩ := exists_metadata_shore
  obtain ⟨scene, rfl⟩ := exists_scene proper_shore hmetadata
  refine ⟨scene, ⟨height_eq proper_shore scene, width_eq proper_shore scene⟩, fun row col hrow hcol => ?_⟩
  rw [ReadableScene.label, ReadableScene.label, pixel_eq proper_shore scene hrow hcol]
  exact hlabels ⟨row, hrow⟩ ⟨col, hcol⟩

/-- The labels of all pixels of the shore, row after row. -/
theorem map_cells_shore (scene : ReadableScene .uncompressed shore.storage inputs) {rule : WaterRule} {shallow : UInt8}
    (hlabels : ∀ row col, row < 3 → col < 3 → scene.label rule row col = shoreLabel shallow row col) :
    scene.cells.map (fun cell => scene.label rule cell.1 cell.2) =
      (List.range 3 ×ˢ List.range 3).map fun cell => shoreLabel shallow cell.1 cell.2 := by
  have hheight : scene.height = 3 := height_eq proper_shore scene
  have hwidth : scene.width = 3 := width_eq proper_shore scene
  rw [ReadableScene.cells, hheight, hwidth]
  refine List.map_congr_left fun cell hcell => ?_
  obtain ⟨hrow, hcol⟩ := List.mem_product.mp hcell
  exact hlabels _ _ (List.mem_range.mp hrow) (List.mem_range.mp hcol)

/-- The labels of the shore may be kept beside its files or in place of its image. -/
theorem writable_shore : shore.storage.Writable "labels.tif" ∧ shore.storage.Writable imageName := by
  have hwritable {path : String} (hstaged : (shore.storage.stage path).toOption.isSome = true)
      (hdestination : (shore.storage.destination path).toOption.isSome = true) : shore.storage.Writable path := by
    obtain ⟨staged, hstaged⟩ := Option.isSome_iff_exists.mp hstaged
    obtain ⟨location, hdestination⟩ := Option.isSome_iff_exists.mp hdestination
    exact ⟨⟨staged, toOption_eq_some_iff.mp hstaged⟩, location, toOption_eq_some_iff.mp hdestination⟩
  exact ⟨hwritable (by decide +kernel) (by decide +kernel), hwritable (by decide +kernel) (by decide +kernel)⟩

theorem validate_shoreParams : shoreParams.validate = .ok () := toOption_eq_some_iff.mp (by decide +kernel)

/-- There is room for the labels in strips of any height. -/
theorem hasRoom_shore (scene : ReadableScene .uncompressed shore.storage inputs) {output : String}
    {params : DetectionParams} (houtput : shore.storage.Writable output) (hparams : params.validate = .ok ()) :
    scene.HasRoom output params where
  params_valid := hparams
  writable := houtput
  encodable := by
    obtain ⟨htileSize, -, -⟩ := DetectionParams.validate_eq_ok_iff.mp hparams
    have hoffset : ∀ n : Fin 3, UncompressedImage.directoryOffset 3 3 (n + 1) GeoTags.utm10North.reference
        WaterLabel.noData.value < UInt32.size := by
      decide +kernel
    have hheight : scene.height = 3 := height_eq proper_shore scene
    have hwidth : scene.width = 3 := width_eq proper_shore scene
    rw [ReadableScene.stripRows, hheight, hwidth, reference_eq proper_shore scene rfl]
    obtain ⟨n, hn⟩ : ∃ n : Fin 3, min params.tileSize 3 = n + 1 := ⟨⟨min params.tileSize 3 - 1, by omega⟩, by dsimp only; omega⟩
    rw [hn]
    exact ImageCodec.encodable_uncompressed ⟨by decide, by decide, by omega, by omega, by decide, by decide⟩ (hoffset n)
      GeoTags.proper_utm10North.geoAscii_text

end SceneFiles

end SurfaceWater
