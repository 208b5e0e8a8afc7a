import SurfaceWater.Proofs.Detection.Outcome

/-!
# The result of a run

From the samples of an image to the labels that are read back. A scene whose files can all be read is
labelled whenever there is room for the labels. The labels are those that the detector gives to the
pixels, one by one: nothing of the chunks, the tiles, the strips or the threads shows in them, nor what the
files were decoded and encoded by.
-/

namespace SurfaceWater

variable {codec : ImageCodec} {machine : Machine} {storage : Storage} {inputs : List String} {output : String}
  {params : DetectionParams}

/-- A run for whose labels there is room succeeds, and they are read back. -/
theorem ReadableScene.exists_labels (scene : ReadableScene codec storage inputs) (machine : Machine) (hcodec : codec.ReturnsStrips)
    (hroom : scene.HasRoom output params) :
    ∃ report after, detectWater codec machine storage inputs output params = (.ok report, after) ∧
      LabelFile.ReadsAs codec after output scene.height scene.width (scene.label params.rule) := by
  obtain ⟨report, after, hrun⟩ := scene.exists_run machine hroom
  exact ⟨report, after, hrun, (scene.labels_of_run hrun).2 hcodec⟩

/-- A run over a scene succeeds when its output can be written and the encoder takes a raster of its size. What is
read back are the labels that the detector gives to the pixels one by one. A pixel has no data exactly where all
its samples have the value of missing pixels, and is land or water elsewhere. Any other run over the same pixels
gives the same labels, in whatever chunks and files they are kept, on whatever machine, with tiles of whatever size
and in whatever mode. All that is asked of a codec is that it returns the strips that it was told. -/
theorem detectWater_labels (hcodec : codec.ReturnsStrips) (scene : ReadableScene codec storage inputs)
    (hroom : scene.HasRoom output params) :
    (∃ report after, detectWater codec machine storage inputs output params = (.ok report, after) ∧
      LabelFile.ReadsAs codec after output scene.height scene.width (scene.label params.rule)) ∧
    (∀ row col, row < scene.height → col < scene.width →
      (∀ band : Fin bandCount, scene.sample? row col band = some (Vector.get (scene.pixel row col).dn band)) ∧
      (scene.label params.rule row col = 255 ↔ ∃ mask, scene.reader.layout.maskValue = some mask ∧
        ∀ band : Fin bandCount, scene.sample? row col band = some mask) ∧
      (scene.label params.rule row col ≠ 255 →
        scene.label params.rule row col = 1 ∨ scene.label params.rule row col = 2)) ∧
    ∀ codec' machine' storage' inputs' output' params' (scene' : ReadableScene codec' storage' inputs'),
      codec'.ReturnsStrips → scene'.HasRoom output' params' → scene.SamePixels scene' →
      scene'.metadata = scene.metadata → params'.rule = params.rule →
      ∃ report after, detectWater codec' machine' storage' inputs' output' params' = (.ok report, after) ∧
        LabelFile.ReadsAs codec' after output' scene.height scene.width (scene.label params.rule) := by
  refine ⟨scene.exists_labels machine hcodec hroom, ?_, ?_⟩
  · intro row col hrow hcol
    refine ⟨scene.sample?_eq hrow hcol, scene.label_eq_noData_iff params.rule hrow hcol, ?_⟩
    intro hlabel
    rcases scene.label_cases params.rule row col with ⟨-, hnoData⟩ | ⟨-, hcases⟩
    · exact absurd hnoData hlabel
    · exact hcases
  · intro codec' machine' storage' inputs' output' params' scene' hcodec' hroom' hsame hmetadata hrule
    obtain ⟨report, after, hrun, hreads⟩ := scene'.exists_labels machine' hcodec' hroom'
    rw [← hsame.height_eq, ← hsame.width_eq] at hreads
    refine ⟨report, after, hrun, hreads.congr fun row col hrow hcol => ?_⟩
    rw [ReadableScene.label, ReadableScene.label, hmetadata, hrule, hsame.pixel_eq hrow hcol]

/-- Strips of two rows and of one, in tiles of two columns and of one, show all three labels where they belong. -/
theorem detectWater_labels_shore : ∃ report after,
    detectWater .uncompressed .standard SceneFiles.shore.storage SceneFiles.inputs "labels.tif"
        SceneFiles.shoreParams = (.ok report, after) ∧
      LabelFile.ReadsAs .uncompressed after "labels.tif" 3 3 (SceneFiles.shoreLabel 2) := by
  obtain ⟨scene, ⟨hheight, hwidth⟩, hlabels⟩ := SceneFiles.exists_scene_shore
  have hroom := SceneFiles.hasRoom_shore scene SceneFiles.writable_shore.1 SceneFiles.validate_shoreParams
  obtain ⟨⟨report, after, hrun, hreads⟩, -⟩ :=
    @detectWater_labels .uncompressed .standard _ _ _ _ ImageCodec.returnsStrips_uncompressed scene hroom
  rw [hheight, hwidth] at hreads
  exact ⟨report, after, hrun, hreads.congr fun row col hrow hcol => (hlabels row col hrow hcol).1⟩

end SurfaceWater
