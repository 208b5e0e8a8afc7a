import SurfaceWater.Proofs.Detection.Tally

/-!
# Thresholds

A rule with higher demands finds less water. What it finds is found by every rule with lower ones, because comparisons
of binary numbers are transitive; an index that is not a number meets no demand. Demands have nothing to do with missing
data, so the other pixels keep their labels or turn from land to water, and the counts of two runs follow from that
pixel by pixel.
-/

namespace SurfaceWater

/-! ### Comparisons -/

namespace Binary

variable {f : Format} {x y z : Binary f}

theorem le_iff : x ≤ y ↔ ∃ a ∈ x.rank?, ∃ b ∈ y.rank?, a ≤ b := by
  change x.le y = true ↔ _
  unfold le
  cases x.rank? <;> cases y.rank? <;> simp

theorem lt_iff : x < y ↔ ∃ a ∈ x.rank?, ∃ b ∈ y.rank?, a < b := by
  change x.lt y = true ↔ _
  unfold lt
  cases x.rank? <;> cases y.rank? <;> simp

theorem lt_of_le_of_lt (hxy : x ≤ y) (hyz : y < z) : x < z := by
  obtain ⟨a, ha, b, hb, hab⟩ := le_iff.mp hxy
  obtain ⟨b', hb', c, hc, hbc⟩ := lt_iff.mp hyz
  obtain rfl : b = b' := Option.some.inj (hb.symm.trans hb')
  exact lt_iff.mpr ⟨a, ha, c, hc, Int.lt_of_le_of_lt hab hbc⟩

theorem lt_of_lt_of_le (hxy : x < y) (hyz : y ≤ z) : x < z := by
  obtain ⟨a, ha, b, hb, hab⟩ := lt_iff.mp hxy
  obtain ⟨b', hb', c, hc, hbc⟩ := le_iff.mp hyz
  obtain rfl : b = b' := Option.some.inj (hb.symm.trans hb')
  exact lt_iff.mpr ⟨a, ha, c, hc, Int.lt_of_lt_of_le hab hbc⟩

end Binary

/-! ### Rules -/

namespace WaterRule

/-- A rule demands no less than another: more of NDWI, less of NDVI, or something of NDVI at all. -/
inductive Narrower : WaterRule → WaterRule → Prop where
  | ndwi {high low : Binary32} (h : low ≤ high) : Narrower (.ndwiAbove high) (.ndwiAbove low)
  | both {high low small large : Binary32} (hndwi : low ≤ high) (hndvi : small ≤ large) :
    Narrower (.ndwiAboveNdviBelow high small) (.ndwiAboveNdviBelow low large)
  | withoutNdvi {ndwiMin ndviMax : Binary32} : Narrower (.ndwiAboveNdviBelow ndwiMin ndviMax) (.ndwiAbove ndwiMin)

variable {rule other : WaterRule} {pixel : CalibratedPixel}

theorem Narrower.isWater (h : rule.Narrower other) (hwater : rule.isWater pixel = true) : other.isWater pixel = true := by
  cases h with
  | ndwi h =>
    exact decide_eq_true (Binary.lt_of_le_of_lt h (of_decide_eq_true hwater))
  | both hndwi hndvi =>
    obtain ⟨hmin, hmax⟩ := Bool.and_eq_true_iff.mp hwater
    exact Bool.and_eq_true_iff.mpr ⟨decide_eq_true (Binary.lt_of_le_of_lt hndwi (of_decide_eq_true hmin)),
      decide_eq_true (Binary.lt_of_lt_of_le (of_decide_eq_true hmax) hndvi)⟩
  | withoutNdvi => exact (Bool.and_eq_true_iff.mp hwater).1

theorem classify_eq_water_iff : rule.classify pixel = .water ↔ pixel.valid = true ∧ rule.isWater pixel = true := by
  unfold classify
  cases pixel.valid <;> cases rule.isWater pixel <;> simp

theorem classify_eq_noData_iff : rule.classify pixel = .noData ↔ pixel.valid = false := by
  unfold classify
  cases pixel.valid <;> cases rule.isWater pixel <;> simp

end WaterRule

/-! ### Scenes -/

theorem WaterLabel.value_injective : Function.Injective WaterLabel.value := by
  intro label other
  cases label <;> cases other <;> decide

/-- Where one labelling has no less water than another and both miss the same pixels, its counts show it. -/
theorem LabelCounts.ofList_map_le {cells : List (Nat × Nat)} {label label' : Nat × Nat → UInt8}
    (hlabel : ∀ cell ∈ cells, IsLabel (label cell) ∧ IsLabel (label' cell))
    (hwater : ∀ cell ∈ cells, label cell = 2 → label' cell = 2)
    (hnoData : ∀ cell ∈ cells, label cell = 255 ↔ label' cell = 255) :
    (ofList (cells.map label)).water ≤ (ofList (cells.map label')).water ∧
      (ofList (cells.map label')).land ≤ (ofList (cells.map label)).land ∧
      (ofList (cells.map label)).noData = (ofList (cells.map label')).noData := by
  have hland : ∀ cell ∈ cells, label' cell = 1 → label cell = 1 := by
    intro cell hcell hland
    obtain ⟨⟨found, hfound⟩, -⟩ := hlabel cell hcell
    cases found with
    | land => exact hfound
    | water => cases hland.symm.trans (hwater cell hcell hfound)
    | noData => cases hland.symm.trans ((hnoData cell hcell).mp hfound)
  simp only [ofList, List.count, List.countP_map]
  refine ⟨List.countP_mono_left fun cell hcell h => ?_, List.countP_mono_left fun cell hcell h => ?_,
    List.countP_congr fun cell hcell => ?_⟩
  · exact beq_iff_eq.mpr (hwater cell hcell (beq_iff_eq.mp h))
  · exact beq_iff_eq.mpr (hland cell hcell (beq_iff_eq.mp h))
  · exact beq_iff_eq.trans ((hnoData cell hcell).trans beq_iff_eq.symm)

/-- Paths that lead to the same metadata and to images with the same pixels, whatever decodes them. -/
structure SameScene (codec : ImageCodec) (storage : Storage) (inputs : List String) (codec' : ImageCodec)
    (storage' : Storage) (inputs' : List String) : Prop where
  metadata_eq : SceneMetadata.load storage inputs = SceneMetadata.load storage' inputs'
  samePixels : ∀ (scene : ReadableScene codec storage inputs) (other : ReadableScene codec' storage' inputs'),
    scene.SamePixels other

theorem SameScene.refl (codec : ImageCodec) (storage : Storage) (inputs : List String) :
    SameScene codec storage inputs codec storage inputs where
  metadata_eq := rfl
  samePixels scene other := by
    obtain rfl := scene.eq other
    exact ⟨rfl, rfl, rfl, fun _ _ _ _ _ => rfl⟩

section

variable {codec codec' : ImageCodec} {machine machine' : Machine} {storage storage' after after' : Storage}
  {inputs inputs' : List String} {output output' : String} {tileSize tileSize' : Nat} {mode mode' : ProcessingMode}
  {rule rule' : WaterRule} {report report' : DetectionReport}

namespace ReadableScene

variable {scene : ReadableScene codec storage inputs} {other : ReadableScene codec' storage' inputs'} {row col : Nat}

theorem label_eq_water_iff : scene.label rule row col = 2 ↔ (scene.pixel row col).valid = true ∧
    rule.isWater ((Calibrator.ofMetadata scene.metadata).reflectance (scene.pixel row col)) = true := by
  rw [← show WaterLabel.water.value = 2 from rfl, label, WaterLabel.value_injective.eq_iff]
  exact WaterRule.classify_eq_water_iff

theorem label_eq_noData_iff_valid : scene.label rule row col = 255 ↔ (scene.pixel row col).valid = false := by
  rw [← show WaterLabel.noData.value = 255 from rfl, label, WaterLabel.value_injective.eq_iff]
  exact WaterRule.classify_eq_noData_iff

/-- A pixel that is water for the narrower of two rules is water for the other one, and missing data is missing for
both. -/
theorem label_of_narrower (hscene : SameScene codec storage inputs codec' storage' inputs') (hrule : rule.Narrower rule')
    (hrow : row < scene.height) (hcol : col < scene.width) :
    (scene.label rule row col = 2 → other.label rule' row col = 2) ∧
      (scene.label rule row col = 255 ↔ other.label rule' row col = 255) := by
  have hmetadata : scene.metadata = other.metadata :=
    Except.ok.inj (scene.metadata_eq.symm.trans (hscene.metadata_eq.trans other.metadata_eq))
  rw [label_eq_water_iff, label_eq_water_iff, label_eq_noData_iff_valid, label_eq_noData_iff_valid,
    (hscene.samePixels scene other).pixel_eq hrow hcol, hmetadata]
  exact ⟨fun hwater => ⟨hwater.1, hrule.isWater hwater.2⟩, Iff.rfl⟩

end ReadableScene

/-- Of two runs over the same scene, with tiles of whatever sizes, in whatever modes and whatever decodes the image, the
one with the narrower rule labels fewer pixels as water: only such as the other run labels so, while the pixels without
data are the same. So it reports no more water and no less land. A codec that returns strips shows these labels in the
files. -/
theorem labels_of_narrower (hscene : SameScene codec storage inputs codec' storage' inputs') (hrule : rule.Narrower rule')
    (hrun : detectWater codec machine storage inputs output ⟨tileSize, mode, rule⟩ = (.ok report, after))
    (hrun' : detectWater codec' machine' storage' inputs' output' ⟨tileSize', mode', rule'⟩ = (.ok report', after')) :
    (report.height = report'.height ∧ report.width = report'.width) ∧
      (∃ label label' : Nat → Nat → UInt8,
        (codec.ReturnsStrips → LabelFile.ReadsAs codec after output report.height report.width label) ∧
        (codec'.ReturnsStrips → LabelFile.ReadsAs codec' after' output' report'.height report'.width label') ∧
        (∀ row col, row < report.height → col < report.width →
          (label row col = 2 → label' row col = 2) ∧ (label row col = 255 ↔ label' row col = 255)) ∧
        report.labels = .ofList ((List.range report.height ×ˢ List.range report.width).map fun cell => label cell.1 cell.2) ∧
        report'.labels =
          .ofList ((List.range report'.height ×ˢ List.range report'.width).map fun cell => label' cell.1 cell.2)) ∧
      report.labels.water ≤ report'.labels.water ∧ report'.labels.land ≤ report.labels.land ∧
      report.labels.noData = report'.labels.noData := by
  obtain ⟨scene, -⟩ := exists_scene_of_run hrun
  obtain ⟨other, -⟩ := exists_scene_of_run hrun'
  obtain ⟨⟨hheight, hwidth⟩, hcounts, -⟩ := scene.counts_of_run hrun
  obtain ⟨⟨hheight', hwidth'⟩, hcounts', -⟩ := other.counts_of_run hrun'
  have hpixels := hscene.samePixels scene other
  have hcells : other.cells = scene.cells := by
    rw [ReadableScene.cells, ReadableScene.cells, hpixels.height_eq, hpixels.width_eq]
  have hlabel {row col : Nat} (hrow : row < scene.height) (hcol : col < scene.width) :
      (scene.label rule row col = 2 → other.label rule' row col = 2) ∧
        (scene.label rule row col = 255 ↔ other.label rule' row col = 255) :=
    ReadableScene.label_of_narrower hscene hrule hrow hcol
  rw [hheight, hwidth, hheight', hwidth']
  refine ⟨⟨hpixels.height_eq, hpixels.width_eq⟩, ⟨scene.label rule, other.label rule', (scene.labels_of_run hrun).2,
    (other.labels_of_run hrun').2, fun row col => hlabel, hcounts, hcounts'⟩, ?_⟩
  rw [hcounts, hcounts', hcells]
  apply LabelCounts.ofList_map_le
  · exact fun cell _ => ⟨⟨_, rfl⟩, ⟨_, rfl⟩⟩
  · intro cell hcell
    obtain ⟨hrow, hcol⟩ := scene.mem_cells_iff.mp hcell
    exact (hlabel hrow hcol).1
  · intro cell hcell
    obtain ⟨hrow, hcol⟩ := scene.mem_cells_iff.mp hcell
    exact (hlabel hrow hcol).2

/-- With a threshold of 0.5 a run in parallel finds the deep water of the shore, and with one of 0 a run that goes row
by row finds the shallow water as well. -/
theorem labels_of_narrower_shore : ∃ report after report' after',
    detectWater .uncompressed .standard SceneFiles.shore.storage SceneFiles.inputs "labels.tif"
      ⟨2, .parallelWith 2, .ndwiAbove 0.5⟩ = (.ok report, after) ∧
    detectWater .uncompressed .standard SceneFiles.shore.storage SceneFiles.inputs "labels.tif"
      ⟨1, .sequential, .ndwiAbove 0⟩ = (.ok report', after') ∧
    (report.labels.water ≤ report'.labels.water ∧ report'.labels.land ≤ report.labels.land ∧
      report.labels.noData = report'.labels.noData) ∧
    report.labels = ⟨3, 4, 2⟩ ∧ report'.labels = ⟨5, 2, 2⟩ := by
  obtain ⟨scene, -, hlabels⟩ := SceneFiles.exists_scene_shore
  have hhigh : (⟨2, .parallelWith 2, .ndwiAbove 0.5⟩ : DetectionParams).validate.toOption = some () := by decide +kernel
  have hlow : (⟨1, .sequential, .ndwiAbove 0⟩ : DetectionParams).validate.toOption = some () := by decide +kernel
  obtain ⟨report, after, hrun⟩ := scene.exists_run .standard
    (SceneFiles.hasRoom_shore scene SceneFiles.writable_shore.1 (toOption_eq_some_iff.mp hhigh))
  obtain ⟨report', after', hrun'⟩ := scene.exists_run .standard
    (SceneFiles.hasRoom_shore scene SceneFiles.writable_shore.1 (toOption_eq_some_iff.mp hlow))
  obtain ⟨-, -, hcounts⟩ := labels_of_narrower (.refl _ _ _) (.ndwi (by decide)) hrun hrun'
  refine ⟨report, after, report', after', hrun, hrun', hcounts, ?_, ?_⟩
  · rw [(scene.counts_of_run hrun).2.1, SceneFiles.map_cells_shore scene fun row col hrow hcol => (hlabels row col hrow hcol).2]
    decide +kernel
  · rw [(scene.counts_of_run hrun').2.1, SceneFiles.map_cells_shore scene fun row col hrow hcol => (hlabels row col hrow hcol).1]
    decide +kernel

end

end SurfaceWater
