import SurfaceWater.Proofs.Calibration
import SurfaceWater.Proofs.Detection.Result
import SurfaceWater.Proofs.Metadata.Layout

/-!
# The bands of a rule

A rule looks at the reflectance in two or four bands, and the reflectance in a band depends on nothing of the other
bands: what all bands share is the position of the Sun. So scenes that agree on the Sun and on the bands of a rule have
the same labels. In a metadata file the coefficients of a band are lines of their own, and a line that gives another
value leaves the metadata as they were but for that value.
-/

namespace SurfaceWater

/-! ### Pixels -/

/-- The bands that a rule looks at. -/
def WaterRule.bands : WaterRule → List Band
  | ndwiAbove _ => [.blue, .nir1]
  | ndwiAboveNdviBelow .. => [.blue, .nir1, .red, .nir2]

/-- Two scenes have the same Sun, and the same coefficients in some bands. -/
structure SceneMetadata.AgreesOn (bands : List Band) (m other : SceneMetadata) : Prop where
  elevation_eq : m.geometry.meanSunElevation = other.geometry.meanSunElevation
  distance_eq : m.geometry.earthSunDistance = other.geometry.earthSunDistance
  coefficients_eq : ∀ band ∈ bands, m.coefficients.get band = other.coefficients.get band

/-- Two pixels both have data or both have none, and they have the same digital numbers in some bands. -/
structure RawPixel.AgreesOn (bands : List Band) (pixel other : RawPixel) : Prop where
  valid_eq : pixel.valid = other.valid
  dn_eq : ∀ band ∈ bands, pixel.dn.get band = other.dn.get band

/-- An index has the same value in two pixels with the same reflectance in its bands. -/
theorem SpectralIndex.ofPixel_congr (index : SpectralIndex) {pixel other : CalibratedPixel}
    (hfirst : pixel.reflectance.get index.bands.1 = other.reflectance.get index.bands.1)
    (hsecond : pixel.reflectance.get index.bands.2 = other.reflectance.get index.bands.2) :
    index.ofPixel pixel = index.ofPixel other := by
  rw [ofPixel, ofPixel, hfirst, hsecond]

theorem WaterRule.isWater_congr {rule : WaterRule} {pixel other : CalibratedPixel}
    (h : ∀ band ∈ rule.bands, pixel.reflectance.get band = other.reflectance.get band) :
    rule.isWater pixel = rule.isWater other := by
  cases rule with
  | ndwiAbove threshold =>
    simp only [bands, List.forall_mem_cons] at h
    obtain ⟨hblue, hnir1, -⟩ := h
    rw [isWater, isWater, SpectralIndex.ofPixel_congr .ndwi hblue hnir1]
  | ndwiAboveNdviBelow ndwiMin ndviMax =>
    simp only [bands, List.forall_mem_cons] at h
    obtain ⟨hblue, hnir1, hred, hnir2, -⟩ := h
    rw [isWater, isWater, SpectralIndex.ofPixel_congr .ndwi hblue hnir1,
      SpectralIndex.ofPixel_congr .ndvi hred hnir2]

theorem WaterRule.classify_congr {rule : WaterRule} {pixel other : CalibratedPixel} (hvalid : pixel.valid = other.valid)
    (h : ∀ band ∈ rule.bands, pixel.reflectance.get band = other.reflectance.get band) :
    rule.classify pixel = rule.classify other := by
  rw [classify, classify, hvalid, isWater_congr h]

/-- The reflectance in a band depends on the Sun, on the coefficients of the band and on its digital number. -/
theorem Calibrator.get_reflectance_congr {bands : List Band} {m other : SceneMetadata} {pixel otherPixel : RawPixel}
    (hm : m.AgreesOn bands other) (hpixel : pixel.AgreesOn bands otherPixel) {band : Band} (hband : band ∈ bands) :
    ((ofMetadata m).reflectance pixel).reflectance.get band =
      ((ofMetadata other).reflectance otherPixel).reflectance.get band := by
  have hscale : (ofMetadata m).scale = (ofMetadata other).scale := by
    simp only [ofMetadata, sceneScale, SceneGeometry.sunZenith, hm.elevation_eq, hm.distance_eq]
  have hirradiances : (ofMetadata m).irradiances = (ofMetadata other).irradiances := rfl
  rw [get_reflectance, get_reflectance, get_radiance, get_radiance, get_gains, get_gains, hm.coefficients_eq band hband,
    hpixel.dn_eq band hband, hscale, hirradiances]

/-- Only the bands of its rule matter to a detector. -/
theorem WaterDetector.detect_congr {rule : WaterRule} {m other : SceneMetadata} {pixel otherPixel : RawPixel}
    (hm : m.AgreesOn rule.bands other) (hpixel : pixel.AgreesOn rule.bands otherPixel) :
    (ofMetadata m rule).detect pixel = (ofMetadata other rule).detect otherPixel := by
  have hvalid : ((Calibrator.ofMetadata m).reflectance pixel).valid =
      ((Calibrator.ofMetadata other).reflectance otherPixel).valid := hpixel.valid_eq
  exact WaterRule.classify_congr hvalid fun band hband => Calibrator.get_reflectance_congr hm hpixel hband

/-! ### Files -/

namespace MetadataLines

theorem openBand?_eq_foldl (lines : List (List Char)) : openBand? lines lines.length = lines.foldl bandAfter none := by
  induction lines using List.reverseRecOn with
  | nil => rfl
  | append_singleton lines line ih =>
    rw [List.length_append, List.length_singleton, openBand?_concat, List.foldl_concat, ih]
    rfl

/-- A line that fills a slot gives the reading of that slot, between those of the lines above and below it. -/
theorem readings_of_fills {above below : List (List Char)} {line : List Char} {slot : MetadataSlot}
    (h : Fills (above ++ line :: below) above.length slot) :
    readings none (above ++ line :: below) = readings none above ++
      (slot.read? line).map (Prod.mk slot) :: readings (above.foldl bandAfter none) below := by
  obtain ⟨found, hfound, hkind, hband⟩ := h
  obtain rfl : line = found := by simpa using hfound
  rw [openBand?_append_of_le (Nat.le_refl _), openBand?_eq_foldl] at hband
  have hslot : slot? (above.foldl bandAfter none) slot.field = some slot := slot?_eq_some_iff.mpr ⟨rfl, hband⟩
  have hafter : bandAfter (above.foldl bandAfter none) line = above.foldl bandAfter none :=
    if_neg fun hgroup => by rw [LineKind.ofLine_eq_iff.mpr hkind] at hgroup; cases hgroup
  rw [readings_append, readings, reading_of_field hkind, hslot, hafter]
  rfl

/-- The second file has one line of the first replaced by another one for the same slot, with the given value. -/
def Revises (lines others : List (List Char)) (slot : MetadataSlot) (value : FieldValue) : Prop :=
  ∃ (above below : List (List Char)) (line other : List Char),
    lines = above ++ line :: below ∧ others = above ++ other :: below ∧ Fills lines above.length slot ∧
      Fills others above.length slot ∧ slot.read? other = some value

/-- Where one of the readings of all slots has another value, they are readings with another value in its slot. -/
theorem perm_update {first last : List (Option MetadataReading)} {values : MetadataSlot → FieldValue}
    {slot : MetadataSlot} (value : FieldValue)
    (h : (first ++ some (slot, values slot) :: last).Perm (MetadataSlot.all.map fun slot => some (slot, values slot))) :
    (first ++ some (slot, value) :: last).Perm
      (MetadataSlot.all.map fun other => some (other, Function.update values slot value other)) := by
  obtain ⟨before, after, hall⟩ := List.append_of_mem (MetadataSlot.mem_all slot)
  have hnodup : (slot :: (before ++ after)).Nodup := by
    rw [← List.perm_middle.nodup_iff, ← hall]
    exact MetadataSlot.nodup_all
  have hupdate : ∀ other ∈ before ++ after, some (other, Function.update values slot value other) =
      some (other, values other) := by
    intro other hother
    rw [Function.update_of_ne fun heq : other = slot => (List.nodup_cons.mp hnodup).1 (heq ▸ hother)]
  rw [hall, List.map_append, List.map_cons] at h ⊢
  -- without the slot both sides are as they were
  have hrest := (List.perm_middle.symm.trans (h.trans List.perm_middle)).cons_inv
  rw [← List.map_append, ← List.map_congr_left hupdate, List.map_append] at hrest
  rw [Function.update_self]
  exact List.perm_middle.trans ((hrest.cons _).trans List.perm_middle.symm)

end MetadataLines

namespace SceneMetadata

open MetadataLines

variable {m : SceneMetadata} {bytes others : List UInt8} {lines otherLines : List (List Char)} {slot : MetadataSlot}
  {band : Band} {value : FieldValue}

/-- A file stays one when a coefficient in it is replaced by another that metadata can have, and nothing else in the
metadata changes. -/
theorem parse_of_revises (hm : parse bytes = .ok m) (hlines : ReadsAs bytes lines) (hothers : ReadsAs others otherLines)
    (hrevises : Revises lines otherLines slot value) (hslot : slot.band? = some band) (hvalue : slot.Accepts value) :
    ∃ other, parse others = .ok other ∧ other.value = Function.update m.value slot value ∧
      other.geometry.earthSunDistance = m.geometry.earthSunDistance := by
  obtain ⟨above, below, line, revised, rfl, rfl, hfills, hfillsRevised, hread⟩ := hrevises
  obtain ⟨hperm, haccepts, instant, hinstant, hdistance⟩ := (parse_eq_ok_iff hlines).mp hm
  have hgiven : slot.read? line = some (m.value slot) := by
    have hmem : (slot.read? line).map (Prod.mk slot) ∈ MetadataSlot.all.map fun slot => some (slot, m.value slot) := by
      apply hperm.mem_iff.mp
      rw [readings_of_fills hfills]
      exact List.mem_append_right _ List.mem_cons_self
    obtain ⟨found, -, hfound⟩ := List.mem_map.mp hmem
    obtain ⟨given, hgiven, heq⟩ := Option.map_eq_some_iff.mp hfound.symm
    obtain ⟨rfl, rfl⟩ := Prod.mk.inj heq
    exact hgiven
  rw [readings_of_fills hfills, hgiven] at hperm
  have hupdate : ∀ slot' : MetadataSlot, slot'.Accepts (Function.update m.value slot value slot') := by
    intro slot'
    by_cases heq : slot' = slot
    · subst heq
      rwa [Function.update_self]
    · rw [Function.update_of_ne heq]
      exact haccepts slot'
  obtain ⟨other, otherInstant, hother, hotherInstant, hotherDistance⟩ := exists_value_eq hupdate
  have htime : other.geometry.firstLineTime.toList = m.geometry.firstLineTime.toList := by
    have hne : MetadataSlot.firstLineTime ≠ slot := by
      rintro rfl
      cases hslot
    have hstored := congrFun hother .firstLineTime
    rw [Function.update_of_ne hne] at hstored
    exact FieldValue.text.inj hstored
  refine ⟨other, (parse_eq_ok_iff hothers).mpr ⟨?_, fun slot => hother ▸ hupdate slot, otherInstant, hotherInstant,
    hotherDistance⟩, hother, ?_⟩
  · rw [readings_of_fills hfillsRevised, hread, hother]
    exact perm_update value hperm
  · rw [htime, hinstant] at hotherInstant
    rw [hotherDistance, hdistance, Except.ok.inj hotherInstant]

/-- Metadata in which one coefficient differs agree on all other bands. -/
theorem agreesOn_of_update {other : SceneMetadata} {bands : List Band} (hslot : slot.band? = some band)
    (hband : band ∉ bands) (hother : other.value = Function.update m.value slot value)
    (hdistance : other.geometry.earthSunDistance = m.geometry.earthSunDistance) : m.AgreesOn bands other where
  elevation_eq := by
    have hne : MetadataSlot.meanSunElevation ≠ slot := by
      rintro rfl
      cases hslot
    have hstored := congrFun hother .meanSunElevation
    rw [Function.update_of_ne hne] at hstored
    exact (FieldValue.number.inj hstored).symm
  distance_eq := hdistance.symm
  coefficients_eq := by
    intro used hused
    have hne (other : MetadataSlot) (hotherBand : other.band? = some used) : other ≠ slot := by
      rintro rfl
      obtain rfl := Option.some.inj (hotherBand.symm.trans hslot)
      exact hband hused
    have hfactor := congrFun hother (.absCalFactor used)
    have hbandwidth := congrFun hother (.effectiveBandwidth used)
    rw [Function.update_of_ne (hne _ rfl)] at hfactor hbandwidth
    exact (congrArg₂ BandCoefficients.mk (FieldValue.number.inj hfactor) (FieldValue.number.inj hbandwidth)).symm

end SceneMetadata

/-! ### Labels -/

/-- Scenes with the same pixels have the same labels if their metadata agree on the bands of the rule. -/
theorem ReadableScene.label_congr {codec codec' : ImageCodec} {storage storage' : Storage} {inputs inputs' : List String}
    {rule : WaterRule} {scene : ReadableScene codec storage inputs} {other : ReadableScene codec' storage' inputs'}
    (hpixels : scene.SamePixels other) (hmetadata : scene.metadata.AgreesOn rule.bands other.metadata) {row col : Nat} (hrow : row < scene.height)
    (hcol : col < scene.width) : scene.label rule row col = other.label rule row col := by
  have hpixel : (scene.pixel row col).AgreesOn rule.bands (other.pixel row col) := by
    rw [hpixels.pixel_eq hrow hcol]
    exact ⟨rfl, fun _ _ => rfl⟩
  exact congrArg WaterLabel.value (WaterDetector.detect_congr hmetadata hpixel)

open MetadataLines in
/-- A detector gives two pixels of two scenes the same label if they agree on the bands of its rule. In particular a file
of metadata stays one when a coefficient of another band is replaced in it, and then no pixel of any image has another
label than before. -/
theorem detect_of_agreesOn :
    (∀ (rule : WaterRule) (m other : SceneMetadata) (pixel otherPixel : RawPixel), m.AgreesOn rule.bands other →
      pixel.AgreesOn rule.bands otherPixel →
      (WaterDetector.ofMetadata m rule).detect pixel = (WaterDetector.ofMetadata other rule).detect otherPixel) ∧
    ∀ (rule : WaterRule) (bytes others : List UInt8) (lines otherLines : List (List Char)) (slot : MetadataSlot)
      (band : Band) (value : FieldValue) (m : SceneMetadata), SceneMetadata.parse bytes = .ok m → ReadsAs bytes lines →
      ReadsAs others otherLines → Revises lines otherLines slot value → slot.band? = some band → slot.Accepts value →
      band ∉ rule.bands →
      ∃ other, SceneMetadata.parse others = .ok other ∧ other.value = Function.update m.value slot value ∧
        (∀ pixel, (WaterDetector.ofMetadata m rule).detect pixel = (WaterDetector.ofMetadata other rule).detect pixel) ∧
        ∀ (codec codec' : ImageCodec) (machine machine' : Machine) (storage storage' : Storage)
          (inputs inputs' : List String) (output output' : String) (params params' : DetectionParams)
          (scene : ReadableScene codec storage inputs) (scene' : ReadableScene codec' storage' inputs'),
          codec.ReturnsStrips → codec'.ReturnsStrips → scene.metadata = m → scene'.metadata = other →
          scene.SamePixels scene' → params.rule = rule → params'.rule = rule →
          scene.HasRoom output params → scene'.HasRoom output' params' →
          ∃ report after report' after', detectWater codec machine storage inputs output params = (.ok report, after) ∧
            detectWater codec' machine' storage' inputs' output' params' = (.ok report', after') ∧
            LabelFile.ReadsAs codec after output scene.height scene.width (scene.label rule) ∧
            LabelFile.ReadsAs codec' after' output' scene.height scene.width (scene.label rule) := by
  refine ⟨fun rule m other pixel otherPixel => WaterDetector.detect_congr, ?_⟩
  intro rule bytes others lines otherLines slot band value m hm hlines hothers hrevises hslot hvalue hband
  obtain ⟨other, hother, hupdate, hdistance⟩ :=
    SceneMetadata.parse_of_revises hm hlines hothers hrevises hslot hvalue
  have hagrees : m.AgreesOn rule.bands other := SceneMetadata.agreesOn_of_update hslot hband hupdate hdistance
  refine ⟨other, hother, hupdate, fun pixel => WaterDetector.detect_congr hagrees ⟨rfl, fun _ _ => rfl⟩, ?_⟩
  intro codec codec' machine machine' storage storage' inputs inputs' output output' params params' scene scene' hcodec
    hcodec' hscene hscene' hpixels hrule hrule' hroom hroom'
  obtain ⟨report, after, hrun, hreads⟩ := scene.exists_labels machine hcodec hroom
  obtain ⟨report', after', hrun', hreads'⟩ := scene'.exists_labels machine' hcodec' hroom'
  rw [hrule] at hreads
  rw [hrule', ← hpixels.height_eq, ← hpixels.width_eq] at hreads'
  refine ⟨report, after, report', after', hrun, hrun', hreads, hreads'.congr fun row col hrow hcol => ?_⟩
  exact (ReadableScene.label_congr hpixels (hscene ▸ hscene' ▸ hagrees) hrow hcol).symm

open MetadataLines SceneMetadata in
/-- Another bandwidth and another digital number of the green band, which no rule looks at. -/
theorem detect_of_agreesOn_green : ∃ m other,
    parse (Text.encode (shortText "1;" "2;" "45;" "2016-10-23T18:44:52.145617Z;")) = .ok m ∧
    parse (Text.encode (String.ofList (((shortLines "1;" "2;" "45;" "2016-10-23T18:44:52.145617Z;").set 10
      "effectiveBandwidth = 3;".toList).flatMap (· ++ ['\n'])))) = .ok other ∧
    m.value (.effectiveBandwidth .green) = .number 2 ∧ other.value (.effectiveBandwidth .green) = .number 3 ∧
    ∀ (pixel : RawPixel) (dn : UInt16), (WaterDetector.ofMetadata m WaterRule.bothAtZero).detect pixel =
      (WaterDetector.ofMetadata other WaterRule.bothAtZero).detect { pixel with dn := pixel.dn.set .green dn } := by
  obtain ⟨m, hm, hvalue, -⟩ := exists_parse_ordinary
  have hlines : ReadsAs (Text.encode (shortText "1;" "2;" "45;" "2016-10-23T18:44:52.145617Z;"))
      (shortLines "1;" "2;" "45;" "2016-10-23T18:44:52.145617Z;") :=
    readsAs_of_spells (spells_shortText lineFeed_not_mem_ordinary) (by decide)
  have hothers : ReadsAs (Text.encode (String.ofList (((shortLines "1;" "2;" "45;" "2016-10-23T18:44:52.145617Z;").set 10
      "effectiveBandwidth = 3;".toList).flatMap (· ++ ['\n']))))
      ((shortLines "1;" "2;" "45;" "2016-10-23T18:44:52.145617Z;").set 10 "effectiveBandwidth = 3;".toList) :=
    readsAs_of_spells (spells_ofList (by decide +kernel)) (by decide)
  have hrevises : Revises (shortLines "1;" "2;" "45;" "2016-10-23T18:44:52.145617Z;")
      ((shortLines "1;" "2;" "45;" "2016-10-23T18:44:52.145617Z;").set 10 "effectiveBandwidth = 3;".toList)
      (.effectiveBandwidth .green) (.number 3) := by
    refine ⟨(shortLines "1;" "2;" "45;" "2016-10-23T18:44:52.145617Z;").take 10,
      (shortLines "1;" "2;" "45;" "2016-10-23T18:44:52.145617Z;").drop 11, "effectiveBandwidth = 2;".toList,
      "effectiveBandwidth = 3;".toList, by decide, by decide, ⟨"effectiveBandwidth = 2;".toList, by decide,
      LineKind.ofLine_eq_iff.mp (by decide), ?_⟩, ⟨"effectiveBandwidth = 3;".toList, by decide,
      LineKind.ofLine_eq_iff.mp (by decide), ?_⟩, by decide⟩
    · rintro _ ⟨⟩
      decide
    · rintro _ ⟨⟩
      decide
  obtain ⟨other, hother, hupdate, hdetect, -⟩ := detect_of_agreesOn.2 .bothAtZero _ _ _ _ _ .green _ m hm hlines hothers
    hrevises rfl ⟨by decide, by decide⟩ (by decide)
  have hunused : Band.green ∉ WaterRule.bothAtZero.bands := by decide
  refine ⟨m, other, hm, hother, ?_, ?_, fun pixel dn => (hdetect pixel).trans ?_⟩
  · rw [hvalue]
    rfl
  · rw [hupdate, Function.update_self]
  · refine detect_of_agreesOn.1 .bothAtZero other other _ _ ⟨rfl, rfl, fun _ _ => rfl⟩ ⟨rfl, fun band hband => ?_⟩
    exact (BandVector.get_set_ne pixel.dn dn (ne_of_mem_of_not_mem hband hunused)).symm

end SurfaceWater
