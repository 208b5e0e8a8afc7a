import SurfaceWater.Detector
import SurfaceWater.Proofs.Metadata.Layout
import SurfaceWater.Proofs.Numeric.Cosine

/-!
# Numbers of calibration

Which scenes are calibrated to numbers. Nothing that calibration computes can be negative: the coefficients are
positive, the square of the distance has no sign, and the Sun stands at an acute angle to the vertical. What is left
is overflow. All steps are monotone in the digital numbers, so that nothing overflows for any pixel if nothing does
for the brightest one. Each coefficient is checked on its own, and that does not rule overflow out.
-/

namespace SurfaceWater

open Binary

/-! ### Indices -/

section

variable {a b : Binary32} (ha : a.isFinite = true ∧ a.isNegative = false)
  (hb : b.isFinite = true ∧ b.isNegative = false)

include ha hb

/-- The difference of two numbers without a sign is finite, and no larger than their sum if that is finite. -/
theorem Binary.sub_atMost : (a - b).isFinite = true ∧ ((a + b).isFinite = true → (a - b).AtMost (a + b)) := by
  obtain ⟨p, hp⟩ := exists_magnitude? ha.1
  obtain ⟨q, hq⟩ := exists_magnitude? hb.1
  rw [sub_of_nonneg ha.2 hb.2 hp hq, add_of_nonneg ha.2 hb.2 hp hq]
  refine ⟨?_, atMost_ofUnits (by omega)⟩
  rcases Nat.le_total q p with hle | hle
  · exact (ofUnits_atMost Nat.one_pos hp (by omega)).isFinite_left
  · exact (ofUnits_atMost Nat.one_pos hq (by omega)).isFinite_left

theorem Binary.isNaN_add : (a + b).isNaN = false := by
  obtain ⟨p, hp⟩ := exists_magnitude? ha.1
  obtain ⟨q, hq⟩ := exists_magnitude? hb.1
  rw [add_of_nonneg ha.2 hb.2 hp hq]
  rfl

theorem normalizedDifference_bounds : -1 ≤ normalizedDifference a b ∧ normalizedDifference a b ≤ 1 := by
  have hone : (1 : Binary32).magnitude? = some (2 ^ Format.single.scale) := by decide
  have hzero : (0 : Binary32).AtMost 1 := by decide
  have hbound : (normalizedDifference a b).AtMost 1 := by
    obtain ⟨hfinite, hle⟩ := sub_atMost ha hb
    rw [normalizedDifference]
    split
    case isTrue => exact hzero
    case isFalse hsum =>
      rw [Bool.not_eq_true] at hsum
      cases hoverflow : (a + b).isFinite with
      | true => exact (hle hoverflow).div_one (exists_magnitude?_pos hoverflow hsum) hone
      | false =>
        obtain ⟨negative, hdiv⟩ := div_of_not_isFinite hfinite hoverflow (isNaN_add ha hb)
        rw [hdiv]
        cases negative <;> decide
  exact hbound.le rfl

end

/-! ### The factor of a scene -/

/-- The Sun stands at an acute angle to the vertical. -/
theorem SceneGeometry.radians_sunZenith_atMost {g : SceneGeometry}
    (h : 0 < g.meanSunElevation ∧ g.meanSunElevation ≤ 90) :
    (Binary64.radians g.sunZenith).AtMost (Binary64.radians 90.0) := by
  have hnonneg := isNegative_of_pos h.1
  have hninety : (90 : Binary32).convert .double = (90.0 : Binary64) := by decide +kernel
  have hfinite : (90.0 : Binary64).isFinite = true := by decide +kernel
  have helevation : (g.meanSunElevation.convert .double).AtMost (90.0 : Binary64) := by
    rw [← hninety]
    exact (atMost_of_le hnonneg h.2 (by decide)).convert .double (hninety ▸ hfinite)
  obtain ⟨e, he, n, hn, hle⟩ := helevation
  have hzenith := (sub_atMost_of_le (by decide +kernel) (isNegative_convert hnonneg) hn he hle).1
  exact hzenith.mul (by decide +kernel)

theorem Calibrator.isNegative_sceneScale {g : SceneGeometry} (h : 0 < g.meanSunElevation ∧ g.meanSunElevation ≤ 90) :
    (sceneScale g).isNegative = false := by
  have hpi : Binary64.pi.isNegative = false := by decide +kernel
  have hcos := isNegative_cos (g.radians_sunZenith_atMost h)
  exact isNegative_convert (isNegative_div (isNegative_mul (isNegative_mul_self _) hpi) hcos)

/-! ### Bands -/

theorem Band.irradiance_pos (band : Band) :
    (∃ units ∈ band.irradiance.magnitude?, 0 < units) ∧ band.irradiance.isNegative = false := by
  cases band <;> decide +kernel

namespace Calibrator

/-- The pixel with the largest digital number in every band. -/
def brightest : RawPixel := ⟨.ofBands fun _ => 65535, true⟩

section

variable (c : Calibrator) (pixel : RawPixel) (band : Band)

theorem get_radiance : (c.radiance pixel).get band = .ofNat (pixel.dn.get band).toNat * c.gains.get band := by
  simp [radiance, BandVector.get]

theorem get_reflectance : (c.reflectance pixel).reflectance.get band =
    (c.radiance pixel).get band * c.scale / c.irradiances.get band := by
  simp [reflectance, BandVector.get]

theorem get_gains (m : SceneMetadata) : (ofMetadata m).gains.get band = (m.coefficients.get band).gain := by
  simp [ofMetadata, BandVector.get]

end

/-- The gains of a calibrator and the numbers that it computes are finite and not below zero, and the indices lie
between -1 and 1. -/
structure IsNumeric (c : Calibrator) : Prop where
  gain : ∀ band, (c.gains.get band).isFinite = true ∧ 0 ≤ c.gains.get band
  radiance : ∀ (pixel : RawPixel) (band : Band),
    ((c.radiance pixel).get band).isFinite = true ∧ 0 ≤ (c.radiance pixel).get band
  reflectance : ∀ (pixel : RawPixel) (band : Band), ((c.reflectance pixel).reflectance.get band).isFinite = true ∧
    0 ≤ (c.reflectance pixel).reflectance.get band
  index : ∀ (pixel : RawPixel) (index : SpectralIndex),
    -1 ≤ index.ofPixel (c.reflectance pixel) ∧ index.ofPixel (c.reflectance pixel) ≤ 1

/-- No minus sign gets into a calibrator, and its irradiances are those of the sensor. -/
structure Unsigned (c : Calibrator) : Prop where
  gain : ∀ band, (c.gains.get band).isNegative = false
  scale : c.scale.isNegative = false
  irradiance : ∀ band, c.irradiances.get band = band.irradiance

theorem unsigned_ofMetadata {m : SceneMetadata} (h : m.Usable) : (ofMetadata m).Unsigned where
  gain band := by
    rw [get_gains]
    exact isNegative_div (isNegative_of_pos (h.accepts (.absCalFactor band)).2)
      (isNegative_of_pos (h.accepts (.effectiveBandwidth band)).2)
  scale := isNegative_sceneScale (h.accepts .meanSunElevation)
  irradiance band := BandVector.get_ofBands _ band

section

variable {c : Calibrator} (h : c.Unsigned) (pixel : RawPixel) (band : Band)

include h

theorem Unsigned.isNegative_radiance : ((c.radiance pixel).get band).isNegative = false := by
  rw [get_radiance]
  exact isNegative_mul rfl (h.gain band)

theorem Unsigned.isNegative_reflectance : ((c.reflectance pixel).reflectance.get band).isNegative = false := by
  rw [get_reflectance, h.irradiance]
  exact isNegative_div (isNegative_mul (h.isNegative_radiance pixel band) h.scale) band.irradiance_pos.2

/-- Where the reflectance of the brightest pixel is finite, its radiance and the gain are finite too, and the numbers
of every other pixel are no larger. -/
theorem Unsigned.atMost_brightest {band : Band}
    (hfinite : ((c.reflectance brightest).reflectance.get band).isFinite = true) :
    (c.gains.get band).isFinite = true ∧
      ((c.radiance pixel).get band).AtMost ((c.radiance brightest).get band) ∧
      ((c.reflectance pixel).reflectance.get band).AtMost ((c.reflectance brightest).reflectance.get band) := by
  rw [get_reflectance, get_reflectance, h.irradiance] at *
  have hscaled := isFinite_of_div hfinite
  have hradiance := (isFinite_of_mul hscaled).1
  have hle : ((c.radiance pixel).get band).AtMost ((c.radiance brightest).get band) := by
    rw [get_radiance, get_radiance] at *
    have hdn : (pixel.dn.get band).toNat ≤ (brightest.dn.get band).toNat := by
      rw [brightest, BandVector.get_ofBands]
      exact Nat.le_of_lt_succ (pixel.dn.get band).toNat_lt
    exact (atMost_ofNat hdn (isFinite_of_mul hradiance).1).mul hradiance
  refine ⟨?_, hle, (hle.mul hscaled).div band.irradiance_pos.1 hfinite⟩
  rw [get_radiance] at hradiance
  exact (isFinite_of_mul hradiance).2

end

theorem Unsigned.isNumeric_iff {c : Calibrator} (h : c.Unsigned) :
    c.IsNumeric ↔ ∀ band, ((c.reflectance brightest).reflectance.get band).isFinite = true := by
  constructor
  · intro hnumeric band
    exact (hnumeric.reflectance brightest band).1
  · intro hbright
    have hreflectance (pixel : RawPixel) (band : Band) : ((c.reflectance pixel).reflectance.get band).isFinite = true :=
      (h.atMost_brightest pixel (hbright band)).2.2.isFinite_left
    refine ⟨fun band => ?_, fun pixel band => ?_, fun pixel band => ?_, fun pixel index => ?_⟩
    · have hgain := (h.atMost_brightest brightest (hbright band)).1
      exact ⟨hgain, nonneg_of_isNegative (h.gain band) hgain⟩
    · have hradiance := (h.atMost_brightest pixel (hbright band)).2.1.isFinite_left
      exact ⟨hradiance, nonneg_of_isNegative (h.isNegative_radiance pixel band) hradiance⟩
    · exact ⟨hreflectance pixel band,
        nonneg_of_isNegative (h.isNegative_reflectance pixel band) (hreflectance pixel band)⟩
    · exact normalizedDifference_bounds ⟨hreflectance pixel _, h.isNegative_reflectance pixel _⟩
        ⟨hreflectance pixel _, h.isNegative_reflectance pixel _⟩

/-- What an accepted file is calibrated with gives numbers for every pixel exactly when it does for the brightest
one. -/
theorem isNumeric_of_parse_iff {bytes : List UInt8} {m : SceneMetadata} (h : SceneMetadata.parse bytes = .ok m) :
    (ofMetadata m).IsNumeric ↔
      ∀ band, (((ofMetadata m).reflectance brightest).reflectance.get band).isFinite = true :=
  (unsigned_ofMetadata (SceneMetadata.usable_of_parse h)).isNumeric_iff

open MetadataLines SceneMetadata in
/-- Coefficients of ordinary size give numbers for every pixel. -/
theorem isNumeric_of_parse_ordinary : ∃ m,
    parse (Text.encode (shortText "1;" "2;" "45;" "2016-10-23T18:44:52.145617Z;")) = .ok m ∧
      (ofMetadata m).IsNumeric := by
  obtain ⟨m, haccepted, hvalue, hdistance⟩ := exists_parse_ordinary
  have hfactor (band : Band) : (m.coefficients.get band).absCalFactor = 1 :=
    FieldValue.number.inj (congrFun hvalue (.absCalFactor band))
  have hbandwidth (band : Band) : (m.coefficients.get band).effectiveBandwidth = 2 :=
    FieldValue.number.inj (congrFun hvalue (.effectiveBandwidth band))
  have helevation : m.geometry.meanSunElevation = 45 := FieldValue.number.inj (congrFun hvalue .meanSunElevation)
  have hscale : (ofMetadata m).scale = .ofBits 1082960740 := by
    change sceneScale m.geometry = _
    rw [sceneScale, SceneGeometry.sunZenith, helevation, hdistance]
    decide +kernel
  refine ⟨m, haccepted, (isNumeric_of_parse_iff haccepted).mpr fun band => ?_⟩
  rw [get_reflectance, get_radiance, get_gains, BandCoefficients.gain, hfactor, hbandwidth, hscale,
    (unsigned_ofMetadata (usable_of_parse haccepted)).irradiance, brightest, BandVector.get_ofBands]
  cases band <;> decide +kernel

/-! ### Overflow -/

section

variable {m : SceneMetadata} {pixel : RawPixel} (hgain : ∀ band, (m.coefficients.get band).gain = .infinity false)

include hgain

/-- Zero times an infinite gain is not a number, and neither is anything computed from it. -/
theorem get_reflectance_of_overflow {band : Band} (hdn : pixel.dn.get band = 0) :
    ((ofMetadata m).reflectance pixel).reflectance.get band = .nan := by
  have hradiance : ((ofMetadata m).radiance pixel).get band = .nan := by
    rw [get_radiance, get_gains, hgain, hdn]
    decide +kernel
  rw [get_reflectance, hradiance]
  rfl

theorem ofPixel_of_overflow {index : SpectralIndex} (hfirst : pixel.dn.get index.bands.1 = 0)
    (hsecond : pixel.dn.get index.bands.2 = 0) : index.ofPixel ((ofMetadata m).reflectance pixel) = .nan := by
  rw [SpectralIndex.ofPixel, get_reflectance_of_overflow hgain hfirst, get_reflectance_of_overflow hgain hsecond]
  rfl

/-- A dark pixel is taken for land whatever the threshold. -/
theorem detect_of_overflow (hvalid : pixel.valid = true) (hblue : pixel.dn.get .blue = 0)
    (hnir : pixel.dn.get .nir1 = 0) (threshold : Binary32) :
    (WaterDetector.ofMetadata m (WaterRule.ndwiAbove threshold)).detect pixel = .land := by
  have hindex : SpectralIndex.ndwi.ofPixel ((ofMetadata m).reflectance pixel) = .nan :=
    ofPixel_of_overflow hgain hblue hnir
  have hdata : ((ofMetadata m).reflectance pixel).valid = true := hvalid
  have hlt : decide (threshold < (.nan : Binary32)) = false := by cases threshold <;> rfl
  change WaterRule.classify _ _ = _
  rw [WaterDetector.ofMetadata, WaterRule.classify, WaterRule.isWater, hdata, hindex, hlt]
  rfl

end

open MetadataLines SceneMetadata in
/-- Coefficients whose quotient overflows are accepted. A pixel that is dark in the bands of an index then has an index
that is not a number, and is taken for land whatever the threshold. -/
theorem not_isNumeric_overflow : ∃ (m : SceneMetadata) (pixel : RawPixel),
    parse (Text.encode (shortText "3e38;" "1e-10;" "45;" "2016-10-23T18:44:52.145617Z;")) = .ok m ∧ pixel.valid = true ∧
      (∀ band, (m.coefficients.get band).gain = .infinity false) ∧
      SpectralIndex.ndwi.ofPixel ((ofMetadata m).reflectance pixel) = .nan ∧
      (∀ threshold, (WaterDetector.ofMetadata m (WaterRule.ndwiAbove threshold)).detect pixel = .land) ∧
      ¬ (ofMetadata m).IsNumeric := by
  have hfeed : ∀ line ∈ shortLines "3e38;" "1e-10;" "45;" "2016-10-23T18:44:52.145617Z;", '\n' ∉ line := by
    decide +kernel
  have hreadings : (readings none (shortLines "3e38;" "1e-10;" "45;" "2016-10-23T18:44:52.145617Z;")).Perm
      (MetadataSlot.all.map fun slot =>
        some (slot, uniformValue 3e38 1e-10 45 "2016-10-23T18:44:52.145617Z" slot)) := by
    decide +kernel
  obtain ⟨m, haccepted, hvalue⟩ := exists_parse_shortText hfeed hreadings (by decide +kernel) (by decide +kernel)
    (by decide) ⟨⟨⟨2016, 10, 23⟩, 18, 44, 52, 145617⟩, by decide +kernel⟩
  have hgain (band : Band) : (m.coefficients.get band).gain = .infinity false := by
    have hfactor : (m.coefficients.get band).absCalFactor = 3e38 :=
      FieldValue.number.inj (congrFun hvalue (.absCalFactor band))
    have hbandwidth : (m.coefficients.get band).effectiveBandwidth = 1e-10 :=
      FieldValue.number.inj (congrFun hvalue (.effectiveBandwidth band))
    rw [BandCoefficients.gain, hfactor, hbandwidth]
    decide +kernel
  obtain ⟨pixel, hvalid, hblue, hnir⟩ : ∃ pixel : RawPixel,
      pixel.valid = true ∧ pixel.dn.get .blue = 0 ∧ pixel.dn.get .nir1 = 0 :=
    ⟨⟨.ofBands fun band => if band = .red then 1 else 0, true⟩, rfl, by decide, by decide⟩
  have hindex : SpectralIndex.ndwi.ofPixel ((ofMetadata m).reflectance pixel) = .nan :=
    ofPixel_of_overflow hgain hblue hnir
  refine ⟨m, pixel, haccepted, hvalid, hgain, hindex, detect_of_overflow hgain hvalid hblue hnir, fun hnumeric => ?_⟩
  have hrange := (hnumeric.index pixel .ndwi).1
  rw [hindex] at hrange
  cases hrange

end Calibrator

end SurfaceWater
