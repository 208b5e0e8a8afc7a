import Mathlib.Data.List.Nodup
import Mathlib.Data.List.Perm.Subperm
import Mathlib.Tactic.IntervalCases
import SurfaceWater.Proofs.Metadata.Scan

/-!
# Which metadata files are accepted

The end of a scan compares one counter with the number of slots and asks whether every slot was filled.
Both together hold only if every slot was filled once: there are as many slots as lines that filled one,
and no slot is left out, so none can be filled twice.
-/

namespace SurfaceWater

namespace MetadataScan

open MetadataLines

variable {scan : MetadataScan} {lines : List (List Char)}

/-! ### The counter -/

/-- The counter is right and no slot is empty exactly when every slot was filled by one line. -/
theorem Holds.once_iff (h : Holds scan lines) :
    (scan.found = requiredFields ∧ ∀ slot, ∃ value, scan.value? slot = some value) ↔
      ∀ slot, ∃! i, Fills lines i slot := by
  obtain ⟨seen, hnodup, hseen, hcount⟩ := h.found
  constructor
  · intro hall slot
    obtain ⟨hfound, hvalues⟩ := hall
    have hexists (slot : MetadataSlot) : ∃ i, Fills lines i slot := by
      obtain ⟨value, hvalue⟩ := hvalues slot
      obtain ⟨i, line, -, hfills, -⟩ := h.value_of slot value hvalue
      exact ⟨i, hfills⟩
    have hsubset : MetadataSlot.all ⊆ seen.map Prod.snd := by
      intro slot _
      obtain ⟨i, hfills⟩ := hexists slot
      exact List.mem_map.mpr ⟨(i, slot), (hseen i slot).mpr hfills, rfl⟩
    -- as many as there are slots, and all of them: each once
    have hperm : MetadataSlot.all.Perm (seen.map Prod.snd) := by
      apply (List.subperm_of_subset MetadataSlot.nodup_all hsubset).perm_of_length_le
      rw [List.length_map, ← hcount, hfound, MetadataSlot.length_all]
    have hslots : (seen.map Prod.snd).Nodup := hperm.nodup_iff.mp MetadataSlot.nodup_all
    obtain ⟨i, hi⟩ := hexists slot
    refine ⟨i, hi, fun j hj => ?_⟩
    have heq := List.inj_on_of_nodup_map hslots ((hseen j slot).mpr hj) ((hseen i slot).mpr hi) rfl
    exact (Prod.mk.inj heq).1
  · intro honce
    have hslots : (seen.map Prod.snd).Nodup := by
      apply hnodup.map_on
      rintro ⟨i, slot⟩ hi ⟨j, other⟩ hj (rfl : slot = other)
      rw [(honce slot).unique ((hseen i slot).mp hi) ((hseen j slot).mp hj)]
    have hperm : MetadataSlot.all.Perm (seen.map Prod.snd) := by
      apply (List.perm_ext_iff_of_nodup MetadataSlot.nodup_all hslots).mpr
      intro slot
      obtain ⟨i, hi, -⟩ := honce slot
      exact ⟨fun _ => List.mem_map.mpr ⟨(i, slot), (hseen i slot).mpr hi, rfl⟩, fun _ => MetadataSlot.mem_all slot⟩
    refine ⟨?_, fun slot => ?_⟩
    · rw [hcount, ← MetadataSlot.length_all, hperm.length_eq, List.length_map]
    · obtain ⟨i, hi, -⟩ := honce slot
      exact h.value i slot hi

/-! ### The end of a scan -/

theorem positive_eq_ok_iff {field : MetadataField} {band : Band} {value : Binary32} {done : Unit} :
    positive field band value = .ok done ↔ value.isFinite ∧ 0 < value := by
  unfold positive
  by_cases h : value.isFinite = true ∧ 0 < value <;> simp [h]

theorem bandCoefficients_eq_ok_iff {band : Band} {c : BandCoefficients} :
    scan.bandCoefficients band = .ok c ↔
      (scan.absCalFactor.get band = some c.absCalFactor ∧ c.absCalFactor.isFinite ∧ 0 < c.absCalFactor) ∧
      scan.effectiveBandwidth.get band = some c.effectiveBandwidth ∧
        c.effectiveBandwidth.isFinite ∧ 0 < c.effectiveBandwidth := by
  unfold bandCoefficients
  obtain ⟨factor, bandwidth⟩ := c
  cases hfactor : scan.absCalFactor.get band with
  | none => simp
  | some factor' =>
    cases hbandwidth : scan.effectiveBandwidth.get band with
    | none => simp
    | some bandwidth' =>
      simp only [bind_eq_ok_iff, pure_eq_ok_iff, positive_eq_ok_iff, BandCoefficients.mk.injEq, Option.some.injEq]
      constructor
      · intro h
        obtain ⟨-, hfactor, -, hbandwidth, rfl, rfl⟩ := h
        exact ⟨⟨rfl, hfactor⟩, rfl, hbandwidth⟩
      · intro h
        obtain ⟨⟨rfl, hfactor⟩, rfl, hbandwidth⟩ := h
        exact ⟨(), hfactor, (), hbandwidth, rfl, rfl⟩

theorem coefficients_eq_ok_iff {c : BandVector BandCoefficients} :
    scan.coefficients = .ok c ↔ ∀ band, scan.bandCoefficients band = .ok (c.get band) := by
  unfold coefficients
  simp only [bind_eq_ok_iff, pure_eq_ok_iff]
  constructor
  · rintro ⟨coastal, hcoastal, blue, hblue, green, hgreen, yellow, hyellow, red, hred, redEdge, hredEdge, nir1, hnir1,
      nir2, hnir2, rfl⟩ band
    cases band <;> assumption
  · intro h
    refine ⟨_, h .coastal, _, h .blue, _, h .green, _, h .yellow, _, h .red, _, h .redEdge, _, h .nir1, _, h .nir2, ?_⟩
    apply Vector.ext
    intro i hi
    interval_cases i <;> rfl

theorem elevation_eq_ok_iff {value : Binary32} :
    scan.elevation = .ok value ↔ scan.meanSunElevation = some value ∧ 0 < value ∧ value ≤ 90 := by
  unfold elevation
  cases scan.meanSunElevation with
  | none => simp
  | some read =>
    by_cases h : 0 < read ∧ read ≤ 90
    · simp only [h, and_self, if_true, Except.ok.injEq, Option.some.injEq]
      exact ⟨fun heq => ⟨heq, heq ▸ h⟩, And.left⟩
    · simp only [h, if_false, Option.some.injEq, reduceCtorEq, false_iff]
      exact fun heq => h (heq.1 ▸ heq.2)

theorem finish_eq_ok_iff {m : SceneMetadata} :
    scan.finish = .ok m ↔ scan.found = requiredFields ∧
      (∀ slot : MetadataSlot, scan.value? slot = some (m.value slot) ∧ slot.Accepts (m.value slot)) ∧
      ∃ instant, Instant.read m.geometry.firstLineTime.toList = .ok instant ∧
        m.geometry.earthSunDistance = instant.earthSunDistance := by
  unfold finish
  by_cases hfound : scan.found = requiredFields
  · simp only [hfound, ne_eq, not_true_eq_false, if_false, true_and, bind_eq_ok_iff, coefficients_eq_ok_iff,
      elevation_eq_ok_iff, bandCoefficients_eq_ok_iff]
    constructor
    · intro h
      obtain ⟨c, hc, elevation, helevation, hm⟩ := h
      split at hm
      · cases hm
      · rename_i text htext
        split at hm
        · cases hm
        · rename_i instant hinstant
          obtain rfl := Except.ok.inj hm
          refine ⟨fun slot => ?_, instant, by rwa [String.toList_ofList], rfl⟩
          cases slot with
          | absCalFactor band =>
            obtain ⟨⟨hfactor, haccepts⟩, -⟩ := hc band
            exact ⟨by simp [value?, SceneMetadata.value, hfactor], haccepts⟩
          | effectiveBandwidth band =>
            obtain ⟨-, hbandwidth, haccepts⟩ := hc band
            exact ⟨by simp [value?, SceneMetadata.value, hbandwidth], haccepts⟩
          | meanSunElevation =>
            exact ⟨by simp [value?, SceneMetadata.value, helevation.1], helevation.2⟩
          | firstLineTime =>
            exact ⟨by simp [value?, SceneMetadata.value, htext], instant, by rwa [String.toList_ofList]⟩
    · intro h
      obtain ⟨hslots, instant, hinstant, hdistance⟩ := h
      obtain ⟨c, elevation, distance, time⟩ := m
      have htime : scan.firstLineTime = some time.toList := by
        simpa [value?, SceneMetadata.value] using (hslots .firstLineTime).1
      refine ⟨c, fun band => ?_, elevation, ?_, ?_⟩
      · obtain ⟨hfactor, hfactorAccepts⟩ := hslots (.absCalFactor band)
        obtain ⟨hbandwidth, hbandwidthAccepts⟩ := hslots (.effectiveBandwidth band)
        exact ⟨⟨by simpa [value?, SceneMetadata.value] using hfactor, hfactorAccepts⟩,
          by simpa [value?, SceneMetadata.value] using hbandwidth, hbandwidthAccepts⟩
      · obtain ⟨helevation, haccepts⟩ := hslots .meanSunElevation
        exact ⟨by simpa [value?, SceneMetadata.value] using helevation, haccepts⟩
      · simp only [htime, hinstant, ← hdistance, String.ofList_toList]
        rfl
  · rw [if_pos hfound]
    constructor
    · intro h
      obtain ⟨_, h, -⟩ := bind_eq_ok_iff.mp h
      cases h
    · intro h
      obtain ⟨h, -⟩ := h
      exact absurd h hfound

end MetadataScan

/-! ### Accepted files -/

/-- The lines of a byte sequence are determined by it. -/
theorem ReadsAs.unique {bytes : List UInt8} {lines others : List (List Char)} (h : ReadsAs bytes lines)
    (hothers : ReadsAs bytes others) : others = lines :=
  List.map_injective_iff.mpr (Option.some_injective _) (hothers.symm.trans h)

namespace SceneMetadata

open MetadataLines

/-- Metadata can hold any values that its slots accept. -/
theorem exists_value_eq {values : MetadataSlot → FieldValue} (h : ∀ slot : MetadataSlot, slot.Accepts (values slot)) :
    ∃ (m : SceneMetadata) (instant : Instant), m.value = values ∧
      Instant.read m.geometry.firstLineTime.toList = .ok instant ∧
      m.geometry.earthSunDistance = instant.earthSunDistance := by
  have hfactor (band : Band) : ∃ x, values (.absCalFactor band) = .number x := by
    have := h (.absCalFactor band)
    cases hvalue : values (.absCalFactor band) with
    | number x => exact ⟨x, rfl⟩
    | text time => simp [hvalue, MetadataSlot.Accepts] at this
  have hbandwidth (band : Band) : ∃ x, values (.effectiveBandwidth band) = .number x := by
    have := h (.effectiveBandwidth band)
    cases hvalue : values (.effectiveBandwidth band) with
    | number x => exact ⟨x, rfl⟩
    | text time => simp [hvalue, MetadataSlot.Accepts] at this
  have helevation : ∃ x, values .meanSunElevation = .number x := by
    have := h .meanSunElevation
    cases hvalue : values .meanSunElevation with
    | number x => exact ⟨x, rfl⟩
    | text time => simp [hvalue, MetadataSlot.Accepts] at this
  have htime : ∃ time instant, values .firstLineTime = .text time ∧ Instant.read time = .ok instant := by
    have := h .firstLineTime
    cases hvalue : values .firstLineTime with
    | number x => simp [hvalue, MetadataSlot.Accepts] at this
    | text time =>
      rw [hvalue] at this
      obtain ⟨instant, hinstant⟩ := this
      exact ⟨time, instant, rfl, hinstant⟩
  choose factor hfactor using hfactor
  choose bandwidth hbandwidth using hbandwidth
  obtain ⟨elevation, helevation⟩ := helevation
  obtain ⟨time, instant, htime, hinstant⟩ := htime
  refine ⟨⟨.ofBands fun band => ⟨factor band, bandwidth band⟩,
    ⟨elevation, instant.earthSunDistance, String.ofList time⟩⟩, instant, ?_, by rwa [String.toList_ofList], rfl⟩
  funext slot
  cases slot with
  | absCalFactor band => simp [value, hfactor]
  | effectiveBandwidth band => simp [value, hbandwidth]
  | meanSunElevation => simp [value, helevation]
  | firstLineTime => simp [value, htime]

end SceneMetadata

namespace MetadataScan

open MetadataLines

variable {scan : MetadataScan} {lines : List (List Char)}

/-- A slot that is filled once holds the value of the line that fills it. -/
theorem Holds.value?_eq (h : Holds scan lines) {slot : MetadataSlot} (honce : ∃! i, Fills lines i slot) {i : Nat}
    {line : List Char} (hline : lines[i]? = some line) (hfills : Fills lines i slot) :
    scan.value? slot = slot.read? line := by
  obtain ⟨value, hvalue⟩ := h.value i slot hfills
  obtain ⟨j, other, hother, hfillsOther, hread⟩ := h.value_of slot value hvalue
  rw [honce.unique hfillsOther hfills, hline] at hother
  rw [hvalue, Option.some.inj hother, hread]

/-- The end of a scan succeeds exactly for the lines of a complete file. -/
theorem Holds.exists_finish_iff (h : Holds scan lines) : (∃ m, scan.finish = .ok m) ↔ Complete lines := by
  simp only [finish_eq_ok_iff]
  constructor
  · intro h
    obtain ⟨m, hfound, hvalues, -⟩ := h
    have honce := h.once_iff.mp ⟨hfound, fun slot => ⟨_, (hvalues slot).1⟩⟩
    refine ⟨h.toReadable, honce, fun i line slot value hline hfills hread => ?_⟩
    obtain ⟨hvalue, haccepts⟩ := hvalues slot
    rw [h.value?_eq (honce slot) hline hfills, hread] at hvalue
    rwa [Option.some.inj hvalue]
  · intro hcomplete
    obtain ⟨hfound, hvalues⟩ := h.once_iff.mpr hcomplete.once
    choose values hvalues using hvalues
    have haccepts (slot : MetadataSlot) : slot.Accepts (values slot) := by
      obtain ⟨i, line, hline, hfills, hread⟩ := h.value_of slot (values slot) (hvalues slot)
      exact hcomplete.accepted i line slot _ hline hfills hread
    obtain ⟨m, instant, hm, hinstant⟩ := SceneMetadata.exists_value_eq haccepts
    refine ⟨m, hfound, fun slot => ?_, instant, hinstant⟩
    rw [hm]
    exact ⟨hvalues slot, haccepts slot⟩

end MetadataScan

namespace SceneMetadata

open MetadataLines

/-- A byte sequence is accepted exactly when it is the text of a complete file, and then every slot holds
the value of the one line that fills it. -/
theorem parse_accepts_iff (bytes : List UInt8) :
    ((∃ m, parse bytes = .ok m) ↔ ∃ lines, ReadsAs bytes lines ∧ Complete lines) ∧
      ∀ m lines, parse bytes = .ok m → ReadsAs bytes lines →
        (∀ slot i line, lines[i]? = some line → Fills lines i slot → slot.read? line = some (m.value slot)) ∧
        ∃ instant, Instant.read m.geometry.firstLineTime.toList = .ok instant ∧
          m.geometry.earthSunDistance = instant.earthSunDistance := by
  refine ⟨⟨?_, ?_⟩, ?_⟩
  · intro h
    obtain ⟨m, hm⟩ := h
    obtain ⟨scan, hscan, hfinish⟩ := bind_eq_ok_iff.mp hm
    obtain ⟨lines, hlines, hholds⟩ := MetadataScan.holds_start.run hscan
    exact ⟨lines, hlines, hholds.exists_finish_iff.mp ⟨m, hfinish⟩⟩
  · intro h
    obtain ⟨lines, hlines, hcomplete⟩ := h
    obtain ⟨scan, hscan⟩ := MetadataScan.holds_start.exists_run 1 hlines hcomplete.toReadable
    obtain ⟨lines', hlines', hholds⟩ := MetadataScan.holds_start.run hscan
    obtain rfl := ReadsAs.unique hlines hlines'
    obtain ⟨m, hfinish⟩ := hholds.exists_finish_iff.mpr hcomplete
    exact ⟨m, bind_eq_ok_iff.mpr ⟨scan, hscan, hfinish⟩⟩
  · intro m lines hm hlines
    obtain ⟨scan, hscan, hfinish⟩ := bind_eq_ok_iff.mp hm
    obtain ⟨lines', hlines', hholds⟩ := MetadataScan.holds_start.run hscan
    obtain rfl := ReadsAs.unique hlines hlines'
    have honce := (hholds.exists_finish_iff.mp ⟨m, hfinish⟩).once
    obtain ⟨-, hvalues, hinstant⟩ := MetadataScan.finish_eq_ok_iff.mp hfinish
    refine ⟨fun slot i line hline hfills => ?_, hinstant⟩
    rw [← hholds.value?_eq (honce slot) hline hfills]
    exact (hvalues slot).1

end SceneMetadata

end SurfaceWater
