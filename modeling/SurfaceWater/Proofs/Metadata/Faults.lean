import SurfaceWater.Proofs.Metadata.Acceptance
import SurfaceWater.Proofs.Metadata.LineFaults

/-!
# Which fault is reported

A file can have several faults. A line that stops the reading comes before all that can only be seen at the end, and of
several such lines the first counts. At the end the number of values is compared first, then the bands are gone through
in their order, then come the elevation of the Sun and the time. A value that was given twice is the one given last.
-/

namespace SurfaceWater

namespace MetadataLines

variable {lines : List (List Char)} {line : List Char} {fault : MetadataFault}

/-! ### What lines add up to -/

/-- How many lines give a field. -/
def fieldCount (lines : List (List Char)) : Nat :=
  lines.countP fun line => match LineKind.ofLine line with
    | .field _ => true
    | _ => false

/-- The last line that fills a slot gives it a value. -/
def Gives (lines : List (List Char)) (slot : MetadataSlot) (value : FieldValue) : Prop :=
  ∃ i line, lines[i]? = some line ∧ Fills lines i slot ∧ slot.read? line = some value ∧ ∀ j, i < j → ¬ Fills lines j slot

/-- No line fills a slot. -/
def Lacks (lines : List (List Char)) (slot : MetadataSlot) : Prop := ∀ i, ¬ Fills lines i slot

/-- Why a band has no coefficients that can be used. That one is missing comes before the sign of the other. -/
inductive BandFault (lines : List (List Char)) (band : Band) : MetadataFault → Prop where
  | incomplete (lacks : Lacks lines (.absCalFactor band) ∨ Lacks lines (.effectiveBandwidth band)) :
    BandFault lines band (.incompleteBand band)
  | absCalFactor {factor bandwidth : Binary32} (factorGiven : Gives lines (.absCalFactor band) (.number factor))
    (bandwidthGiven : Gives lines (.effectiveBandwidth band) (.number bandwidth))
    (unusable : ¬ (factor.isFinite ∧ 0 < factor)) : BandFault lines band (.notPositive .absCalFactor band factor)
  | effectiveBandwidth {factor bandwidth : Binary32} (factorGiven : Gives lines (.absCalFactor band) (.number factor))
    (bandwidthGiven : Gives lines (.effectiveBandwidth band) (.number bandwidth)) (usable : factor.isFinite ∧ 0 < factor)
    (unusable : ¬ (bandwidth.isFinite ∧ 0 < bandwidth)) :
    BandFault lines band (.notPositive .effectiveBandwidth band bandwidth)

inductive ElevationFault (lines : List (List Char)) : MetadataFault → Prop where
  | missing (lacks : Lacks lines .meanSunElevation) : ElevationFault lines (.missing .meanSunElevation)
  | outOfRange {elevation : Binary32} (given : Gives lines .meanSunElevation (.number elevation))
    (outside : ¬ (0 < elevation ∧ elevation ≤ 90)) : ElevationFault lines (.elevationOutOfRange elevation)

inductive TimeFault (lines : List (List Char)) : MetadataFault → Prop where
  | missing (lacks : Lacks lines .firstLineTime) : TimeFault lines (.missing .firstLineTime)
  | malformed {text : List Char} {fault : TimestampFault} (given : Gives lines .firstLineTime (.text text))
    (unread : Instant.read text = .error fault) : TimeFault lines (.timestamp text fault)

/-- Why lines that can all be used do not make a complete file. -/
inductive EndFault (lines : List (List Char)) : MetadataFault → Prop where
  | count (wrong : fieldCount lines ≠ requiredFields) : EndFault lines (.fieldCount (fieldCount lines))
  | band {before after : List Band} {band : Band} {fault : MetadataFault} (counted : fieldCount lines = requiredFields)
    (order : Band.all = before ++ band :: after) (first : ∀ b ∈ before, ∀ fault, ¬ BandFault lines b fault)
    (unusable : BandFault lines band fault) : EndFault lines fault
  | elevation {fault : MetadataFault} (counted : fieldCount lines = requiredFields)
    (bands : ∀ band fault, ¬ BandFault lines band fault) (unusable : ElevationFault lines fault) : EndFault lines fault
  | time {fault : MetadataFault} (counted : fieldCount lines = requiredFields)
    (bands : ∀ band fault, ¬ BandFault lines band fault) (elevation : ∀ fault, ¬ ElevationFault lines fault)
    (unusable : TimeFault lines fault) : EndFault lines fault

/-! ### One more line -/

theorem fieldCount_concat_of_field {field : MetadataField} (kind : LineKind.Describes line (.field field)) :
    fieldCount (lines ++ [line]) = fieldCount lines + 1 := by
  simp [fieldCount, List.countP_append, LineKind.ofLine_eq_iff.mpr kind]

theorem fieldCount_concat_of_not_field (kind : ∀ field, ¬ LineKind.Describes line (.field field)) :
    fieldCount (lines ++ [line]) = fieldCount lines := by
  cases hkind : LineKind.ofLine line with
  | field field => exact absurd (LineKind.ofLine_eq_iff.mp hkind) (kind field)
  | group | other => simp [fieldCount, List.countP_append, hkind]

end MetadataLines

namespace MetadataScan

open MetadataLines

section

variable {lines : List (List Char)} {line : List Char} {slot : MetadataSlot} {value : FieldValue}

/-- A line that does not fill a slot leaves it its value. -/
theorem gives_concat_of_fills_iff (h : ∀ i, Fills (lines ++ [line]) i slot ↔ Fills lines i slot) :
    Gives (lines ++ [line]) slot value ↔ Gives lines slot value := by
  simp only [Gives, h]
  constructor
  · rintro ⟨i, found, hfound, hfills, hread, hlast⟩
    exact ⟨i, found, by rwa [List.getElem?_append_left hfills.lt] at hfound, hfills, hread, hlast⟩
  · rintro ⟨i, found, hfound, hfills, hread, hlast⟩
    exact ⟨i, found, by rwa [List.getElem?_append_left hfills.lt], hfills, hread, hlast⟩

theorem gives_concat_self (hline : Fills (lines ++ [line]) lines.length slot) :
    Gives (lines ++ [line]) slot value ↔ slot.read? line = some value := by
  have hfound : (lines ++ [line])[lines.length]? = some line := by simp
  constructor
  · rintro ⟨i, found, hi, hfills, hread, hlast⟩
    rcases getElem?_concat_cases hi with ⟨hlt, -⟩ | ⟨-, rfl⟩
    · exact absurd hline (hlast _ hlt)
    · exact hread
  · intro hread
    refine ⟨lines.length, line, hfound, hline, hread, fun j hj hfills => ?_⟩
    have hlt := hfills.lt
    rw [List.length_append, List.length_singleton] at hlt
    omega

end

/-! ### What a scan keeps -/

/-- A scan after some lines has counted those that give a field, and keeps the last value of every slot. -/
structure Keeps (scan : MetadataScan) (lines : List (List Char)) : Prop extends Holds scan lines where
  count : scan.found = fieldCount lines
  last : ∀ slot value, scan.value? slot = some value ↔ Gives lines slot value

theorem keeps_start : Keeps start [] where
  toHolds := holds_start
  count := rfl
  last := fun slot value => by
    rw [value?_start]
    exact iff_of_false (by simp) fun ⟨i, line, hline, _⟩ => by simp at hline

section

variable {scan next : MetadataScan} {lines : List (List Char)} {line : List Char} {lineNumber : Nat}

theorem Keeps.step (h : Keeps scan lines) (hnext : scan.line lineNumber line = .ok next) :
    Keeps next (lines ++ [line]) := by
  have hholds := h.toHolds.step hnext
  cases step_of_line hnext with
  | passes kind found values =>
    refine ⟨hholds, by rw [found, h.count, fieldCount_concat_of_not_field kind], fun slot value => ?_⟩
    rw [values, h.last, gives_concat_of_fills_iff fun i => fills_concat_of_not_field kind]
  | fills slot value kind group read found values =>
    rw [h.band] at group
    have hline : Fills (lines ++ [line]) lines.length slot := fills_concat_iff.mpr ⟨kind, group⟩
    refine ⟨hholds, by rw [found, h.count, fieldCount_concat_of_field kind], fun other given => ?_⟩
    rw [values]
    by_cases hother : other = slot
    · subst hother
      rw [Function.update_self, gives_concat_self hline, read]
    · have hfills (i : Nat) : Fills (lines ++ [line]) i other ↔ Fills lines i other := by
        rw [fills_concat_of_field hline]
        exact or_iff_left fun hlast => hother hlast.2
      rw [Function.update_of_ne hother, gives_concat_of_fills_iff hfills, h.last]

/-- A scan that comes to the end of its lines keeps what all of them add up to. -/
theorem Keeps.run {past : List (List Char)} {rest : List (List UInt8)} (h : Keeps scan past)
    (hrest : MetadataScan.lines lineNumber scan rest = .ok next) :
    ∃ texts, rest.map (fun line => (Text.decode? line).map String.toList) = texts.map some ∧
      Keeps next (past ++ texts) := run_of_step Keeps.step h hrest

theorem Keeps.eq_none_iff (h : Keeps scan lines) (slot : MetadataSlot) : scan.value? slot = none ↔ Lacks lines slot := by
  constructor
  · intro hnone i hfills
    obtain ⟨value, hvalue⟩ := h.value i slot hfills
    rw [hnone] at hvalue
    cases hvalue
  · intro hlacks
    cases hvalue : scan.value? slot with
    | none => rfl
    | some value =>
      obtain ⟨i, line, -, hfills, -⟩ := h.value_of slot value hvalue
      exact absurd hfills (hlacks i)

end

/-! ### The end of a scan -/

section

variable {scan : MetadataScan} {lines : List (List Char)} {fault : MetadataFault} {band : Band}

theorem positive_eq_error_iff {field : MetadataField} {value : Binary32} :
    positive field band value = .error fault ↔ ¬ (value.isFinite ∧ 0 < value) ∧ fault = .notPositive field band value := by
  unfold positive
  by_cases h : value.isFinite = true ∧ 0 < value
  · simp [h]
  · simpa [h] using eq_comm

/-- A band is refused for its fault. -/
theorem bandCoefficients_eq_error_iff (h : Keeps scan lines) :
    scan.bandCoefficients band = .error fault ↔ BandFault lines band fault := by
  have hfactor := h.eq_none_iff (.absCalFactor band)
  have hbandwidth := h.eq_none_iff (.effectiveBandwidth band)
  have hfactorGiven (x : Binary32) := h.last (.absCalFactor band) (.number x)
  have hbandwidthGiven (x : Binary32) := h.last (.effectiveBandwidth band) (.number x)
  simp only [value?, Option.map_eq_none_iff, Option.map_eq_some_iff, FieldValue.number.injEq, exists_eq_right] at *
  constructor
  · intro herror
    unfold bandCoefficients at herror
    split at herror
    · rename_i factor bandwidth hfactorRead hbandwidthRead
      rw [hfactorGiven] at hfactorRead
      rw [hbandwidthGiven] at hbandwidthRead
      rw [bind_eq_error_iff, positive_eq_error_iff] at herror
      rcases herror with ⟨hunusable, rfl⟩ | ⟨_, husable, herror⟩
      · exact .absCalFactor hfactorRead hbandwidthRead hunusable
      · obtain ⟨hunusable, rfl⟩ := positive_eq_error_iff.mp (bind_pure_eq_error_iff.mp herror)
        exact .effectiveBandwidth hfactorRead hbandwidthRead (positive_eq_ok_iff.mp husable) hunusable
    · rename_i hnotBoth
      obtain rfl := Except.error.inj herror
      refine .incomplete ?_
      rw [← hfactor, ← hbandwidth]
      cases hfactorRead : scan.absCalFactor.get band with
      | none => exact .inl rfl
      | some factor => exact .inr (Option.eq_none_iff_forall_ne_some.mpr fun bandwidth => hnotBoth factor bandwidth hfactorRead)
  · intro hfault
    unfold bandCoefficients
    cases hfault with
    | incomplete lacks =>
      rw [← hfactor, ← hbandwidth] at lacks
      rcases lacks with hnone | hnone
      · rw [hnone]
      · rw [hnone]
        cases scan.absCalFactor.get band <;> rfl
    | absCalFactor factorGiven bandwidthGiven unusable =>
      rw [← hfactorGiven] at factorGiven
      rw [← hbandwidthGiven] at bandwidthGiven
      rw [factorGiven, bandwidthGiven]
      exact bind_eq_error_iff.mpr (.inl (positive_eq_error_iff.mpr ⟨unusable, rfl⟩))
    | effectiveBandwidth factorGiven bandwidthGiven usable unusable =>
      rw [← hfactorGiven] at factorGiven
      rw [← hbandwidthGiven] at bandwidthGiven
      rw [factorGiven, bandwidthGiven]
      refine bind_eq_error_iff.mpr (.inr ⟨(), positive_eq_ok_iff.mpr usable, ?_⟩)
      exact bind_pure_eq_error_iff.mpr (positive_eq_error_iff.mpr ⟨unusable, rfl⟩)

/-- The coefficients are those of the bands in their order. -/
theorem coefficients_toList : Vector.toList <$> scan.coefficients = Band.all.mapM scan.bandCoefficients := by
  simp only [coefficients, Band.all, List.mapM_cons, List.mapM_nil, map_bind, bind_assoc, pure_bind, map_pure]
  rfl

/-- The bands are refused for the fault of the first that has one. -/
theorem coefficients_eq_error_iff (h : Keeps scan lines) : scan.coefficients = .error fault ↔
    ∃ before band after, Band.all = before ++ band :: after ∧ (∀ b ∈ before, ∀ fault, ¬ BandFault lines b fault) ∧
      BandFault lines band fault := by
  have hall : scan.coefficients = .error fault ↔ Band.all.mapM scan.bandCoefficients = .error fault := by
    rw [← coefficients_toList]
    cases scan.coefficients <;> simp
  have hok (b : Band) : (∃ c, scan.bandCoefficients b = .ok c) ↔ ∀ fault, ¬ BandFault lines b fault := by
    simp only [exists_eq_ok_iff, ne_eq, bandCoefficients_eq_error_iff h]
  rw [hall, mapM_eq_error_iff]
  simp only [hok, bandCoefficients_eq_error_iff h]

theorem exists_coefficients_iff (h : Keeps scan lines) :
    (∃ c, scan.coefficients = .ok c) ↔ ∀ band fault, ¬ BandFault lines band fault := by
  constructor
  · rintro ⟨c, hc⟩ band fault
    rw [← bandCoefficients_eq_error_iff h, coefficients_eq_ok_iff.mp hc band]
    simp
  · intro hbands
    refine exists_eq_ok_iff.mpr fun fault herror => ?_
    obtain ⟨-, band, -, -, -, hunusable⟩ := (coefficients_eq_error_iff h).mp herror
    exact hbands band fault hunusable

theorem elevation_eq_error_iff (h : Keeps scan lines) : scan.elevation = .error fault ↔ ElevationFault lines fault := by
  have hlacks := h.eq_none_iff .meanSunElevation
  have hgiven (x : Binary32) := h.last .meanSunElevation (.number x)
  simp only [value?, Option.map_eq_none_iff, Option.map_eq_some_iff, FieldValue.number.injEq, exists_eq_right] at *
  unfold elevation
  constructor
  · intro herror
    split at herror
    · rename_i hnone
      obtain rfl := Except.error.inj herror
      exact .missing (hlacks.mp hnone)
    · rename_i value hvalue
      split at herror
      · cases herror
      · rename_i houtside
        obtain rfl := Except.error.inj herror
        exact .outOfRange ((hgiven value).mp hvalue) houtside
  · intro hfault
    cases hfault with
    | missing lacks => rw [hlacks.mpr lacks]
    | outOfRange given outside =>
      rw [(hgiven _).mpr given]
      exact if_neg outside

theorem exists_elevation_iff (h : Keeps scan lines) :
    (∃ value, scan.elevation = .ok value) ↔ ∀ fault, ¬ ElevationFault lines fault := by
  simp only [exists_eq_ok_iff, ne_eq, elevation_eq_error_iff h]

/-- The lines of a file are refused for the first fault of what they add up to. -/
theorem finish_eq_error_iff (h : Keeps scan lines) : scan.finish = .error fault ↔ EndFault lines fault := by
  have hlacks := h.eq_none_iff .firstLineTime
  have hgiven (text : List Char) := h.last .firstLineTime (.text text)
  simp only [value?, Option.map_eq_none_iff, Option.map_eq_some_iff, FieldValue.text.injEq, exists_eq_right] at hlacks hgiven
  unfold finish
  rw [guard_eq_error_iff, bind_eq_error_iff, h.count]
  constructor
  · rintro (⟨hcount, rfl⟩ | ⟨hcount, hcoefficients | ⟨c, hc, herror⟩⟩)
    · exact .count hcount
    · obtain ⟨before, band, after, horder, hfirst, hunusable⟩ := (coefficients_eq_error_iff h).mp hcoefficients
      exact .band (not_not.mp hcount) horder hfirst hunusable
    · have hbands := (exists_coefficients_iff h).mp ⟨c, hc⟩
      rcases bind_eq_error_iff.mp herror with helevation | ⟨elevation, helevation, htime⟩
      · exact .elevation (not_not.mp hcount) hbands ((elevation_eq_error_iff h).mp helevation)
      · refine .time (not_not.mp hcount) hbands ((exists_elevation_iff h).mp ⟨elevation, helevation⟩) ?_
        split at htime
        · rename_i hmissing
          obtain rfl := Except.error.inj htime
          exact .missing (hlacks.mp hmissing)
        · rename_i text htext
          split at htime
          · rename_i unread hunread
            obtain rfl := Except.error.inj htime
            exact .malformed ((hgiven text).mp htext) hunread
          · cases htime
  · intro hfault
    cases hfault with
    | count wrong => exact .inl ⟨wrong, rfl⟩
    | band counted order first unusable =>
      exact .inr ⟨not_not.mpr counted, .inl ((coefficients_eq_error_iff h).mpr ⟨_, _, _, order, first, unusable⟩)⟩
    | elevation counted bands unusable =>
      obtain ⟨c, hc⟩ := (exists_coefficients_iff h).mpr bands
      have helevation := (elevation_eq_error_iff h).mpr unusable
      exact .inr ⟨not_not.mpr counted, .inr ⟨c, hc, bind_eq_error_iff.mpr (.inl helevation)⟩⟩
    | time counted bands elevation unusable =>
      obtain ⟨c, hc⟩ := (exists_coefficients_iff h).mpr bands
      obtain ⟨value, hvalue⟩ := (exists_elevation_iff h).mpr elevation
      refine .inr ⟨not_not.mpr counted, .inr ⟨c, hc, bind_eq_error_iff.mpr (.inr ⟨value, hvalue, ?_⟩)⟩⟩
      cases unusable with
      | missing lacks =>
        rw [hlacks.mpr lacks]
        rfl
      | malformed given unread =>
        rw [(hgiven _).mpr given]
        dsimp only
        rw [unread]
        rfl

end

end MetadataScan

/-! ### The whole file -/

namespace SceneMetadata

open MetadataLines

/-- A file with a fatal line is refused for the fault of the first one. -/
theorem parse_eq_error_of_firstFault {bytes : List UInt8} {fault : MetadataFault}
    (h : FirstFault (Text.lines bytes) 0 fault) : parse bytes = .error fault :=
  bind_eq_error_iff.mpr (.inl (MetadataScan.lines_start_eq_error_iff.mpr h))

/-- Without a fatal line a file is refused for what its lines add up to. -/
theorem exists_parse_eq_error_iff {bytes : List UInt8} (h : ∀ i, ¬ IsFatal (Text.lines bytes) i) :
    ∃ lines, ReadsAs bytes lines ∧ ∀ fault, parse bytes = .error fault ↔ EndFault lines fault := by
  obtain ⟨scan, hscan⟩ : ∃ scan, MetadataScan.lines 1 .start (Text.lines bytes) = .ok scan := by
    refine exists_eq_ok_iff.mpr fun fault herror => ?_
    obtain ⟨i, -, hfault, -⟩ := MetadataScan.lines_start_eq_error_iff.mp herror
    exact h i (exists_lineFault_iff.mp ⟨fault, hfault⟩)
  obtain ⟨lines, hlines, (hkeeps : scan.Keeps lines)⟩ := MetadataScan.keeps_start.run hscan
  refine ⟨lines, hlines, fun fault => ?_⟩
  rw [← MetadataScan.finish_eq_error_iff hkeeps, parse, hscan]
  rfl

/-- Of several faults the first fatal line decides, with its number, and what comes below it has no part in that, be it
more lines or other bytes behind its line feed. Without a fatal line the number of values comes first, then the first
band that cannot be used, then the elevation of the Sun and then the time. -/
theorem parse_reports_first (bytes : List UInt8) :
    (∀ i, IsFatal (Text.lines bytes) i → (∀ j < i, ¬ IsFatal (Text.lines bytes) j) →
      ∃ fault, LineFault (Text.lines bytes) i fault ∧ parse bytes = .error fault ∧
        (∃ what : String, fault.message = s!"line {i + 1}: {what}") ∧
        (∀ other, (Text.lines other).take (i + 1) = (Text.lines bytes).take (i + 1) → parse other = .error fault) ∧
        ∀ front rest other, bytes = front ++ Text.lineFeed :: rest →
          i < (Text.lines (front ++ [Text.lineFeed])).length → parse (front ++ Text.lineFeed :: other) = .error fault) ∧
    ((∀ i, ¬ IsFatal (Text.lines bytes) i) →
      ∃ lines, ReadsAs bytes lines ∧ ∀ fault, parse bytes = .error fault ↔ EndFault lines fault) := by
  refine ⟨fun i hfatal hfirst => ?_, exists_parse_eq_error_iff⟩
  obtain ⟨fault, hfault⟩ := exists_lineFault_iff.mpr hfatal
  have hsame (other : List UInt8) (htake : (Text.lines other).take (i + 1) = (Text.lines bytes).take (i + 1)) :
      parse other = .error fault := parse_eq_error_of_firstFault (firstFault_of_take_eq hfault hfirst htake)
  refine ⟨fault, hfault, hsame bytes rfl, hfault.exists_message, hsame, ?_⟩
  rintro front rest other rfl hi
  apply hsame
  rw [Text.lines_append_feed front rest, Text.lines_append_feed front other, List.take_append_of_le_length hi,
    List.take_append_of_le_length hi]

-- A coefficient outside of all groups, above a value that is no number.
example : parse (Text.encode "END_GROUP;\nabsCalFactor\nmeanSunEl = low;\n") =
    .error (.outsideBandGroup 2 .absCalFactor) := by decide +kernel

-- Two values that cannot be used, which are too few to be looked at.
example : parse (Text.encode "meanSunEl = 95;\nfirstLineTime = now;\n") = .error (.fieldCount 2) := by decide +kernel

end SceneMetadata

end SurfaceWater
