import SurfaceWater.Proofs.Metadata.Document
import SurfaceWater.Proofs.Numeric.Shortest

/-!
# Documents as they are put together

A document is begun in one of three ways and changed step by step. Of its coefficients, its elevation and its
time the last that was given counts, and a group that was left out once stays out. A document is read back
exactly when nothing is missing from it at the end, whatever was given, taken away and added on the way.
-/

namespace SurfaceWater

/-! ### Histories -/

/-- How a document is begun. -/
inductive DocumentStart where
  | standard
  | uniform (coefficients : BandCoefficients)
  | worldView3

/-- How a document is changed. -/
inductive DocumentStep where
  | band (band : Band) (coefficients : BandCoefficients)
  | elevation (text : String)
  | noElevation
  | time (text : String)
  | noTime
  | omitGroup (name : String)
  | addGroup (name body : String)
  deriving DecidableEq

/-- How a document was put together. -/
structure DocumentHistory where
  start : DocumentStart
  steps : List DocumentStep

namespace DocumentStart

def document : DocumentStart → MetadataDocument
  | standard => .standard
  | uniform c => .uniform c.absCalFactor c.effectiveBandwidth
  | worldView3 => .worldView3

def coefficients : DocumentStart → Band → BandCoefficients
  | standard, _ => ⟨1, 1⟩
  | uniform c, _ => c
  | worldView3, band =>
    ⟨(MetadataDocument.worldView3Coefficients band).1, (MetadataDocument.worldView3Coefficients band).2⟩

def elevation : DocumentStart → String
  | worldView3 => "37.9"
  | _ => "90.0"

end DocumentStart

namespace DocumentStep

def apply (d : MetadataDocument) : DocumentStep → MetadataDocument
  | band target c => d.withBand target c.absCalFactor c.effectiveBandwidth
  | elevation text => d.withElevation text
  | noElevation => d.withElevation none
  | time text => d.withTime text
  | noTime => d.withTime none
  | omitGroup name => d.omitGroup name
  | addGroup name body => d.addGroup name body

/-- The coefficients that a step gives a band. -/
def coefficients? (target : Band) : DocumentStep → Option BandCoefficients
  | band other c => if other = target then some c else none
  | _ => none

/-- The elevation that a step leaves, if it has to do with it. -/
def elevation? : DocumentStep → Option (Option String)
  | elevation text => some (some text)
  | noElevation => some none
  | _ => none

def time? : DocumentStep → Option (Option String)
  | time text => some (some text)
  | noTime => some none
  | _ => none

def omitted? : DocumentStep → Option String
  | omitGroup name => some name
  | _ => none

def added? : DocumentStep → Option (String × String)
  | addGroup name body => some (name, body)
  | _ => none

end DocumentStep

namespace DocumentHistory

variable (h : DocumentHistory)

def document : MetadataDocument := h.steps.foldl DocumentStep.apply h.start.document

/-- The coefficients that a band was given last. -/
def coefficients (band : Band) : BandCoefficients :=
  (h.steps.reverse.findSome? (DocumentStep.coefficients? band)).getD (h.start.coefficients band)

/-- The elevation that was given last, unless it was taken away after that. -/
def elevation : Option String := (h.steps.reverse.findSome? DocumentStep.elevation?).getD (some h.start.elevation)

def time : Option String :=
  (h.steps.reverse.findSome? DocumentStep.time?).getD (some MetadataDocument.standardTime)

/-- The group of a band was left out. -/
def Omits (band : Band) : Prop := .omitGroup band.groupName ∈ h.steps

end DocumentHistory

/-! ### What may be given -/

def BandCoefficients.Positive (c : BandCoefficients) : Prop :=
  (c.absCalFactor.isFinite = true ∧ 0 < c.absCalFactor) ∧ c.effectiveBandwidth.isFinite = true ∧ 0 < c.effectiveBandwidth

/-- A text is read as the elevation of a Sun above the horizon. -/
def IsElevation (text : String) : Prop := ∃ x : Binary32, Binary.read? text = some x ∧ 0 < x ∧ x ≤ 90

/-- A text is a timestamp and nothing else. -/
def IsTimestamp (text : String) : Prop := text.length = 27 ∧ ∃ instant, Instant.read text.toList = .ok instant

def DocumentStart.Valid : DocumentStart → Prop
  | uniform c => c.Positive
  | _ => True

/-- A group may have any name and body that name no field. It may open groups of its own. -/
def DocumentStep.Valid : DocumentStep → Prop
  | band _ c => c.Positive
  | elevation text => IsElevation text
  | time text => IsTimestamp text
  | addGroup name body => MetadataDocument.NamesNoField name ∧ MetadataDocument.NamesNoField body
  | _ => True

structure DocumentHistory.Valid (h : DocumentHistory) : Prop where
  start : h.start.Valid
  steps : ∀ step ∈ h.steps, step.Valid

theorem IsTimestamp.isPlain {text : String} (h : IsTimestamp text) : IsPlain text.toList := by
  obtain ⟨hlength, instant, hinstant⟩ := h
  exact Instant.isPlain_of_read hinstant (by rw [String.length_toList, hlength])

/-- An elevation of at most ninety degrees is not infinite. -/
theorem Binary.isFinite_of_le_ninety {x : Binary32} (hpos : 0 < x) (hle : x ≤ 90) : x.isFinite = true := by
  have hzero : (0 : Binary32).rank? = some 0 := by decide +kernel
  obtain ⟨ninety, hninety, hlt⟩ : ∃ ninety, (90 : Binary32).rank? = some ninety ∧ ninety < Format.single.infinityWord :=
    ⟨_, rfl, by decide +kernel⟩
  cases x with
  | nan => cases hle
  | signed negative word =>
    change lt _ _ = true at hpos
    change le _ _ = true at hle
    rw [lt, hzero, rank?] at hpos
    rw [le, hninety, rank?] at hle
    have hpos := of_decide_eq_true hpos
    have hle := of_decide_eq_true hle
    have hword : word.val < Format.single.infinityWord := by
      cases negative with
      | true =>
        rw [if_pos rfl] at hpos
        omega
      | false =>
        rw [if_neg Bool.false_ne_true] at hle
        omega
    simp [isFinite, magnitude?, hword]

/-! ### What a history comes to -/

section

variable {σ α β : Type} {apply : σ → α → σ} {steps : List α} {s : σ}

/-- What every step sets or leaves alone is in the end what was set last. -/
theorem get_foldl {get : σ → β} {given : α → Option β} (h : ∀ s step, get (apply s step) = (given step).getD (get s)) :
    get (steps.foldl apply s) = (steps.reverse.findSome? given).getD (get s) := by
  induction steps generalizing s with
  | nil => rfl
  | cons step steps ih =>
    rw [List.foldl_cons, ih, h, List.reverse_cons, List.findSome?_append, List.findSome?_singleton, Option.getD_or]

/-- What was set last has a property that the beginning and every step give it. -/
theorem getD_findSome?_reverse {given : α → Option β} {start : β} {P : β → Prop} (hstart : P start)
    (h : ∀ step ∈ steps, ∀ value, given step = some value → P value) : P ((steps.reverse.findSome? given).getD start) := by
  cases hlast : steps.reverse.findSome? given with
  | none => exact hstart
  | some value =>
    obtain ⟨step, hmem, hstep⟩ := List.exists_of_findSome?_eq_some hlast
    exact h step (List.mem_reverse.mp hmem) value hstep

theorem mem_getD_findSome?_reverse {given : α → Option (Option β)} {start : β} {P : β → Prop} (hstart : P start)
    (h : ∀ step ∈ steps, ∀ value, given step = some (some value) → P value) :
    ∀ value ∈ (steps.reverse.findSome? given).getD (some start), P value := by
  apply getD_findSome?_reverse (P := fun last => ∀ value ∈ last, P value)
  · intro value hvalue
    exact Option.some.inj hvalue ▸ hstart
  · intro step hmem last hlast value hvalue
    exact h step hmem value (hlast.trans (congrArg some hvalue))

/-- What every step adds to is in the end all that was added. -/
theorem collect_foldl {get : σ → List β} {given : α → Option β}
    (h : ∀ s step, get (apply s step) = get s ++ (given step).toList) :
    get (steps.foldl apply s) = get s ++ steps.filterMap given := by
  induction steps generalizing s with
  | nil => exact (List.append_nil _).symm
  | cons step steps ih =>
    rw [List.foldl_cons, ih, h, List.append_assoc]
    cases hgiven : given step with
    | none => rw [List.filterMap_cons_none hgiven, Option.toList_none, List.nil_append]
    | some value => rw [List.filterMap_cons_some hgiven, Option.toList_some, List.singleton_append]

end

namespace DocumentHistory

variable (h : DocumentHistory)

/-- The coefficients of a band as they are written. -/
def written (c : BandCoefficients) : String × String :=
  (NumberStyle.scientific.write c.absCalFactor, NumberStyle.scientific.write c.effectiveBandwidth)

/-- What a document has for the coefficients of a band. -/
def texts (band : Band) (d : MetadataDocument) : String × String :=
  (d.absCalFactor.get band, d.effectiveBandwidth.get band)

theorem texts_uniform (c : BandCoefficients) (band : Band) :
    texts band (.uniform c.absCalFactor c.effectiveBandwidth) = written c := by
  simp only [texts, MetadataDocument.uniform, BandVector.get, Fin.getElem_fin, Vector.getElem_replicate, written]

theorem texts_start (start : DocumentStart) (band : Band) : texts band start.document = written (start.coefficients band) := by
  cases start with
  | standard => exact texts_uniform ⟨1, 1⟩ band
  | uniform c => exact texts_uniform c band
  | worldView3 => cases band <;> rfl

theorem texts_document (band : Band) : texts band h.document = written (h.coefficients band) := by
  have hstep (d : MetadataDocument) (step : DocumentStep) :
      texts band (step.apply d) = ((step.coefficients? band).map written).getD (texts band d) := by
    cases step with
    | band other c =>
      by_cases hother : other = band
      · subst hother
        simp [texts, DocumentStep.apply, DocumentStep.coefficients?, MetadataDocument.withBand, written]
      · simp [texts, DocumentStep.apply, DocumentStep.coefficients?, MetadataDocument.withBand, hother,
          BandVector.get_set_ne _ _ (Ne.symm hother)]
    | _ => rfl
  have hlast : h.steps.reverse.findSome? (fun step => (step.coefficients? band).map written) =
      (h.steps.reverse.findSome? (DocumentStep.coefficients? band)).map written := List.map_findSome?.symm
  rw [document, get_foldl hstep, hlast, texts_start, Option.getD_map]
  rfl

theorem meanSunElevation_document : h.document.meanSunElevation = h.elevation := by
  have hstep (d : MetadataDocument) (step : DocumentStep) :
      (step.apply d).meanSunElevation = step.elevation?.getD d.meanSunElevation := by
    cases step <;> rfl
  have hstart : h.start.document.meanSunElevation = some h.start.elevation := by cases h.start <;> rfl
  rw [document, get_foldl hstep, hstart, elevation]

theorem firstLineTime_document : h.document.firstLineTime = h.time := by
  have hstep (d : MetadataDocument) (step : DocumentStep) :
      (step.apply d).firstLineTime = step.time?.getD d.firstLineTime := by
    cases step <;> rfl
  have hstart : h.start.document.firstLineTime = some MetadataDocument.standardTime := by cases h.start <;> rfl
  rw [document, get_foldl hstep, hstart, time]

theorem present_document (band : Band) : h.document.present band = true ↔ ¬ h.Omits band := by
  have hstep (d : MetadataDocument) (step : DocumentStep) :
      (step.apply d).omittedGroups = d.omittedGroups ++ step.omitted?.toList := by
    cases step <;> simp [DocumentStep.apply, DocumentStep.omitted?, MetadataDocument.withBand, MetadataDocument.withElevation,
      MetadataDocument.withTime, MetadataDocument.omitGroup, MetadataDocument.addGroup]
  have hstart : h.start.document.omittedGroups = [] := by cases h.start <;> rfl
  have homitted (step : DocumentStep) (name : String) : step.omitted? = some name ↔ step = .omitGroup name := by
    cases step <;> simp [DocumentStep.omitted?]
  rw [MetadataDocument.present, document, collect_foldl hstep, hstart, List.nil_append, Bool.not_eq_true',
    ← Bool.not_eq_true, List.contains_iff_mem, List.mem_filterMap]
  simp only [homitted, exists_eq_right, Omits]

theorem extraGroups_document : h.document.extraGroups = h.steps.filterMap DocumentStep.added? := by
  have hstep (d : MetadataDocument) (step : DocumentStep) :
      (step.apply d).extraGroups = d.extraGroups ++ step.added?.toList := by
    cases step <;> simp [DocumentStep.apply, DocumentStep.added?, MetadataDocument.withBand, MetadataDocument.withElevation,
      MetadataDocument.withTime, MetadataDocument.omitGroup, MetadataDocument.addGroup]
  have hstart : h.start.document.extraGroups = [] := by cases h.start <;> rfl
  rw [document, collect_foldl hstep, hstart, List.nil_append]

/-! ### Valid histories -/

variable {h}

theorem start_positive (hvalid : h.Valid) (band : Band) : (h.start.coefficients band).Positive := by
  have hstart := hvalid.start
  have hone : (1 : Binary32).isFinite = true ∧ (0 : Binary32) < 1 := by decide +kernel
  cases hcase : h.start with
  | standard => exact ⟨hone, hone⟩
  | uniform c =>
    rw [hcase] at hstart
    exact hstart
  | worldView3 =>
    have hboth (band : Band) : BandCoefficients.Positive (DocumentStart.worldView3.coefficients band) := by
      unfold BandCoefficients.Positive
      cases band <;> decide +kernel
    exact hboth band

theorem coefficients_positive (hvalid : h.Valid) (band : Band) : (h.coefficients band).Positive := by
  apply getD_findSome?_reverse (start_positive hvalid band)
  intro step hmem c hc
  have hstep := hvalid.steps step hmem
  cases step with
  | band other given =>
    simp only [DocumentStep.coefficients?, ite_eq_iff, Option.some.injEq, reduceCtorEq, and_false, or_false] at hc
    obtain ⟨-, rfl⟩ := hc
    exact hstep
  | _ => cases hc

theorem start_isElevation (start : DocumentStart) : IsElevation start.elevation := by
  have hninety : IsElevation "90.0" := ⟨_, rfl, by decide +kernel⟩
  have hthirty : IsElevation "37.9" := ⟨_, rfl, by decide +kernel⟩
  cases start with
  | standard | uniform => exact hninety
  | worldView3 => exact hthirty

theorem isElevation_of_elevation (hvalid : h.Valid) : ∀ text ∈ h.elevation, IsElevation text := by
  apply mem_getD_findSome?_reverse (start_isElevation h.start)
  intro step hmem text htext
  have hstep := hvalid.steps step hmem
  cases step with
  | elevation given =>
    obtain rfl := Option.some.inj (Option.some.inj htext)
    exact hstep
  | _ => cases htext

theorem isTimestamp_standard : IsTimestamp MetadataDocument.standardTime := by
  have hread : (Instant.read MetadataDocument.standardTime.toList).toOption.isSome = true := by decide +kernel
  obtain ⟨instant, hinstant⟩ := Option.isSome_iff_exists.mp hread
  exact ⟨by decide, instant, toOption_eq_some_iff.mp hinstant⟩

theorem isTimestamp_of_time (hvalid : h.Valid) : ∀ text ∈ h.time, IsTimestamp text := by
  apply mem_getD_findSome?_reverse isTimestamp_standard
  intro step hmem text htext
  have hstep := hvalid.steps step hmem
  cases step with
  | time given =>
    obtain rfl := Option.some.inj (Option.some.inj htext)
    exact hstep
  | _ => cases htext

theorem reads (hvalid : h.Valid) : h.document.Reads h.coefficients (h.elevation.bind Binary.read?) := by
  have htexts (band : Band) := h.texts_document band
  have hread (x : Binary32) : Binary.read? (NumberStyle.scientific.write x) = some x :=
    Binary.read?_write_scientific (by decide) (by decide) x
  refine ⟨fun band => ?_, fun band => ?_, ?_, ?_, ?_, ?_⟩
  · obtain ⟨hfactor, -⟩ := Prod.mk.inj (htexts band)
    exact ⟨hfactor ▸ hread _, (coefficients_positive hvalid band).1.1⟩
  · obtain ⟨-, hbandwidth⟩ := Prod.mk.inj (htexts band)
    exact ⟨hbandwidth ▸ hread _, (coefficients_positive hvalid band).2.1⟩
  · rw [meanSunElevation_document]
    cases htext : h.elevation with
    | none => rfl
    | some text =>
      obtain ⟨x, hx, -⟩ := isElevation_of_elevation hvalid _ htext
      simp [hx]
  · intro x hx
    obtain ⟨text, htext, hx⟩ := Option.bind_eq_some_iff.mp hx
    obtain ⟨y, hy, hpos, hle⟩ := isElevation_of_elevation hvalid _ htext
    obtain rfl := Option.some.inj (hx.symm.trans hy)
    exact Binary.isFinite_of_le_ninety hpos hle
  · rw [firstLineTime_document]
    exact fun text htext => (isTimestamp_of_time hvalid text htext).isPlain
  · rw [extraGroups_document]
    intro group hgroup
    obtain ⟨step, hmem, hstep⟩ := List.mem_filterMap.mp hgroup
    have hstepValid := hvalid.steps step hmem
    cases step with
    | addGroup name body =>
      obtain rfl := Option.some.inj hstep
      exact hstepValid
    | _ => cases hstep

/-- A document is read back if it has an elevation and a time at the end and the group of no band was left out. Then
every band has the coefficients that it was given last, bit for bit, and the elevation and the time are those that were
given last. Any other document is refused for having too few fields. -/
theorem parse_document (hvalid : h.Valid) :
    (∀ elevation time, h.elevation = some elevation → h.time = some time → (∀ band, ¬ h.Omits band) →
      ∃ m instant, SceneMetadata.parse (Text.encode h.document.text) = .ok m ∧
        (∀ band, m.coefficients.get band = h.coefficients band) ∧
        Binary.read? elevation = some m.geometry.meanSunElevation ∧ m.geometry.firstLineTime = time ∧
        Instant.read time.toList = .ok instant ∧ m.geometry.earthSunDistance = instant.earthSunDistance) ∧
    (h.elevation = none ∨ h.time = none ∨ (∃ band, h.Omits band) →
      ∃ found < requiredFields, SceneMetadata.parse (Text.encode h.document.text) = .error (.fieldCount found)) := by
  constructor
  · intro elevation time helevation htime hpresent
    obtain ⟨x, hx, hrange⟩ := isElevation_of_elevation hvalid _ helevation
    obtain ⟨-, instant, hinstant⟩ := isTimestamp_of_time hvalid _ htime
    refine ⟨_, instant, (reads hvalid).parse_complete (fun band => (h.present_document band).mpr (hpresent band))
      (fun band => ⟨(coefficients_positive hvalid band).1.2, (coefficients_positive hvalid band).2.2⟩)
      (by rw [helevation]; exact hx) hrange (h.firstLineTime_document.trans htime) hinstant, ?_⟩
    exact ⟨BandVector.get_ofBands _, hx, rfl, hinstant, rfl⟩
  · intro hmissing
    apply (reads hvalid).parse_incomplete
    rcases hmissing with helevation | htime | ⟨band, homits⟩
    · exact .inl (by rw [helevation]; rfl)
    · exact .inr (.inl (h.firstLineTime_document.trans htime))
    · refine .inr (.inr ⟨band, Bool.eq_false_iff.mpr fun hpresent => ?_⟩)
      exact (h.present_document band).mp hpresent homits

/-- A document of a product with new coefficients for one band, and a second group of the name of another. -/
def reopened : DocumentHistory :=
  ⟨.worldView3, [.band .red ⟨2, 3⟩, .omitGroup "TIL", .addGroup "BAND_C" "\tnote = 1;"]⟩

theorem valid_reopened : reopened.Valid := by
  have hpositive : BandCoefficients.Positive ⟨2, 3⟩ := by
    unfold BandCoefficients.Positive
    decide +kernel
  have hgroup : ∀ field : MetadataField, ¬ Mentions "BAND_C".toList field.key ∧ ¬ Mentions "\tnote = 1;".toList field.key := by
    intro field
    cases field <;> decide
  refine ⟨trivial, ?_⟩
  simp only [reopened, List.forall_mem_cons]
  exact ⟨hpositive, trivial, ⟨fun field => (hgroup field).1, fun field => (hgroup field).2⟩, List.forall_mem_nil _⟩

theorem parse_document_reopened : ∃ m, SceneMetadata.parse (Text.encode reopened.document.text) = .ok m ∧
    m.coefficients.get .red = ⟨2, 3⟩ ∧ m.geometry.firstLineTime = MetadataDocument.standardTime := by
  have hpresent : ∀ band, ¬ reopened.Omits band := by
    intro band
    unfold Omits
    cases band <;> decide
  obtain ⟨m, instant, hparse, hcoefficients, -, htime, -⟩ := (parse_document valid_reopened).1 "37.9" _ rfl rfl hpresent
  exact ⟨m, hparse, hcoefficients .red, htime⟩

end DocumentHistory

end SurfaceWater
