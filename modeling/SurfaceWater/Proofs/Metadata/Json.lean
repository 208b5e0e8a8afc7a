import SurfaceWater.Metadata.Json
import SurfaceWater.Proofs.Blocks
import SurfaceWater.Proofs.Ephemeris
import SurfaceWater.Proofs.Json.RoundTrip
import SurfaceWater.Proofs.Metadata.DocumentHistory

/-!
# Metadata as JSON, and back

Metadata whose numbers are finite read back from either layout of their JSON, provided that the digits of each
number read back to it. A number that is not finite is written as null, which no number is read from. What a
metadata file is read as has finite numbers only: its coefficients and its elevation are checked, and the distance
of the Sun is computed from an instant that a timestamp can state.

That digits read back is a condition, since a numeral is rounded in two steps and a double may come back as its
neighbour.
-/

namespace SurfaceWater

namespace Json

/-! ### Numbers and texts -/

/-- The digits that a finite number is written with read back to it. -/
def ReadsBack {f : Format} (style : NumberStyle) (x : Binary f) : Prop :=
  x.isFinite = true → (JsonNumber.ofLiteral? (style.write x).toList).map JsonNumber.toBinary = some x

instance {f : Format} (style : NumberStyle) (x : Binary f) : Decidable (ReadsBack style x) :=
  inferInstanceAs (Decidable (_ → _))

theorem binary?_ofBinary {f : Format} {style : NumberStyle} {x : Binary f} (h : ReadsBack style x)
    (hx : x.isFinite = true) : (ofBinary style x).binary? = some x := by
  rw [ofBinary, if_pos hx]
  exact h hx

/-- No number is read from what is written for one that is not finite. -/
theorem isFinite_of_binary? {f g : Format} {style : NumberStyle} {x : Binary f} {y : Binary g}
    (h : (ofBinary style x).binary? = some y) : x.isFinite = true := by
  by_contra hx
  rw [ofBinary, if_neg hx] at h
  cases h

theorem charsText?_toList (s : String) : charsText? (s.toList.map JsonChar.char) = some s := by
  have hchars : (s.toList.map JsonChar.char).mapM JsonChar.char? = some s.toList := by
    rw [List.mapM_map]
    exact (mapM_eq_some_map fun _ _ => rfl).trans (congrArg some (List.map_id _))
  rw [charsText?, hchars, Option.map_some, String.ofList_toList]

/-! ### Records -/

theorem filter_eq_singleton {members : List (String × Json)} (hnodup : (members.map Prod.fst).Nodup)
    {member : String × Json} (hmem : member ∈ members) : members.filter (·.1 = member.1) = [member] := by
  obtain ⟨before, after, rfl⟩ := List.append_of_mem hmem
  rw [List.map_append, List.map_cons, List.nodup_append, List.nodup_cons] at hnodup
  obtain ⟨-, ⟨hafter, -⟩, hbefore⟩ := hnodup
  have hnone {others : List (String × Json)} (hothers : ∀ other ∈ others, other.1 ≠ member.1) :
      others.filter (·.1 = member.1) = [] :=
    List.filter_eq_nil_iff.mpr fun other hother => by simp [hothers other hother]
  have hself : (member :: after).filter (·.1 = member.1) = member :: after.filter (·.1 = member.1) :=
    List.filter_cons_of_pos (decide_eq_true rfl)
  rw [List.filter_append, hself, hnone, hnone, List.nil_append]
  · exact fun other hother heq => hafter (heq ▸ List.mem_map_of_mem hother)
  · exact fun other hother => hbefore _ (List.mem_map_of_mem hother) _ List.mem_cons_self

/-- A record has one value for each of its names. -/
theorem fields?_record {members : List (String × Json)} {names : List String} {values : List Json}
    (hnames : members.map Prod.fst = names) (hvalues : members.map Prod.snd = values) (hnodup : names.Nodup) :
    (record members).fields? names = some values := by
  subst hnames hvalues
  have hnamed : (members.map fun member => (member.1.toList.map JsonChar.char, member.2)).mapM
      (fun member : List JsonChar × Json => (charsText? member.1).map fun key => (key, member.2)) = some members := by
    rw [List.mapM_map]
    refine (mapM_eq_some_map fun member _ => ?_).trans (congrArg some (List.map_id _))
    exact congrArg (Option.map fun key => (key, member.2)) (charsText?_toList member.1)
  show (_ >>= _) = _
  rw [hnamed, Option.bind_eq_bind, Option.bind_some, List.mapM_map]
  apply mapM_eq_some_map
  intro member hmember
  rw [Function.comp_apply, filter_eq_singleton hnodup hmember]

/-! ### What is written -/

theorem writable_ofBinary {f : Format} {style : NumberStyle} (hpoint : style.pointZero = true)
    (hplus : style.plusExponent = true) (x : Binary f) : (ofBinary style x).Writable := by
  rw [ofBinary]
  split
  case isTrue hx => exact .number (isNumeral_write hpoint hplus hx)
  case isFalse => exact .null

theorem writable_record {members : List (String × Json)} (h : ∀ member ∈ members, member.2.Writable) :
    (record members).Writable := by
  apply Writable.object
  · intro member hmember
    obtain ⟨named, -, rfl⟩ := List.mem_map.mp hmember
    exact ⟨named.1.toList, rfl⟩
  · intro member hmember
    obtain ⟨named, hnamed, rfl⟩ := List.mem_map.mp hmember
    exact h named hnamed

/-- Some value within a value is null. -/
inductive HasNull : Json → Prop where
  | here : HasNull null
  | item {items : List Json} {item : Json} (hmem : item ∈ items) (h : HasNull item) : HasNull (array items)
  | member {members : List (List JsonChar × Json)} {member : List JsonChar × Json} (hmem : member ∈ members)
    (h : HasNull member.2) : HasNull (object members)

theorem hasNull_ofBinary {f : Format} (style : NumberStyle) (x : Binary f) :
    (ofBinary style x).HasNull ↔ ¬ x.isFinite = true := by
  rw [ofBinary]
  split
  case isTrue hx => exact ⟨(nomatch ·), (absurd hx ·)⟩
  case isFalse hx => exact ⟨fun _ => hx, fun _ => .here⟩

theorem hasNull_text (s : String) : ¬ (text s).HasNull := nofun

theorem hasNull_array {items : List Json} : (array items).HasNull ↔ ∃ item ∈ items, item.HasNull :=
  ⟨fun | .item hmem h => ⟨_, hmem, h⟩, fun ⟨_, hmem, h⟩ => .item hmem h⟩

theorem hasNull_record {members : List (String × Json)} :
    (record members).HasNull ↔ ∃ member ∈ members, member.2.HasNull := by
  constructor
  · rintro (_ | _ | ⟨hmem, h⟩)
    obtain ⟨named, hnamed, rfl⟩ := List.mem_map.mp hmem
    exact ⟨named, hnamed, h⟩
  · rintro ⟨named, hnamed, h⟩
    exact .member (List.mem_map_of_mem hnamed) h

end Json

/-! ### The parts of the metadata -/

theorem BandCoefficients.ofJson?_toJson {c d : BandCoefficients} :
    ofJson? c.toJson = some d ↔ (Json.ofSingle c.absCalFactor).binary? = some d.absCalFactor ∧
      (Json.ofSingle c.effectiveBandwidth).binary? = some d.effectiveBandwidth := by
  have hfields : c.toJson.fields? ["abs_cal_factor", "effective_bandwidth"] =
    some [.ofSingle c.absCalFactor, .ofSingle c.effectiveBandwidth] := Json.fields?_record rfl rfl (by decide)
  rw [ofJson?, hfields]
  simp only [Option.bind_eq_bind, Option.bind_some, Option.bind_eq_some_iff, Option.pure_def, Option.some.injEq]
  constructor
  · rintro ⟨factor, hfactor, bandwidth, hbandwidth, rfl⟩
    exact ⟨hfactor, hbandwidth⟩
  · rintro ⟨hfactor, hbandwidth⟩
    exact ⟨_, hfactor, _, hbandwidth, rfl⟩

theorem SceneGeometry.ofJson?_toJson {g r : SceneGeometry} :
    ofJson? g.toJson = some r ↔ (Json.ofSingle g.meanSunElevation).binary? = some r.meanSunElevation ∧
      (Json.ofDouble g.earthSunDistance).binary? = some r.earthSunDistance ∧ g.firstLineTime = r.firstLineTime := by
  have hfields : g.toJson.fields? ["mean_sun_elevation", "earth_sun_distance", "first_line_time"] =
      some [.ofSingle g.meanSunElevation, .ofDouble g.earthSunDistance, .text g.firstLineTime] :=
    Json.fields?_record rfl rfl (by decide)
  have htext : (Json.text g.firstLineTime).text? = some g.firstLineTime := Json.charsText?_toList g.firstLineTime
  rw [ofJson?, hfields]
  simp only [Option.bind_eq_bind, Option.bind_some, Option.bind_eq_some_iff, Option.pure_def, Option.some.injEq, htext]
  constructor
  · rintro ⟨elevation, helevation, distance, hdistance, rfl⟩
    exact ⟨helevation, hdistance, rfl⟩
  · rintro ⟨helevation, hdistance, htime⟩
    exact ⟨_, helevation, _, hdistance, by rw [htime]⟩

/-- Every value is that of a band. -/
theorem BandVector.exists_get_eq {α : Type} {values : BandVector α} {value : α} (h : value ∈ values.toList) :
    ∃ band, values.get band = value := by
  obtain ⟨i, hi, rfl⟩ := List.getElem_of_mem h
  have hlt : i < bandCount := by simpa using hi
  refine ⟨.ofIndex ⟨i, hlt⟩, ?_⟩
  simp only [get, Band.index_ofIndex, Fin.getElem_fin, Vector.getElem_toList]

/-- A list of eight values is read value by value. -/
theorem BandVector.ofJson?_array {α : Type} {write : α → Json} {read : Json → Option α} {values results : BandVector α} :
    BandVector.ofJson? read (.array (values.toList.map write)) = some results ↔
      ∀ band, read (write (values.get band)) = some (results.get band) := by
  have hread : (values.toList.map write).mapM read = some results.toList ↔
      ∀ band, read (write (values.get band)) = some (results.get band) := by
    rw [List.mapM_map, mapM_eq_some_iff]
    constructor
    · intro h band
      have hband := congrArg (·[band.index.val]?) h
      simpa [get] using hband
    · intro h
      apply List.ext_getElem (by simp)
      intro i hi hi'
      have hlt : i < bandCount := by simpa using hi
      have hband := h (.ofIndex ⟨i, hlt⟩)
      simpa [get] using hband
  rw [← hread, ofJson?, Option.bind_eq_bind, Option.bind_eq_some_iff]
  constructor
  · rintro ⟨found, hfound, hresults⟩
    split at hresults
    case isTrue =>
      obtain rfl := Option.some.inj hresults
      rw [hfound]
      simp
    case isFalse => cases hresults
  · intro h
    have hsize : results.toList.toArray.size = bandCount := by simp
    refine ⟨_, h, ?_⟩
    rw [dif_pos hsize]
    congr 1

namespace SceneMetadata

variable {m r : SceneMetadata}

theorem ofJson?_toJson : ofJson? m.toJson = some r ↔
    (∀ band, BandCoefficients.ofJson? (m.coefficients.get band).toJson = some (r.coefficients.get band)) ∧
      SceneGeometry.ofJson? m.geometry.toJson = some r.geometry := by
  have hfields : m.toJson.fields? ["coefficients", "geometry"] =
      some [.record [("bands", .array (m.coefficients.toList.map BandCoefficients.toJson))], m.geometry.toJson] :=
    Json.fields?_record rfl rfl (by decide)
  have hbands : (Json.record [("bands", .array (m.coefficients.toList.map BandCoefficients.toJson))]).fields? ["bands"] =
      some [.array (m.coefficients.toList.map BandCoefficients.toJson)] :=
    Json.fields?_record rfl rfl (by decide)
  rw [ofJson?, hfields]
  simp only [Option.bind_eq_bind, Option.bind_some, hbands, Option.bind_eq_some_iff, Option.pure_def, Option.some.injEq]
  rw [← BandVector.ofJson?_array]
  constructor
  · rintro ⟨coefficients, hcoefficients, geometry, hgeometry, rfl⟩
    exact ⟨hcoefficients, hgeometry⟩
  · rintro ⟨hcoefficients, hgeometry⟩
    exact ⟨_, hcoefficients, _, hgeometry, rfl⟩

theorem writable_toJson (m : SceneMetadata) : m.toJson.Writable := by
  have hsingle (x : Binary32) : (Json.ofSingle x).Writable := Json.writable_ofBinary rfl rfl x
  have hdouble (x : Binary64) : (Json.ofDouble x).Writable := Json.writable_ofBinary rfl rfl x
  have hband (c : BandCoefficients) : c.toJson.Writable := by
    apply Json.writable_record
    simp only [List.forall_mem_cons]
    exact ⟨hsingle _, hsingle _, List.forall_mem_nil _⟩
  have hbands : (Json.array (m.coefficients.toList.map BandCoefficients.toJson)).Writable := by
    refine .array fun item hitem => ?_
    obtain ⟨c, -, rfl⟩ := List.mem_map.mp hitem
    exact hband c
  have hgeometry : m.geometry.toJson.Writable := by
    apply Json.writable_record
    simp only [List.forall_mem_cons]
    exact ⟨hsingle _, hdouble _, .string _, List.forall_mem_nil _⟩
  have hcoefficients : (Json.record [("bands", .array (m.coefficients.toList.map BandCoefficients.toJson))]).Writable :=
    Json.writable_record (List.forall_mem_singleton.mpr hbands)
  apply Json.writable_record
  simp only [List.forall_mem_cons]
  exact ⟨hcoefficients, hgeometry, List.forall_mem_nil _⟩

/-- What is read from either layout is what the numbers and the text are read as. -/
theorem readJson?_writeJson (m : SceneMetadata) (layout : JsonLayout) :
    readJson? (m.writeJson layout) = ofJson? m.toJson := by
  rw [readJson?, writeJson, m.writable_toJson.parse?_render, Option.bind_some]

/-! ### The numbers of the metadata -/

/-- A property holds of every number together with the style it is written in. -/
def Numbers (m : SceneMetadata) (p : {f : Format} → NumberStyle → Binary f → Prop) : Prop :=
  (∀ band, p Json.singleStyle (m.coefficients.get band).absCalFactor ∧
    p Json.singleStyle (m.coefficients.get band).effectiveBandwidth) ∧
  p Json.singleStyle m.geometry.meanSunElevation ∧ p Json.doubleStyle m.geometry.earthSunDistance

def IsFinite (m : SceneMetadata) : Prop := m.Numbers fun _ x => x.isFinite = true

def DigitsReadBack (m : SceneMetadata) : Prop := m.Numbers Json.ReadsBack

theorem ofJson?_toJson_of_isFinite (hdigits : m.DigitsReadBack) (h : m.IsFinite) : ofJson? m.toJson = some m := by
  obtain ⟨hbandDigits, helevationDigits, hdistanceDigits⟩ := hdigits
  obtain ⟨hbands, helevation, hdistance⟩ := h
  refine ofJson?_toJson.mpr ⟨fun band => BandCoefficients.ofJson?_toJson.mpr ?_, SceneGeometry.ofJson?_toJson.mpr ?_⟩
  · exact ⟨Json.binary?_ofBinary (hbandDigits band).1 (hbands band).1,
      Json.binary?_ofBinary (hbandDigits band).2 (hbands band).2⟩
  · exact ⟨Json.binary?_ofBinary helevationDigits helevation, Json.binary?_ofBinary hdistanceDigits hdistance, rfl⟩

theorem isFinite_of_ofJson?_toJson (h : ofJson? m.toJson = some r) : m.IsFinite := by
  obtain ⟨hbands, hgeometry⟩ := ofJson?_toJson.mp h
  obtain ⟨helevation, hdistance, -⟩ := SceneGeometry.ofJson?_toJson.mp hgeometry
  refine ⟨fun band => ?_, Json.isFinite_of_binary? helevation, Json.isFinite_of_binary? hdistance⟩
  obtain ⟨hfactor, hbandwidth⟩ := BandCoefficients.ofJson?_toJson.mp (hbands band)
  exact ⟨Json.isFinite_of_binary? hfactor, Json.isFinite_of_binary? hbandwidth⟩

/-- Null stands for the numbers that are not finite, and for nothing else. -/
theorem not_hasNull_toJson (h : m.IsFinite) : ¬ m.toJson.HasNull := by
  simp only [toJson, SceneGeometry.toJson, BandCoefficients.toJson, Json.hasNull_record, Json.hasNull_array,
    Json.ofSingle, Json.ofDouble, Json.hasNull_ofBinary, Json.hasNull_text, List.mem_cons, List.not_mem_nil, or_false,
    exists_eq_or_imp, exists_eq_left, List.mem_map, exists_exists_and_eq_and]
  obtain ⟨hbands, helevation, hdistance⟩ := h
  rintro (⟨c, hc, hnull⟩ | hnull | hnull)
  · obtain ⟨band, rfl⟩ := BandVector.exists_get_eq hc
    exact hnull.elim (absurd (hbands band).1) (absurd (hbands band).2)
  · exact hnull helevation
  · exact hnull hdistance

/-- What a metadata file is read as has finite numbers. -/
theorem isFinite_of_parse {bytes : List UInt8} (h : parse bytes = .ok m) : m.IsFinite := by
  obtain ⟨scan, -, hfinish⟩ := bind_eq_ok_iff.mp h
  obtain ⟨-, hvalues, instant, hinstant, hdistance⟩ := MetadataScan.finish_eq_ok_iff.mp hfinish
  obtain ⟨hpos, hle⟩ := (hvalues .meanSunElevation).2
  refine ⟨fun band => ⟨(hvalues (.absCalFactor band)).2.1, (hvalues (.effectiveBandwidth band)).2.1⟩,
    Binary.isFinite_of_le_ninety hpos hle, ?_⟩
  rw [hdistance]
  exact Instant.isFinite_earthSunDistance (Instant.inLayout_of_ofLayout hinstant)

/-- Metadata of finite numbers read back equal from either layout, where the digits of the numbers do. With a number
that is not finite nothing is read back. The JSON of what a file is read as has no null in it, and what is read back
from it is written with the same text. -/
theorem json_round_trip (m : SceneMetadata) (layout : JsonLayout) :
    (m.IsFinite → m.DigitsReadBack → readJson? (m.writeJson layout) = some m) ∧
      (¬ m.IsFinite → readJson? (m.writeJson layout) = none) ∧
      ∀ bytes, parse bytes = .ok m →
        (∃ json, Json.parse? (m.writeJson layout).toList = some json ∧ ¬ json.HasNull) ∧
        (m.DigitsReadBack → ∃ read, readJson? (m.writeJson layout) = some read ∧
          read.writeJson layout = m.writeJson layout) := by
  have hread : m.IsFinite → m.DigitsReadBack → readJson? (m.writeJson layout) = some m := by
    intro hfinite hdigits
    rw [readJson?_writeJson]
    exact ofJson?_toJson_of_isFinite hdigits hfinite
  refine ⟨hread, fun hfinite => ?_, fun bytes hbytes => ⟨?_, fun hdigits => ?_⟩⟩
  · rw [readJson?_writeJson, Option.eq_none_iff_forall_ne_some]
    exact fun r hr => hfinite (isFinite_of_ofJson?_toJson hr)
  · exact ⟨m.toJson, m.writable_toJson.parse?_render layout, not_hasNull_toJson (isFinite_of_parse hbytes)⟩
  · exact ⟨m, hread (isFinite_of_parse hbytes) hdigits, rfl⟩

/-- The document of a product with another date. -/
def redatedDocument : DocumentHistory := ⟨.worldView3, [.time "2016-10-02T18:44:52.145617Z"]⟩

/-- What the document is read as. -/
def redated : SceneMetadata :=
  ⟨.ofBands redatedDocument.coefficients,
    ⟨37.9, Instant.earthSunDistance ⟨⟨2016, 10, 2⟩, 18, 44, 52, 145617⟩, "2016-10-02T18:44:52.145617Z"⟩⟩

theorem parse_redated : parse (Text.encode redatedDocument.document.text) = .ok redated := by
  have hread : Instant.read "2016-10-02T18:44:52.145617Z".toList = .ok ⟨⟨2016, 10, 2⟩, 18, 44, 52, 145617⟩ :=
    toOption_eq_some_iff.mp (by decide +kernel)
  have hvalid : redatedDocument.Valid := ⟨trivial, List.forall_mem_singleton.mpr ⟨by decide, _, hread⟩⟩
  have hpresent : ∀ band, redatedDocument.document.present band = true := by
    intro band
    cases band <;> decide
  have hpositive := DocumentHistory.coefficients_positive hvalid
  have helevation : redatedDocument.elevation.bind Binary.read? = some (37.9 : Binary32) := by decide +kernel
  exact (DocumentHistory.reads hvalid).parse_complete hpresent (fun band => ⟨(hpositive band).1.2, (hpositive band).2.2⟩)
    helevation (by decide +kernel) rfl hread

theorem digitsReadBack_redated : redated.DigitsReadBack := by
  refine ⟨fun band => ?_, by decide +kernel, by decide +kernel⟩
  cases band <;> decide +kernel

theorem json_round_trip_redated : readJson? (redated.writeJson .indented) = some redated ∧
    (∃ json, Json.parse? (redated.writeJson .indented).toList = some json ∧ ¬ json.HasNull) ∧
    readJson? (writeJson .compact ⟨redated.coefficients, ⟨.nan, 1, "\"\n"⟩⟩) = none := by
  obtain ⟨hread, -, hparsed⟩ := json_round_trip redated .indented
  obtain ⟨-, hfails, -⟩ := json_round_trip ⟨redated.coefficients, ⟨.nan, 1, "\"\n"⟩⟩ .compact
  have hnan : ¬ IsFinite ⟨redated.coefficients, ⟨.nan, 1, "\"\n"⟩⟩ := fun h => nomatch h.2.1
  exact ⟨hread (isFinite_of_parse parse_redated) digitsReadBack_redated, (hparsed _ parse_redated).1, hfails hnan⟩

end SceneMetadata

end SurfaceWater
