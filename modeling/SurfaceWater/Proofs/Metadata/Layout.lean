import SurfaceWater.Proofs.Metadata.Readings
import SurfaceWater.Proofs.Text.Blank
import SurfaceWater.Proofs.Text.Spelling

/-!
# The layout of a file

Group lines cut a file into segments, and what a segment gives depends on its own lines only. So the segments, and
the lines below the group line of each, may stand in any order, with any other lines among them: the readings of the
file are the same up to their order, which does not matter. Line ends do not matter because values are trimmed.
-/

namespace SurfaceWater

open Text (withoutReturn withoutReturn_cases trim_concat SameButReturn Spells)

/-! ### Line ends -/

section

variable {line : List Char} {c : Char}

/-- A mark that a line does not end with does not come about by a further character. -/
theorem mentions_concat_iff {mark : String} (hmark : mark ≠ "") (hc : c ∉ mark.toList) :
    Mentions (line ++ [c]) mark ↔ Mentions line mark := by
  rw [Mentions, Mentions, List.infix_concat_iff, List.suffix_concat_iff]
  refine or_iff_right fun h => ?_
  rcases h with hnil | ⟨first, hlast, -⟩
  · exact hmark (String.toList_eq_nil_iff.mp hnil)
  · exact hc (hlast ▸ List.mem_append_right _ (List.mem_singleton.mpr rfl))

theorem valueText?_concat (hc : c ≠ '=') : valueText? (line ++ [c]) = (valueText? line).map (· ++ [c]) := by
  rw [valueText?, valueText?, List.dropWhile_append]
  cases line.dropWhile (· ≠ '=') with
  | nil => simp [hc]
  | cons sign value => rfl

theorem ofLine_withoutReturn (line : List Char) : LineKind.ofLine (withoutReturn line) = LineKind.ofLine line := by
  rcases withoutReturn_cases line with heq | heq
  · rw [heq]
  · have hmentions (mark : String) (hmark : mark ≠ "") (hreturn : '\r' ∉ mark.toList) :
        Mentions line mark ↔ Mentions (withoutReturn line) mark := by
      conv => lhs; rw [heq]
      exact mentions_concat_iff hmark hreturn
    rw [LineKind.ofLine_eq, LineKind.ofLine_eq]
    simp only [hmentions "BEGIN_GROUP" (by decide) (by decide), hmentions "absCalFactor" (by decide) (by decide),
      hmentions "effectiveBandwidth" (by decide) (by decide), hmentions "meanSunEl" (by decide) (by decide),
      hmentions "firstLineTime" (by decide) (by decide)]

theorem trim_valueText?_withoutReturn (line : List Char) :
    (valueText? (withoutReturn line)).map Text.trim = (valueText? line).map Text.trim := by
  rcases withoutReturn_cases line with heq | heq
  · rw [heq]
  · have hreturn : Text.trim ∘ (· ++ ['\r']) = Text.trim := by
      funext value
      exact trim_concat value (by decide)
    conv => rhs; rw [heq]
    rw [valueText?_concat (by decide), Option.map_map, hreturn]

theorem groupBand?_withoutReturn (line : List Char) : groupBand? (withoutReturn line) = groupBand? line := by
  have hname (text : List Char) :
      Text.trim ((valueText? text).getD []) = ((valueText? text).map Text.trim).getD [] := by
    cases valueText? text <;> rfl
  rw [groupBand?, groupBand?, hname, hname, trim_valueText?_withoutReturn]

theorem read?_withoutReturn (slot : MetadataSlot) (line : List Char) :
    slot.read? (withoutReturn line) = slot.read? line := by
  have hclean (text : List Char) : (valueText? text).map Instant.clean =
      ((valueText? text).map Text.trim).map fun value => Text.trimEnd (Text.dropTrailing (· = ';') value) := by
    rw [Option.map_map]
    rfl
  rw [MetadataSlot.read?, MetadataSlot.read?, hclean, hclean, trim_valueText?_withoutReturn]

end

namespace MetadataLines

variable {band : Option Band}

theorem readings_of_sameButReturn {read written : List (List Char)} (h : List.Forall₂ SameButReturn read written) :
    readings band read = readings band written := by
  induction h generalizing band with
  | nil => rfl
  | cons hline _ ih =>
    rcases hline with rfl | rfl
    · rw [readings, readings, ih]
    · simp only [readings, reading, bandAfter, ofLine_withoutReturn, groupBand?_withoutReturn, read?_withoutReturn, ih]

/-! ### Segments -/

/-- Lines from a group line to the next. -/
def IsSegment (lines : List (List Char)) : Prop :=
  ∃ group body, lines = group :: body ∧ Mentions group "BEGIN_GROUP" ∧ ∀ line ∈ body, ¬ Mentions line "BEGIN_GROUP"

/-- Every file has a beginning without groups and is segments from there on. -/
theorem exists_segments (lines : List (List Char)) :
    ∃ (preamble : List (List Char)) (segments : List (List (List Char))), lines = preamble ++ segments.flatten ∧
      (∀ line ∈ preamble, ¬ Mentions line "BEGIN_GROUP") ∧ ∀ segment ∈ segments, IsSegment segment := by
  induction lines with
  | nil => exact ⟨[], [], rfl, List.forall_mem_nil _, List.forall_mem_nil _⟩
  | cons line lines ih =>
    obtain ⟨preamble, segments, rfl, hpreamble, hsegments⟩ := ih
    by_cases hgroup : Mentions line "BEGIN_GROUP"
    · exact ⟨[], (line :: preamble) :: segments, rfl, List.forall_mem_nil _,
        List.forall_mem_cons.mpr ⟨⟨line, preamble, rfl, hgroup, hpreamble⟩, hsegments⟩⟩
    · exact ⟨line :: preamble, segments, rfl, List.forall_mem_cons.mpr ⟨hgroup, hpreamble⟩, hsegments⟩

theorem bandAfter_of_not_group {line : List Char} (h : ¬ Mentions line "BEGIN_GROUP") : bandAfter band line = band := by
  refine if_neg fun hgroup => h ?_
  have hkind : LineKind.Describes line .group := LineKind.ofLine_eq_iff.mp hgroup
  exact hkind

theorem readings_append (lines more : List (List Char)) :
    readings band (lines ++ more) = readings band lines ++ readings (lines.foldl bandAfter band) more := by
  induction lines generalizing band with
  | nil => rfl
  | cons line lines ih => rw [List.cons_append, readings, ih, ← List.append_assoc]; rfl

/-- Without group lines all lines belong to the same band. -/
theorem readings_of_not_group {lines : List (List Char)} (h : ∀ line ∈ lines, ¬ Mentions line "BEGIN_GROUP") :
    readings band lines = lines.flatMap (reading band) ∧ lines.foldl bandAfter band = band := by
  induction lines with
  | nil => exact ⟨rfl, rfl⟩
  | cons line lines ih =>
    rw [List.forall_mem_cons] at h
    obtain ⟨hreadings, hband⟩ := ih h.2
    rw [readings, List.foldl_cons, bandAfter_of_not_group h.1, hreadings, hband]
    exact ⟨rfl, rfl⟩

/-- The band that was open before a segment does not matter in it. -/
theorem IsSegment.readings_eq {segment : List (List Char)} (h : IsSegment segment) (other : Option Band) :
    readings band segment = readings other segment := by
  obtain ⟨group, body, rfl, hgroup, -⟩ := h
  have hkind : LineKind.ofLine group = .group := LineKind.ofLine_eq_iff.mpr hgroup
  simp only [readings, reading, bandAfter, hkind, if_true]

theorem readings_flatten {segments : List (List (List Char))} (h : ∀ segment ∈ segments, IsSegment segment) :
    readings band segments.flatten = segments.flatMap (readings none) := by
  induction segments generalizing band with
  | nil => rfl
  | cons segment segments ih =>
    rw [List.forall_mem_cons] at h
    rw [List.flatten_cons, readings_append, h.1.readings_eq none, ih h.2, List.flatMap_cons]

/-! ### Rearrangements -/

/-- Lines that differ in their layout: in the order of their segments, in that of lines among which no group is
opened, or by lines that say nothing. -/
inductive SameUpToLayout : List (List Char) → List (List Char) → Prop where
  | segments {preamble : List (List Char)} {segments others : List (List (List Char))}
    (hpreamble : ∀ line ∈ preamble, ¬ Mentions line "BEGIN_GROUP") (hsegments : ∀ segment ∈ segments, IsSegment segment)
    (hperm : segments.Perm others) : SameUpToLayout (preamble ++ segments.flatten) (preamble ++ others.flatten)
  | body (above : List (List Char)) {body others : List (List Char)} (below : List (List Char))
    (hbody : ∀ line ∈ body, ¬ Mentions line "BEGIN_GROUP") (hperm : body.Perm others) :
    SameUpToLayout (above ++ body ++ below) (above ++ others ++ below)
  | insert (above : List (List Char)) {line : List Char} (below : List (List Char))
    (hline : LineKind.Describes line .other) : SameUpToLayout (above ++ below) (above ++ line :: below)
  | symm {lines others : List (List Char)} (h : SameUpToLayout lines others) : SameUpToLayout others lines
  | trans {lines middle others : List (List Char)} (hfirst : SameUpToLayout lines middle)
    (hsecond : SameUpToLayout middle others) : SameUpToLayout lines others

/-- The layout decides the order of the readings at most. -/
theorem SameUpToLayout.readings_perm {lines others : List (List Char)} (h : SameUpToLayout lines others) :
    (readings none lines).Perm (readings none others) := by
  induction h with
  | @segments preamble segments others hpreamble hsegments hperm =>
    have hothers : ∀ segment ∈ others, IsSegment segment := fun segment hmem =>
      hsegments segment (hperm.mem_iff.mpr hmem)
    rw [readings_append, readings_append, readings_flatten hsegments, readings_flatten hothers]
    exact (hperm.flatMap_right _).append_left _
  | @body above body others below hbody hperm =>
    have hothers : ∀ line ∈ others, ¬ Mentions line "BEGIN_GROUP" := fun line hmem =>
      hbody line (hperm.mem_iff.mpr hmem)
    obtain ⟨hreadings, hband⟩ := @readings_of_not_group (above.foldl bandAfter none) _ hbody
    obtain ⟨hreadings', hband'⟩ := @readings_of_not_group (above.foldl bandAfter none) _ hothers
    simp only [readings_append, List.foldl_append, hreadings, hreadings', hband, hband']
    exact ((hperm.flatMap_right _).append_left _).append_right _
  | @insert above line below hline =>
    have hnothing : reading (above.foldl bandAfter none) line = [] :=
      reading_of_not_field (MetadataScan.not_field_of_describes hline (by simp))
    rw [readings_append, readings_append, readings, hnothing, bandAfter_of_not_group hline.1]
    rfl
  | symm _ ih => exact ih.symm
  | trans _ _ ihFirst ihSecond => exact ihFirst.trans ihSecond

end MetadataLines

namespace SceneMetadata

open MetadataLines

/-- The lines of a text are those that it spells, if none of them has a carriage return at its end. -/
theorem readsAs_of_spells {lines : List (List Char)} {text : String} (h : Spells lines text.toList)
    (hreturn : ∀ line ∈ lines, line.getLast? ≠ some '\r') : ReadsAs (Text.encode text) lines := by
  obtain ⟨read, hread, hsame⟩ := h.exists_lines
  have heq : read = lines := by
    clear hread h
    induction hsame with
    | nil => rfl
    | cons hline _ ih =>
      rw [List.forall_mem_cons] at hreturn
      rw [ih hreturn.2, hline.elim id fun heq => heq.trans (if_neg hreturn.1)]
  rw [String.ofList_toList, heq] at hread
  rw [ReadsAs, hread, List.map_map]
  simp only [Function.comp_def, Text.decode?_encode, Option.map_some, String.toList_ofList]

/-- A text is read as the lines that it spells. -/
theorem parse_eq_ok_iff_of_spells {lines : List (List Char)} {text : String} (h : Spells lines text.toList)
    {m : SceneMetadata} :
    parse (Text.encode text) = .ok m ↔
      (readings none lines).Perm (MetadataSlot.all.map fun slot => some (slot, m.value slot)) ∧ m.Usable := by
  obtain ⟨read, hread, hsame⟩ := h.exists_lines
  rw [String.ofList_toList] at hread
  have hreads : ReadsAs (Text.encode text) read := by
    rw [ReadsAs, hread, List.map_map]
    simp only [Function.comp_def, Text.decode?_encode, Option.map_some, String.toList_ofList]
  rw [parse_eq_ok_iff hreads, readings_of_sameButReturn hsame]

/-- Every text has a beginning and segments. Texts that differ in their layout and their line ends are both refused or
both read as the same metadata. -/
theorem parse_layout :
    (∀ text : String, ∃ (lines preamble : List (List Char)) (segments : List (List (List Char))),
      Spells lines text.toList ∧
      (Text.lines (Text.encode text) = lines.map fun line => Text.encode (String.ofList line)) ∧
      lines = preamble ++ segments.flatten ∧ (∀ line ∈ preamble, ¬ Mentions line "BEGIN_GROUP") ∧
      ∀ segment ∈ segments, IsSegment segment) ∧
    ∀ (lines others : List (List Char)) (text other : String), SameUpToLayout lines others →
      Spells lines text.toList → Spells others other.toList →
      ∀ m, parse (Text.encode text) = .ok m ↔ parse (Text.encode other) = .ok m := by
  constructor
  · intro text
    obtain ⟨lines, hspells, hlines⟩ := Text.exists_spells text.toList
    obtain ⟨preamble, segments, hsplit, hpreamble, hsegments⟩ := exists_segments lines
    rw [String.ofList_toList] at hlines
    exact ⟨lines, preamble, segments, hspells, hlines, hsplit, hpreamble, hsegments⟩
  · intro lines others text other hlayout htext hother m
    have hperm := hlayout.readings_perm
    rw [parse_eq_ok_iff_of_spells htext, parse_eq_ok_iff_of_spells hother]
    exact and_congr_left fun _ => ⟨hperm.symm.trans, hperm.trans⟩

/-! ### Short files -/

/-- What a file gives that has the same coefficients in all bands. -/
def uniformValue (factor bandwidth elevation : Binary32) (time : String) : MetadataSlot → FieldValue
  | .absCalFactor _ => .number factor
  | .effectiveBandwidth _ => .number bandwidth
  | .meanSunElevation => .number elevation
  | .firstLineTime => .text time.toList

def shortPreamble (elevation time : String) : List (List Char) :=
  [("meanSunEl = " ++ elevation).toList, ("firstLineTime = " ++ time).toList]

def shortSegment (factor bandwidth : String) (band : Band) : List (List Char) :=
  [("BEGIN_GROUP = " ++ band.groupName).toList, ("absCalFactor = " ++ factor).toList,
    ("effectiveBandwidth = " ++ bandwidth).toList]

/-- A file without any lines that it does not need. -/
def shortLines (factor bandwidth elevation time : String) : List (List Char) :=
  shortPreamble elevation time ++ (Band.all.map (shortSegment factor bandwidth)).flatten

def shortText (factor bandwidth elevation time : String) : String :=
  String.ofList ((shortLines factor bandwidth elevation time).flatMap (· ++ ['\n']))

/-- Lines are spelled by a text with a line feed after each. -/
theorem spells_ofList {lines : List (List Char)} (hfeed : ∀ line ∈ lines, '\n' ∉ line) :
    Spells lines (String.ofList (lines.flatMap (· ++ ['\n']))).toList := by
  rw [String.toList_ofList]
  exact Text.spells_flatMap (.inl rfl) hfeed

theorem spells_shortText {factor bandwidth elevation time : String}
    (hfeed : ∀ line ∈ shortLines factor bandwidth elevation time, '\n' ∉ line) :
    Spells (shortLines factor bandwidth elevation time) (shortText factor bandwidth elevation time).toList :=
  spells_ofList hfeed

theorem exists_parse_shortText {factor bandwidth elevation time stored : String} {x y z : Binary32}
    (hfeed : ∀ line ∈ shortLines factor bandwidth elevation time, '\n' ∉ line)
    (hreadings : (readings none (shortLines factor bandwidth elevation time)).Perm
      (MetadataSlot.all.map fun slot => some (slot, uniformValue x y z stored slot)))
    (hfactor : x.isFinite = true ∧ 0 < x) (hbandwidth : y.isFinite = true ∧ 0 < y) (helevation : 0 < z ∧ z ≤ 90)
    (htime : ∃ instant, Instant.read stored.toList = .ok instant) :
    ∃ m, parse (Text.encode (shortText factor bandwidth elevation time)) = .ok m ∧
      m.value = uniformValue x y z stored := by
  have haccepts (slot : MetadataSlot) : slot.Accepts (uniformValue x y z stored slot) := by
    cases slot with
    | absCalFactor => exact hfactor
    | effectiveBandwidth => exact hbandwidth
    | meanSunElevation => exact helevation
    | firstLineTime => exact htime
  obtain ⟨m, instant, hm, hinstant⟩ := exists_value_eq haccepts
  have husable : m.Usable := ⟨fun slot => hm ▸ haccepts slot, instant, hinstant⟩
  exact ⟨m, (parse_eq_ok_iff_of_spells (spells_shortText hfeed)).mpr ⟨hm ▸ hreadings, husable⟩, hm⟩

theorem lineFeed_not_mem_ordinary :
    ∀ line ∈ shortLines "1;" "2;" "45;" "2016-10-23T18:44:52.145617Z;", '\n' ∉ line := by decide +kernel

/-- Coefficients of ordinary size, a Sun halfway up, and a time. -/
theorem exists_parse_ordinary : ∃ m,
    parse (Text.encode (shortText "1;" "2;" "45;" "2016-10-23T18:44:52.145617Z;")) = .ok m ∧
      m.value = uniformValue 1 2 45 "2016-10-23T18:44:52.145617Z" ∧
      m.geometry.earthSunDistance = Instant.earthSunDistance ⟨⟨2016, 10, 23⟩, 18, 44, 52, 145617⟩ := by
  have hreadings : (readings none (shortLines "1;" "2;" "45;" "2016-10-23T18:44:52.145617Z;")).Perm
      (MetadataSlot.all.map fun slot => some (slot, uniformValue 1 2 45 "2016-10-23T18:44:52.145617Z" slot)) := by
    decide +kernel
  have htime : Instant.read "2016-10-23T18:44:52.145617Z".toList = .ok ⟨⟨2016, 10, 23⟩, 18, 44, 52, 145617⟩ := by
    decide +kernel
  obtain ⟨m, haccepted, hvalue⟩ := exists_parse_shortText lineFeed_not_mem_ordinary hreadings (by decide) (by decide)
    (by decide) ⟨_, htime⟩
  obtain ⟨instant, hinstant, hdistance⟩ := (usable_of_parse haccepted).distance
  have hstored : m.geometry.firstLineTime.toList = _ := FieldValue.text.inj (congrFun hvalue .firstLineTime)
  rw [hstored, htime] at hinstant
  obtain rfl := Except.ok.inj hinstant
  exact ⟨m, haccepted, hvalue, hdistance⟩

/-- A short file with the bands from the last to the first and a further line at its end. -/
def reversedLines (factor bandwidth elevation time : String) : List (List Char) :=
  shortPreamble elevation time ++ (Band.all.map (shortSegment factor bandwidth)).reverse.flatten ++ ["END;".toList]

def reversedText (factor bandwidth elevation time : String) : String :=
  String.ofList ((reversedLines factor bandwidth elevation time).flatMap (· ++ ['\r', '\n']))

theorem parse_layout_reversed : ∃ m,
    parse (Text.encode (shortText "1;" "2;" "45;" "2016-10-23T18:44:52.145617Z;")) = .ok m ∧
    parse (Text.encode (reversedText "1;" "2;" "45;" "2016-10-23T18:44:52.145617Z;")) = .ok m := by
  obtain ⟨m, haccepted, -⟩ := exists_parse_ordinary
  have hsegments : ∀ segment ∈ Band.all.map (shortSegment "1;" "2;"), IsSegment segment := by
    intro segment hmem
    obtain ⟨band, -, rfl⟩ := List.mem_map.mp hmem
    refine ⟨_, _, rfl, ?_, by decide⟩
    cases band <;> decide
  have hlayout : SameUpToLayout (shortLines "1;" "2;" "45;" "2016-10-23T18:44:52.145617Z;")
      (reversedLines "1;" "2;" "45;" "2016-10-23T18:44:52.145617Z;") := by
    have hend : LineKind.Describes "END;".toList .other := LineKind.ofLine_eq_iff.mp (by decide)
    have hinsert := SameUpToLayout.insert (shortPreamble "45;" "2016-10-23T18:44:52.145617Z;" ++
      (Band.all.map (shortSegment "1;" "2;")).reverse.flatten) [] hend
    rw [List.append_nil] at hinsert
    exact .trans (.segments (by decide) hsegments (List.reverse_perm _).symm) hinsert
  have hreversed : Spells (reversedLines "1;" "2;" "45;" "2016-10-23T18:44:52.145617Z;")
      (reversedText "1;" "2;" "45;" "2016-10-23T18:44:52.145617Z;").toList := by
    rw [reversedText, String.toList_ofList]
    exact Text.spells_flatMap (.inr rfl) (by decide +kernel)
  exact ⟨m, haccepted, (parse_layout.2 _ _ _ _ hlayout (spells_shortText lineFeed_not_mem_ordinary) hreversed m).mp haccepted⟩

end SceneMetadata

end SurfaceWater
