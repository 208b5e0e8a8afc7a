import Mathlib.Data.List.Infix
import SurfaceWater.Metadata.Parser

/-!
# What the lines of a metadata file give

A complete file fills eighteen slots: two coefficients for every band, the elevation of the Sun and
the time. Here it is said what a line gives, without the scan that reads it: the kind of a line is
decided by the first mark that occurs in it, its value is what follows the first equals sign, and the
band of a coefficient is that of the last group line above it.
-/

namespace SurfaceWater

/-! ### Kinds of lines -/

theorem occursIn_iff {part text : List Char} : occursIn part text = true ↔ part <:+: text := by
  induction text with
  | nil => simp [occursIn]
  | cons c rest ih => rw [occursIn, Bool.or_eq_true, ih, List.isPrefixOf_iff_prefix, List.infix_cons_iff]

/-- A mark occurs somewhere in a line. -/
def Mentions (line : List Char) (mark : String) : Prop := mark.toList <:+: line

instance (line : List Char) (mark : String) : Decidable (Mentions line mark) := decidable_of_iff _ occursIn_iff

namespace LineKind

/-- A line is of the kind of the first mark that it mentions. -/
def Describes (line : List Char) : LineKind → Prop
  | group => Mentions line "BEGIN_GROUP"
  | field .absCalFactor => Mentions line "absCalFactor" ∧ ¬ Mentions line "BEGIN_GROUP"
  | field .effectiveBandwidth =>
    Mentions line "effectiveBandwidth" ∧ ¬ Mentions line "BEGIN_GROUP" ∧ ¬ Mentions line "absCalFactor"
  | field .meanSunElevation =>
    Mentions line "meanSunEl" ∧ ¬ Mentions line "BEGIN_GROUP" ∧ ¬ Mentions line "absCalFactor" ∧
      ¬ Mentions line "effectiveBandwidth"
  | field .firstLineTime =>
    Mentions line "firstLineTime" ∧ ¬ Mentions line "BEGIN_GROUP" ∧ ¬ Mentions line "absCalFactor" ∧
      ¬ Mentions line "effectiveBandwidth" ∧ ¬ Mentions line "meanSunEl"
  | other =>
    ¬ Mentions line "BEGIN_GROUP" ∧ ¬ Mentions line "absCalFactor" ∧ ¬ Mentions line "effectiveBandwidth" ∧
      ¬ Mentions line "meanSunEl" ∧ ¬ Mentions line "firstLineTime"

theorem ofLine_eq (line : List Char) :
    ofLine line =
      if Mentions line "BEGIN_GROUP" then group
      else if Mentions line "absCalFactor" then field .absCalFactor
      else if Mentions line "effectiveBandwidth" then field .effectiveBandwidth
      else if Mentions line "meanSunEl" then field .meanSunElevation
      else if Mentions line "firstLineTime" then field .firstLineTime
      else other := by
  simp only [Mentions, ← occursIn_iff, ofLine, marks, groupMark, MetadataField.key, List.map_cons, List.map_nil,
    List.find?_cons, List.find?_nil]
  repeat' split
  all_goals simp_all

theorem ofLine_eq_iff {line : List Char} {kind : LineKind} : ofLine line = kind ↔ Describes line kind := by
  rw [ofLine_eq]
  by_cases hgroup : Mentions line "BEGIN_GROUP" <;> by_cases hfactor : Mentions line "absCalFactor" <;>
    by_cases hwidth : Mentions line "effectiveBandwidth" <;> by_cases hsun : Mentions line "meanSunEl" <;>
    by_cases htime : Mentions line "firstLineTime" <;>
    rcases kind with _ | (_ | _ | _ | _) | _ <;>
    simp [Describes, hgroup, hfactor, hwidth, hsun, htime]

/-- A line gives one field. -/
theorem Describes.field_eq {line : List Char} {field other : MetadataField} (h : Describes line (.field field))
    (hother : Describes line (.field other)) : field = other := by
  rw [← ofLine_eq_iff] at h hother
  exact LineKind.field.inj (h.symm.trans hother)

end LineKind

/-! ### Values -/

theorem valueText?_eq_some_iff {line value : List Char} :
    valueText? line = some value ↔ ∃ name, '=' ∉ name ∧ line = name ++ '=' :: value := by
  induction line with
  | nil => simp [valueText?]
  | cons c rest ih =>
    by_cases hc : c = '='
    · subst hc
      have hvalue : valueText? ('=' :: rest) = some rest := rfl
      rw [hvalue, Option.some.injEq]
      constructor
      · rintro rfl
        exact ⟨[], List.not_mem_nil, rfl⟩
      · intro h
        obtain ⟨name, hname, hline⟩ := h
        cases name with
        | nil => exact (List.cons.inj hline).2
        | cons d name => exact absurd (List.mem_cons.mpr (.inl (List.cons.inj hline).1)) hname
    · have hvalue : valueText? (c :: rest) = valueText? rest := by simp [valueText?, hc]
      rw [hvalue, ih]
      constructor
      · intro h
        obtain ⟨name, hname, rfl⟩ := h
        exact ⟨c :: name, List.not_mem_cons_of_ne_of_not_mem (Ne.symm hc) hname, rfl⟩
      · intro h
        obtain ⟨name, hname, hline⟩ := h
        cases name with
        | nil => exact absurd (List.cons.inj hline).1 hc
        | cons d name =>
          obtain ⟨-, hrest⟩ := List.cons.inj hline
          exact ⟨name, List.not_mem_of_not_mem_cons hname, hrest⟩

theorem exists_valueText?_iff {line : List Char} : (∃ value, valueText? line = some value) ↔ '=' ∈ line := by
  constructor
  · intro h
    obtain ⟨value, hvalue⟩ := h
    obtain ⟨name, -, rfl⟩ := valueText?_eq_some_iff.mp hvalue
    exact List.mem_append_right _ List.mem_cons_self
  · intro hmem
    obtain ⟨name, value, hline, hname⟩ := List.eq_append_cons_of_mem hmem
    exact ⟨value, valueText?_eq_some_iff.mpr ⟨name, hname, hline⟩⟩

/-- What a field of a metadata file may hold. -/
inductive FieldValue where
  | number (value : Binary32)
  | text (value : List Char)
  deriving DecidableEq

/-! ### Slots -/

/-- What a complete metadata file gives. -/
inductive MetadataSlot where
  | absCalFactor (band : Band)
  | effectiveBandwidth (band : Band)
  | meanSunElevation
  | firstLineTime
  deriving DecidableEq

namespace MetadataSlot

def field : MetadataSlot → MetadataField
  | absCalFactor _ => .absCalFactor
  | effectiveBandwidth _ => .effectiveBandwidth
  | meanSunElevation => .meanSunElevation
  | firstLineTime => .firstLineTime

/-- The band that a line must belong to in order to fill a slot. -/
def band? : MetadataSlot → Option Band
  | absCalFactor band => some band
  | effectiveBandwidth band => some band
  | meanSunElevation => none
  | firstLineTime => none

def all : List MetadataSlot :=
  Band.all.map absCalFactor ++ Band.all.map effectiveBandwidth ++ [meanSunElevation, firstLineTime]

theorem mem_all (slot : MetadataSlot) : slot ∈ all := by
  rcases slot with band | band | _ | _
  · cases band <;> decide
  · cases band <;> decide
  · decide
  · decide

theorem nodup_all : all.Nodup := by decide

theorem length_all : all.length = requiredFields := by decide

theorem exists_band?_eq_some {slot : MetadataSlot}
    (h : slot.field = .absCalFactor ∨ slot.field = .effectiveBandwidth) : ∃ band, slot.band? = some band := by
  cases slot with
  | absCalFactor band => exact ⟨band, rfl⟩
  | effectiveBandwidth band => exact ⟨band, rfl⟩
  | meanSunElevation | firstLineTime => rcases h with h | h <;> cases h

/-- A field has one slot for the band that is open. -/
theorem eq_of_field_eq {slot other : MetadataSlot} {current : Option Band} (hfield : slot.field = other.field)
    (hband : ∀ band, slot.band? = some band → current = some band)
    (hother : ∀ band, other.band? = some band → current = some band) : other = slot := by
  rcases slot with band | band | _ | _ <;> rcases other with band' | band' | _ | _ <;>
    simp [field, band?] at hfield hband hother ⊢
  · exact Option.some.inj (hother.symm.trans hband)
  · exact Option.some.inj (hother.symm.trans hband)

/-- The value that a line has for a slot, if it has one that can be read. -/
def read? (slot : MetadataSlot) (line : List Char) : Option FieldValue := do
  let text ← (valueText? line).map Instant.clean
  match slot with
  | firstLineTime => return .text text
  | _ => return .number (← Numeral.read? text).toBinary

/-- The values that a complete file may have in a slot. -/
def Accepts : MetadataSlot → FieldValue → Prop
  | absCalFactor _, .number value => value.isFinite ∧ 0 < value
  | effectiveBandwidth _, .number value => value.isFinite ∧ 0 < value
  | meanSunElevation, .number value => 0 < value ∧ value ≤ 90
  | firstLineTime, .text value => ∃ instant, Instant.read value = .ok instant
  | _, _ => False

end MetadataSlot

/-! ### Complete files -/

/-- The band that a group line opens, if it names one. -/
def groupBand? (line : List Char) : Option Band :=
  Band.ofGroupName? (String.ofList (Text.trim ((valueText? line).getD [])))

namespace MetadataLines

/-- The band of the last group line above a line. -/
def openBand? (lines : List (List Char)) (i : Nat) : Option Band :=
  ((lines.take i).reverse.find? fun line => LineKind.ofLine line = .group).bind groupBand?

/-- A line of a file fills a slot. -/
def Fills (lines : List (List Char)) (i : Nat) (slot : MetadataSlot) : Prop :=
  ∃ line, lines[i]? = some line ∧ LineKind.Describes line (.field slot.field) ∧
    ∀ band, slot.band? = some band → openBand? lines i = some band

/-- Every line that names a field can be read: a coefficient has a band, and the value is of its kind. -/
structure Readable (lines : List (List Char)) : Prop where
  grouped : ∀ i line field, lines[i]? = some line → LineKind.Describes line (.field field) →
    field = .absCalFactor ∨ field = .effectiveBandwidth → ∃ band, openBand? lines i = some band
  valued : ∀ i line slot, lines[i]? = some line → Fills lines i slot →
    '=' ∈ line ∧ ∃ value, slot.read? line = some value

/-- A file gives everything once, in its place, and with a value that calibration can use. -/
structure Complete (lines : List (List Char)) : Prop extends Readable lines where
  once : ∀ slot, ∃! i, Fills lines i slot
  accepted : ∀ i line slot value, lines[i]? = some line → Fills lines i slot → slot.read? line = some value →
    slot.Accepts value

/-! ### One more line -/

variable {lines : List (List Char)} {line : List Char}

theorem openBand?_append_of_le {i : Nat} (hi : i ≤ lines.length) (more : List (List Char)) :
    openBand? (lines ++ more) i = openBand? lines i := by
  rw [openBand?, openBand?, List.take_append_of_le_length hi]

theorem openBand?_concat (lines : List (List Char)) (line : List Char) :
    openBand? (lines ++ [line]) (lines.length + 1) =
      if LineKind.ofLine line = .group then groupBand? line else openBand? lines lines.length := by
  have hall : (lines ++ [line]).take (lines.length + 1) = lines ++ [line] := List.take_of_length_le (by simp)
  rw [openBand?, openBand?, hall, List.take_length, List.reverse_concat, List.find?_cons]
  by_cases hgroup : LineKind.ofLine line = .group
  · simp [hgroup]
  · simp [hgroup]

theorem Fills.lt {i : Nat} {slot : MetadataSlot} (h : Fills lines i slot) : i < lines.length := by
  obtain ⟨line, hline, -⟩ := h
  exact (List.getElem?_eq_some_iff.mp hline).1

theorem fills_append_iff {i : Nat} (hi : i < lines.length) (more : List (List Char)) {slot : MetadataSlot} :
    Fills (lines ++ more) i slot ↔ Fills lines i slot := by
  rw [Fills, Fills, List.getElem?_append_left hi, openBand?_append_of_le hi.le]

/-- What the last line fills is decided by the band that is open before it. -/
theorem fills_concat_iff {slot : MetadataSlot} :
    Fills (lines ++ [line]) lines.length slot ↔ LineKind.Describes line (.field slot.field) ∧
      ∀ band, slot.band? = some band → openBand? lines lines.length = some band := by
  simp [Fills, openBand?_append_of_le]

/-- A line that gives a field fills at most one slot. -/
theorem Fills.slot_eq {i : Nat} {slot other : MetadataSlot} (h : Fills lines i slot) (hother : Fills lines i other) :
    other = slot := by
  obtain ⟨line, hline, hkind, hband⟩ := h
  obtain ⟨line', hline', hkind', hband'⟩ := hother
  obtain rfl : line = line' := Option.some.inj (hline.symm.trans hline')
  exact MetadataSlot.eq_of_field_eq (hkind.field_eq hkind') hband hband'

/-- A readable line that gives a field fills a slot of the field. -/
theorem Readable.exists_fills (h : Readable lines) {i : Nat} {field : MetadataField} (hline : lines[i]? = some line)
    (hkind : LineKind.Describes line (.field field)) : ∃ slot : MetadataSlot, slot.field = field ∧ Fills lines i slot := by
  cases field with
  | absCalFactor =>
    obtain ⟨band, hband⟩ := h.grouped i line _ hline hkind (.inl rfl)
    refine ⟨.absCalFactor band, rfl, line, hline, hkind, ?_⟩
    rintro _ ⟨⟩
    exact hband
  | effectiveBandwidth =>
    obtain ⟨band, hband⟩ := h.grouped i line _ hline hkind (.inr rfl)
    refine ⟨.effectiveBandwidth band, rfl, line, hline, hkind, ?_⟩
    rintro _ ⟨⟩
    exact hband
  | meanSunElevation => exact ⟨.meanSunElevation, rfl, line, hline, hkind, by rintro _ ⟨⟩⟩
  | firstLineTime => exact ⟨.firstLineTime, rfl, line, hline, hkind, by rintro _ ⟨⟩⟩

end MetadataLines

/-- The lines of a byte sequence, all of them texts. -/
def ReadsAs (bytes : List UInt8) (lines : List (List Char)) : Prop :=
  (Text.lines bytes).map (fun line => (Text.decode? line).map String.toList) = lines.map some

/-- What metadata holds in a slot. -/
def SceneMetadata.value (m : SceneMetadata) : MetadataSlot → FieldValue
  | .absCalFactor band => .number (m.coefficients.get band).absCalFactor
  | .effectiveBandwidth band => .number (m.coefficients.get band).effectiveBandwidth
  | .meanSunElevation => .number m.geometry.meanSunElevation
  | .firstLineTime => .text m.geometry.firstLineTime.toList

end SurfaceWater
