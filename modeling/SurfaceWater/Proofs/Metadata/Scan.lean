import SurfaceWater.Proofs.Except
import SurfaceWater.Proofs.Metadata.Slots

/-!
# The scan of a metadata file

The scan keeps one counter for all fields, and a later line of a field overwrites an earlier one. What
it holds after a number of lines is related to these lines by `MetadataScan.Holds`: the counter is the
number of pairs of a line and the slot that it fills, and every slot holds the value of a line that
fills it. Whether some slot was filled twice cannot be seen from one step, only from the count.
-/

namespace SurfaceWater

namespace MetadataScan

/-- What a scan holds in a slot. -/
def value? (scan : MetadataScan) : MetadataSlot → Option FieldValue
  | .absCalFactor band => (scan.absCalFactor.get band).map .number
  | .effectiveBandwidth band => (scan.effectiveBandwidth.get band).map .number
  | .meanSunElevation => scan.meanSunElevation.map .number
  | .firstLineTime => scan.firstLineTime.map .text

theorem value?_start (slot : MetadataSlot) : start.value? slot = none := by
  rcases slot with band | band | _ | _
  · cases band <;> rfl
  · cases band <;> rfl
  · rfl
  · rfl

/-! ### One line -/

theorem number_eq_ok_iff {lineNumber : Nat} {field : MetadataField} {line : List Char} {value : Binary32} :
    number lineNumber field line = .ok value ↔
      ∃ text, (valueText? line).map Instant.clean = some text ∧
        ∃ numeral, Numeral.read? text = some numeral ∧ numeral.toBinary = value := by
  unfold number
  cases (valueText? line).map Instant.clean with
  | none => simp
  | some text =>
    cases hread : Numeral.read? text with
    | none => simp [hread]
    | some numeral => simp [hread]

/-- A number in a line is read alike for all slots that hold one. -/
theorem number_eq_ok_iff_read? {lineNumber : Nat} {field : MetadataField} {line : List Char} {value : Binary32}
    {slot : MetadataSlot} (hslot : slot ≠ .firstLineTime) :
    number lineNumber field line = .ok value ↔ slot.read? line = some (.number value) := by
  rw [number_eq_ok_iff]
  cases slot with
  | firstLineTime => exact absurd rfl hslot
  | absCalFactor | effectiveBandwidth | meanSunElevation =>
    simp [MetadataSlot.read?, Option.bind_eq_some_iff]

theorem exists_of_read? {line : List Char} {value : FieldValue} {slot : MetadataSlot} (hslot : slot ≠ .firstLineTime)
    (hread : slot.read? line = some value) : ∃ x, value = .number x := by
  cases slot with
  | firstLineTime => exact absurd rfl hslot
  | absCalFactor | effectiveBandwidth | meanSunElevation =>
    simp only [MetadataSlot.read?, Option.bind_eq_bind, Option.bind_eq_some_iff, Option.pure_def,
      Option.some.injEq] at hread
    obtain ⟨text, -, numeral, -, hvalue⟩ := hread
    exact ⟨_, hvalue.symm⟩

/-- A line that has a value has an equals sign. -/
theorem mem_of_read? {line : List Char} {value : FieldValue} {slot : MetadataSlot}
    (hread : slot.read? line = some value) : '=' ∈ line := by
  unfold MetadataSlot.read? at hread
  obtain ⟨text, htext, -⟩ := Option.bind_eq_some_iff.mp hread
  obtain ⟨value, hvalue, -⟩ := Option.map_eq_some_iff.mp htext
  exact exists_valueText?_iff.mp ⟨value, hvalue⟩

theorem read?_firstLineTime {line : List Char} :
    MetadataSlot.firstLineTime.read? line = (valueText? line).map fun text => .text (Instant.clean text) := by
  cases hvalue : valueText? line <;> simp [MetadataSlot.read?, hvalue]

/-- What a line does to the counter and the slots of a scan. -/
inductive Step (scan : MetadataScan) (line : List Char) (next : MetadataScan) : Prop where
  | passes (kind : ∀ field, ¬ LineKind.Describes line (.field field)) (found : next.found = scan.found)
      (values : next.value? = scan.value?)
  | fills (slot : MetadataSlot) (value : FieldValue) (kind : LineKind.Describes line (.field slot.field))
      (group : ∀ band, slot.band? = some band → scan.band = some band) (read : slot.read? line = some value)
      (found : next.found = scan.found + 1) (values : next.value? = Function.update scan.value? slot (some value))

theorem currentBand_eq_ok_iff {scan : MetadataScan} {lineNumber : Nat} {field : MetadataField} {band : Band} :
    scan.currentBand lineNumber field = .ok band ↔ scan.band = some band := by
  unfold currentBand
  cases scan.band <;> simp

theorem not_field_of_describes {line : List Char} {kind : LineKind} (h : LineKind.Describes line kind)
    (hkind : ∀ field, kind ≠ .field field) (field : MetadataField) : ¬ LineKind.Describes line (.field field) := by
  intro hfield
  rw [← LineKind.ofLine_eq_iff] at h hfield
  exact hkind field (h.symm.trans hfield)

theorem step_of_line {scan next : MetadataScan} {lineNumber : Nat} {line : List Char}
    (h : scan.line lineNumber line = .ok next) : Step scan line next := by
  unfold MetadataScan.line at h
  split at h <;> rename_i hkind <;> rw [LineKind.ofLine_eq_iff] at hkind
  · cases h
    exact .passes (not_field_of_describes hkind (by simp)) rfl rfl
  · simp only [bind_eq_ok_iff, pure_eq_ok_iff, currentBand_eq_ok_iff] at h
    obtain ⟨band, hband, value, hvalue, rfl⟩ := h
    refine .fills (.absCalFactor band) (.number value) hkind ?_ ?_ rfl ?_
    · intro _ hnone
      cases hnone
      exact hband
    · exact (number_eq_ok_iff_read? (by simp)).mp hvalue
    · funext slot
      cases slot with
      | absCalFactor other =>
        by_cases hother : other = band
        · subst hother
          simp [value?]
        · simp [value?, BandVector.get_set_ne, hother]
      | effectiveBandwidth | meanSunElevation | firstLineTime => simp [value?]
  · simp only [bind_eq_ok_iff, pure_eq_ok_iff, currentBand_eq_ok_iff] at h
    obtain ⟨band, hband, value, hvalue, rfl⟩ := h
    refine .fills (.effectiveBandwidth band) (.number value) hkind ?_ ?_ rfl ?_
    · intro _ hnone
      cases hnone
      exact hband
    · exact (number_eq_ok_iff_read? (by simp)).mp hvalue
    · funext slot
      cases slot with
      | effectiveBandwidth other =>
        by_cases hother : other = band
        · subst hother
          simp [value?]
        · simp [value?, BandVector.get_set_ne, hother]
      | absCalFactor | meanSunElevation | firstLineTime => simp [value?]
  · simp only [bind_eq_ok_iff, pure_eq_ok_iff] at h
    obtain ⟨value, hvalue, rfl⟩ := h
    refine .fills .meanSunElevation (.number value) hkind ?_ ?_ rfl ?_
    · intro _ hnone
      cases hnone
    · exact (number_eq_ok_iff_read? (by simp)).mp hvalue
    · funext slot
      cases slot <;> simp [value?]
  · split at h
    · cases h
    · rename_i value hvalue
      cases h
      refine .fills .firstLineTime (.text (Instant.clean value)) hkind ?_ ?_ rfl ?_
      · intro _ hnone
        cases hnone
      · rw [read?_firstLineTime, hvalue, Option.map_some]
      · funext slot
        cases slot <;> simp [value?]
  · cases h
    exact .passes (not_field_of_describes hkind (by simp)) rfl rfl

/-- Only a group line changes the band. -/
theorem band_of_line {scan next : MetadataScan} {lineNumber : Nat} {line : List Char}
    (h : scan.line lineNumber line = .ok next) :
    next.band = if LineKind.ofLine line = .group then groupBand? line else scan.band := by
  unfold MetadataScan.line at h
  split at h <;> rename_i hkind <;> rw [hkind]
  · cases h
    rfl
  · simp only [bind_eq_ok_iff, pure_eq_ok_iff] at h
    obtain ⟨band, -, value, -, rfl⟩ := h
    rfl
  · simp only [bind_eq_ok_iff, pure_eq_ok_iff] at h
    obtain ⟨band, -, value, -, rfl⟩ := h
    rfl
  · simp only [bind_eq_ok_iff, pure_eq_ok_iff] at h
    obtain ⟨value, -, rfl⟩ := h
    rfl
  · split at h
    · cases h
    · cases h
      rfl
  · cases h
    rfl

/-- A line can be read if it gives no field, or has a band and a value for the field that it gives. -/
theorem exists_line_eq_ok {scan : MetadataScan} {line : List Char} (lineNumber : Nat)
    (h : ∀ field, LineKind.Describes line (.field field) → ∃ slot value, MetadataSlot.field slot = field ∧
      (∀ band, slot.band? = some band → scan.band = some band) ∧ slot.read? line = some value) :
    ∃ next, scan.line lineNumber line = .ok next := by
  unfold MetadataScan.line
  split <;> rename_i hkind <;> rw [LineKind.ofLine_eq_iff] at hkind
  · exact ⟨_, rfl⟩
  · obtain ⟨slot, value, hfield, hband, hread⟩ := h _ hkind
    cases slot <;> try contradiction
    rename_i band
    obtain ⟨x, rfl⟩ := exists_of_read? (by simp) hread
    simp only [bind_eq_ok_iff, pure_eq_ok_iff, currentBand_eq_ok_iff]
    exact ⟨_, band, hband band rfl, x, (number_eq_ok_iff_read? (by simp)).mpr hread, rfl⟩
  · obtain ⟨slot, value, hfield, hband, hread⟩ := h _ hkind
    cases slot <;> try contradiction
    rename_i band
    obtain ⟨x, rfl⟩ := exists_of_read? (by simp) hread
    simp only [bind_eq_ok_iff, pure_eq_ok_iff, currentBand_eq_ok_iff]
    exact ⟨_, band, hband band rfl, x, (number_eq_ok_iff_read? (by simp)).mpr hread, rfl⟩
  · obtain ⟨slot, value, hfield, hband, hread⟩ := h _ hkind
    cases slot <;> try contradiction
    obtain ⟨x, rfl⟩ := exists_of_read? (by simp) hread
    simp only [bind_eq_ok_iff, pure_eq_ok_iff]
    exact ⟨_, x, (number_eq_ok_iff_read? (by simp)).mpr hread, rfl⟩
  · obtain ⟨slot, value, hfield, hband, hread⟩ := h _ hkind
    cases slot <;> try contradiction
    rw [read?_firstLineTime] at hread
    cases hvalue : valueText? line with
    | none => simp [hvalue] at hread
    | some text => exact ⟨_, rfl⟩
  · exact ⟨_, rfl⟩

/-! ### What a scan holds -/

open MetadataLines

/-- A scan after some lines. Its counter is the number of lines that filled a slot, and every slot that
was filled holds the value of one of the lines that filled it. -/
structure Holds (scan : MetadataScan) (lines : List (List Char)) : Prop extends Readable lines where
  band : scan.band = openBand? lines lines.length
  found : ∃ seen : List (Nat × MetadataSlot), seen.Nodup ∧ (∀ i slot, (i, slot) ∈ seen ↔ Fills lines i slot) ∧
    scan.found = seen.length
  value_of : ∀ slot value, scan.value? slot = some value →
    ∃ i line, lines[i]? = some line ∧ Fills lines i slot ∧ slot.read? line = some value
  value : ∀ i slot, Fills lines i slot → ∃ value, scan.value? slot = some value

theorem holds_start : Holds start [] where
  grouped := fun i line field hline => by simp at hline
  valued := fun i line slot hline => by simp at hline
  band := rfl
  found := ⟨[], List.nodup_nil, fun i slot => ⟨fun h => absurd h List.not_mem_nil, fun h => absurd h.lt (by simp)⟩, rfl⟩
  value_of := fun slot value h => by simp [value?_start] at h
  value := fun i slot h => absurd h.lt (by simp)

section

variable {scan next : MetadataScan} {lines : List (List Char)} {line : List Char}

/-- A place in a longer list is in the list, or is its end. -/
theorem getElem?_concat_cases {i : Nat} {found : List Char} (h : (lines ++ [line])[i]? = some found) :
    (i < lines.length ∧ lines[i]? = some found) ∨ (i = lines.length ∧ found = line) := by
  rcases Nat.lt_trichotomy i lines.length with hlt | rfl | hgt
  · exact .inl ⟨hlt, by rwa [List.getElem?_append_left hlt] at h⟩
  · exact .inr ⟨rfl, by simpa using h.symm⟩
  · obtain ⟨hlength, -⟩ := List.getElem?_eq_some_iff.mp h
    simp only [List.length_append, List.length_singleton] at hlength
    omega

/-- A line that gives no field fills nothing. -/
theorem fills_concat_of_not_field (hline : ∀ field, ¬ LineKind.Describes line (.field field)) {i : Nat}
    {slot : MetadataSlot} : Fills (lines ++ [line]) i slot ↔ Fills lines i slot := by
  constructor
  · intro h
    rcases Nat.lt_or_ge i lines.length with hi | hi
    · exact (fills_append_iff hi _).mp h
    · have := h.lt
      obtain rfl : i = lines.length := by simp at this; omega
      exact absurd (fills_concat_iff.mp h).1 (hline _)
  · exact fun h => (fills_append_iff h.lt _).mpr h

/-- A line that fills a slot fills no other. -/
theorem fills_concat_of_field {slot other : MetadataSlot} (hline : Fills (lines ++ [line]) lines.length slot)
    {i : Nat} : Fills (lines ++ [line]) i other ↔ Fills lines i other ∨ (i = lines.length ∧ other = slot) := by
  constructor
  · intro h
    rcases Nat.lt_or_ge i lines.length with hi | hi
    · exact .inl ((fills_append_iff hi _).mp h)
    · have := h.lt
      obtain rfl : i = lines.length := by simp at this; omega
      exact .inr ⟨rfl, hline.slot_eq h⟩
  · rintro (h | ⟨rfl, rfl⟩)
    · exact (fills_append_iff h.lt _).mpr h
    · exact hline

theorem Holds.passes (h : Holds scan lines) (hband : next.band = openBand? (lines ++ [line]) (lines.length + 1))
    (hkind : ∀ field, ¬ LineKind.Describes line (.field field)) (hfound : next.found = scan.found)
    (hvalues : next.value? = scan.value?) : Holds next (lines ++ [line]) where
  grouped := by
    intro i found field hfound hfield hcoefficient
    rcases getElem?_concat_cases hfound with ⟨hi, hline⟩ | ⟨rfl, rfl⟩
    · rw [openBand?_append_of_le hi.le]
      exact h.grouped i found field hline hfield hcoefficient
    · exact absurd hfield (hkind field)
  valued := by
    intro i found slot hfound hfills
    rw [fills_concat_of_not_field hkind] at hfills
    rw [List.getElem?_append_left hfills.lt] at hfound
    exact h.valued i found slot hfound hfills
  band := by rw [hband, List.length_append, List.length_singleton]
  found := by
    obtain ⟨seen, hnodup, hseen, hcount⟩ := h.found
    refine ⟨seen, hnodup, fun i slot => ?_, hfound.trans hcount⟩
    rw [hseen, fills_concat_of_not_field hkind]
  value_of := by
    intro slot value hvalue
    rw [hvalues] at hvalue
    obtain ⟨i, found, hline, hfills, hread⟩ := h.value_of slot value hvalue
    exact ⟨i, found, by rwa [List.getElem?_append_left hfills.lt], (fills_concat_of_not_field hkind).mpr hfills, hread⟩
  value := by
    intro i slot hfills
    rw [hvalues]
    exact h.value i slot ((fills_concat_of_not_field hkind).mp hfills)

theorem Holds.fills (h : Holds scan lines) (hband : next.band = openBand? (lines ++ [line]) (lines.length + 1))
    {slot : MetadataSlot} {value : FieldValue} (hline : Fills (lines ++ [line]) lines.length slot)
    (hread : slot.read? line = some value) (hfound : next.found = scan.found + 1)
    (hvalues : next.value? = Function.update scan.value? slot (some value)) : Holds next (lines ++ [line]) where
  grouped := by
    intro i found field hfound hfield hcoefficient
    rcases getElem?_concat_cases hfound with ⟨hi, hline⟩ | ⟨rfl, rfl⟩
    · rw [openBand?_append_of_le hi.le]
      exact h.grouped i found field hline hfield hcoefficient
    · obtain ⟨_, hfound', hkind, hslot⟩ := hline
      obtain rfl := Option.some.inj (hfound.symm.trans hfound')
      rw [hfield.field_eq hkind] at hcoefficient
      obtain ⟨band, hband⟩ := MetadataSlot.exists_band?_eq_some hcoefficient
      exact ⟨band, hslot band hband⟩
  valued := by
    intro i found other hfound hfills
    rcases (fills_concat_of_field hline).mp hfills with hfills | ⟨rfl, rfl⟩
    · rw [List.getElem?_append_left hfills.lt] at hfound
      exact h.valued i found other hfound hfills
    · obtain rfl : line = found := by simpa using hfound
      exact ⟨mem_of_read? hread, value, hread⟩
  band := by rw [hband, List.length_append, List.length_singleton]
  found := by
    obtain ⟨seen, hnodup, hseen, hcount⟩ := h.found
    refine ⟨(lines.length, slot) :: seen, List.nodup_cons.mpr ⟨fun hmem => ?_, hnodup⟩, fun i other => ?_, ?_⟩
    · exact absurd ((hseen _ _).mp hmem).lt (Nat.lt_irrefl _)
    · rw [List.mem_cons, hseen, fills_concat_of_field hline, Prod.mk.injEq, or_comm]
    · rw [hfound, hcount, List.length_cons]
  value_of := by
    intro other found hvalue
    rw [hvalues] at hvalue
    by_cases hother : other = slot
    · subst hother
      rw [Function.update_self, Option.some.injEq] at hvalue
      exact ⟨lines.length, line, by simp, hline, hvalue ▸ hread⟩
    · rw [Function.update_of_ne hother] at hvalue
      obtain ⟨i, past, hpast, hfills, hread⟩ := h.value_of other found hvalue
      exact ⟨i, past, by rwa [List.getElem?_append_left hfills.lt], (fills_append_iff hfills.lt _).mpr hfills, hread⟩
  value := by
    intro i other hfills
    rw [hvalues]
    by_cases hother : other = slot
    · exact ⟨value, by rw [hother, Function.update_self]⟩
    · rw [Function.update_of_ne hother]
      rcases (fills_concat_of_field hline).mp hfills with hfills | ⟨-, hslot⟩
      · exact h.value i other hfills
      · exact absurd hslot hother

/-- One line keeps what a scan holds. -/
theorem Holds.step {lineNumber : Nat} (h : Holds scan lines) (hnext : scan.line lineNumber line = .ok next) :
    Holds next (lines ++ [line]) := by
  have hband : next.band = openBand? (lines ++ [line]) (lines.length + 1) := by
    rw [band_of_line hnext, openBand?_concat, h.band]
  cases step_of_line hnext with
  | passes kind found values => exact h.passes hband kind found values
  | fills slot value kind group read found values =>
    rw [h.band] at group
    exact h.fills hband (fills_concat_iff.mpr ⟨kind, group⟩) read found values

/-- What one line keeps is kept to the end of all lines. -/
theorem run_of_step {Kept : MetadataScan → List (List Char) → Prop}
    (hstep : ∀ {scan next : MetadataScan} {past : List (List Char)} {lineNumber : Nat} {line : List Char},
      Kept scan past → scan.line lineNumber line = .ok next → Kept next (past ++ [line]))
    {past : List (List Char)} {rest : List (List UInt8)} {lineNumber : Nat} (h : Kept scan past)
    (hrest : MetadataScan.lines lineNumber scan rest = .ok next) :
    ∃ texts, rest.map (fun line => (Text.decode? line).map String.toList) = texts.map some ∧
      Kept next (past ++ texts) := by
  induction rest generalizing lineNumber scan past with
  | nil =>
    cases hrest
    exact ⟨[], rfl, by rwa [List.append_nil]⟩
  | cons bytes rest ih =>
    unfold MetadataScan.lines at hrest
    split at hrest
    · cases hrest
    · rename_i text hdecode
      obtain ⟨middle, hmiddle, hrest⟩ := bind_eq_ok_iff.mp hrest
      obtain ⟨texts, htexts, hkept⟩ := ih (hstep h hmiddle) hrest
      refine ⟨text.toList :: texts, ?_, ?_⟩
      · rw [List.map_cons, List.map_cons, hdecode, htexts, Option.map_some]
      · rwa [List.append_assoc] at hkept

/-- A scan that comes to the end of its lines holds what all of them say. -/
theorem Holds.run {past : List (List Char)} {rest : List (List UInt8)} {lineNumber : Nat} (h : Holds scan past)
    (hrest : MetadataScan.lines lineNumber scan rest = .ok next) :
    ∃ texts, rest.map (fun line => (Text.decode? line).map String.toList) = texts.map some ∧
      Holds next (past ++ texts) := run_of_step Holds.step h hrest

/-- A scan comes to the end of lines that can all be read. -/
theorem Holds.exists_run {past texts : List (List Char)} {rest : List (List UInt8)} (lineNumber : Nat)
    (h : Holds scan past) (hrest : rest.map (fun line => (Text.decode? line).map String.toList) = texts.map some)
    (hreadable : Readable (past ++ texts)) : ∃ next, MetadataScan.lines lineNumber scan rest = .ok next := by
  induction rest generalizing lineNumber scan past texts with
  | nil => exact ⟨scan, rfl⟩
  | cons bytes rest ih =>
    cases texts with
    | nil => simp at hrest
    | cons text texts =>
      obtain ⟨hdecode, htexts⟩ := List.cons.inj hrest
      obtain ⟨string, hstring, rfl⟩ := Option.map_eq_some_iff.mp hdecode
      have hline : (past ++ string.toList :: texts)[past.length]? = some string.toList := by simp
      have hexists : ∃ middle, scan.line lineNumber string.toList = .ok middle := by
        apply exists_line_eq_ok lineNumber
        intro field hfield
        obtain ⟨slot, hslot, hfills⟩ := hreadable.exists_fills hline hfield
        obtain ⟨-, value, hread⟩ := hreadable.valued _ _ _ hline hfills
        obtain ⟨-, -, -, hband⟩ := hfills
        refine ⟨slot, value, hslot, fun band hslotBand => ?_, hread⟩
        rw [h.band, ← hband band hslotBand, openBand?_append_of_le (Nat.le_refl _)]
      obtain ⟨middle, hmiddle⟩ := hexists
      rw [List.append_cons] at hreadable
      obtain ⟨next, hnext⟩ := ih (lineNumber + 1) (h.step hmiddle) htexts hreadable
      refine ⟨next, ?_⟩
      unfold MetadataScan.lines
      rw [hstring]
      exact bind_eq_ok_iff.mpr ⟨middle, hmiddle, hnext⟩

end

end MetadataScan

end SurfaceWater
