import SurfaceWater.Proofs.Metadata.Acceptance

/-!
# The readings of a file

What the lines of a file give, one after another, as a list of slots with their values. The scan keeps the length
of this list and the last value for every slot. At its end the counter must be the number of slots and no slot may
be empty; so the list must be the metadata, each slot with its value once, in any order.
-/

namespace SurfaceWater

/-- A value for a slot. -/
abbrev MetadataReading := MetadataSlot × FieldValue

namespace MetadataLines

/-- The slot of a field while a band is open. -/
def slot? (band : Option Band) : MetadataField → Option MetadataSlot
  | .absCalFactor => band.map .absCalFactor
  | .effectiveBandwidth => band.map .effectiveBandwidth
  | .meanSunElevation => some .meanSunElevation
  | .firstLineTime => some .firstLineTime

/-- What a line gives while a band is open, if anything. A field that has no band or no value gives a reading that
cannot be used. -/
def reading (band : Option Band) (line : List Char) : List (Option MetadataReading) :=
  match LineKind.ofLine line with
  | .field field => [(slot? band field).bind fun slot => (slot.read? line).map (Prod.mk slot)]
  | _ => []

/-- The band that is open after a line. -/
def bandAfter (band : Option Band) (line : List Char) : Option Band :=
  if LineKind.ofLine line = .group then groupBand? line else band

/-- What lines give that follow a line after which a band is open. -/
def readings : Option Band → List (List Char) → List (Option MetadataReading)
  | _, [] => []
  | band, line :: rest => reading band line ++ readings (bandAfter band line) rest

variable {band : Option Band} {line : List Char} {field : MetadataField} {slot : MetadataSlot}

theorem slot?_eq_some_iff :
    slot? band field = some slot ↔ slot.field = field ∧ ∀ b, slot.band? = some b → band = some b := by
  cases field <;> cases slot <;> cases band <;> simp [slot?, MetadataSlot.field, MetadataSlot.band?]

theorem reading_of_field (h : LineKind.Describes line (.field field)) :
    reading band line = [(slot? band field).bind fun slot => (slot.read? line).map (Prod.mk slot)] := by
  rw [reading, LineKind.ofLine_eq_iff.mpr h]

theorem reading_of_not_field (h : ∀ field, ¬ LineKind.Describes line (.field field)) : reading band line = [] := by
  rw [reading]
  split
  · rename_i field hkind
    exact absurd (LineKind.ofLine_eq_iff.mp hkind) (h field)
  · rfl

end MetadataLines

namespace MetadataScan

open MetadataLines

/-- What readings leave in the slots: the last value of each. -/
def collected (given : List MetadataReading) : MetadataSlot → Option FieldValue :=
  given.foldl (fun values reading => Function.update values reading.1 (some reading.2)) fun _ => none

theorem collected_concat (given : List MetadataReading) (reading : MetadataReading) :
    collected (given ++ [reading]) = Function.update (collected given) reading.1 (some reading.2) :=
  List.foldl_concat ..

theorem mem_of_collected {given : List MetadataReading} {slot : MetadataSlot} {value : FieldValue}
    (h : collected given slot = some value) : (slot, value) ∈ given := by
  induction given using List.reverseRecOn with
  | nil => cases h
  | append_singleton given reading ih =>
    rw [collected_concat] at h
    by_cases hslot : slot = reading.1
    · subst hslot
      rw [Function.update_self, Option.some.injEq] at h
      subst h
      exact List.mem_append_right _ (List.mem_singleton.mpr rfl)
    · rw [Function.update_of_ne hslot] at h
      exact List.mem_append_left _ (ih h)

/-- A slot with only one value has this value. -/
theorem collected_eq {given : List MetadataReading} {slot : MetadataSlot} {value : FieldValue}
    (hmem : (slot, value) ∈ given) (honly : ∀ other, (slot, other) ∈ given → other = value) :
    collected given slot = some value := by
  have hexists : ∃ other, collected given slot = some other := by
    clear honly
    induction given using List.reverseRecOn with
    | nil => exact absurd hmem List.not_mem_nil
    | append_singleton given reading ih =>
      rw [collected_concat]
      by_cases hslot : slot = reading.1
      · exact ⟨reading.2, by rw [hslot, Function.update_self]⟩
      · rw [Function.update_of_ne hslot]
        apply ih
        rcases List.mem_append.mp hmem with hgiven | hlast
        · exact hgiven
        · exact absurd (congrArg Prod.fst (List.mem_singleton.mp hlast)) hslot
  obtain ⟨other, hother⟩ := hexists
  rw [hother, honly other (mem_of_collected hother)]

/-- As many readings as there are slots, and a value in every slot: the readings are these values. -/
theorem collected_perm_iff {given : List MetadataReading} {values : MetadataSlot → FieldValue} :
    (given.length = requiredFields ∧ ∀ slot, collected given slot = some (values slot)) ↔
      given.Perm (MetadataSlot.all.map fun slot => (slot, values slot)) := by
  have hmem (slot : MetadataSlot) (value : FieldValue) :
      (slot, value) ∈ MetadataSlot.all.map (fun slot => (slot, values slot)) ↔ value = values slot := by
    simp [MetadataSlot.mem_all, eq_comm]
  constructor
  · intro h
    obtain ⟨hlength, hvalues⟩ := h
    have hnodup : (MetadataSlot.all.map fun slot => (slot, values slot)).Nodup :=
      MetadataSlot.nodup_all.map fun slot other heq => congrArg Prod.fst heq
    have hsubset : (MetadataSlot.all.map fun slot => (slot, values slot)) ⊆ given := by
      rintro ⟨slot, value⟩ hslot
      rw [(hmem slot value).mp hslot]
      exact mem_of_collected (hvalues slot)
    apply List.Perm.symm
    apply (List.subperm_of_subset hnodup hsubset).perm_of_length_le
    rw [List.length_map, hlength, MetadataSlot.length_all]
  · intro hperm
    refine ⟨by rw [hperm.length_eq, List.length_map, MetadataSlot.length_all], fun slot => ?_⟩
    apply collected_eq (hperm.mem_iff.mpr ((hmem slot _).mpr rfl))
    intro other hother
    exact (hmem slot other).mp (hperm.mem_iff.mp hother)

/-! ### The scan -/

/-- A scan has read what some lines gave. -/
structure Gathers (scan : MetadataScan) (given : List MetadataReading) : Prop where
  found_eq : scan.found = given.length
  values_eq : scan.value? = collected given

theorem gathers_start : start.Gathers [] := ⟨rfl, funext value?_start⟩

variable {scan next : MetadataScan} {given : List MetadataReading} {lineNumber : Nat}

/-- A line that was read gave what it gives. -/
theorem Gathers.line (h : scan.Gathers given) {line : List Char} (hnext : scan.line lineNumber line = .ok next) :
    ∃ more, reading scan.band line = more.map some ∧ next.Gathers (given ++ more) := by
  cases step_of_line hnext with
  | passes kind found values =>
    refine ⟨[], reading_of_not_field kind, ?_⟩
    rw [List.append_nil]
    exact ⟨found.trans h.found_eq, values.trans h.values_eq⟩
  | fills slot value kind group read found values =>
    refine ⟨[(slot, value)], ?_, ?_, ?_⟩
    · rw [reading_of_field kind, slot?_eq_some_iff.mpr ⟨rfl, group⟩, Option.bind_some, read]
      rfl
    · rw [found, h.found_eq, List.length_append, List.length_singleton]
    · rw [values, h.values_eq, collected_concat]

/-- A line is read if it gives nothing that cannot be used. -/
theorem exists_line_of_reading {line : List Char} (lineNumber : Nat)
    (h : ∀ given ∈ reading scan.band line, given.isSome) : ∃ next, scan.line lineNumber line = .ok next := by
  apply exists_line_eq_ok lineNumber
  intro field hfield
  rw [reading_of_field hfield] at h
  obtain ⟨given, hgiven⟩ := Option.isSome_iff_exists.mp (h _ (List.mem_singleton.mpr rfl))
  obtain ⟨slot, hslot, hread⟩ := Option.bind_eq_some_iff.mp hgiven
  obtain ⟨value, hvalue, -⟩ := Option.map_eq_some_iff.mp hread
  obtain ⟨hfieldOf, hband⟩ := slot?_eq_some_iff.mp hslot
  exact ⟨slot, value, hfieldOf, hband, hvalue⟩

theorem Gathers.lines (h : scan.Gathers given) {rest : List (List UInt8)} {texts : List (List Char)}
    (hrest : rest.map (fun line => (Text.decode? line).map String.toList) = texts.map some)
    (hnext : MetadataScan.lines lineNumber scan rest = .ok next) :
    ∃ more, readings scan.band texts = more.map some ∧ next.Gathers (given ++ more) := by
  induction rest generalizing lineNumber scan given texts with
  | nil =>
    obtain rfl : texts = [] := by simpa using hrest
    cases hnext
    exact ⟨[], rfl, by rwa [List.append_nil]⟩
  | cons bytes rest ih =>
    cases texts with
    | nil => cases hrest
    | cons text texts =>
      obtain ⟨hdecode, htexts⟩ := List.cons.inj hrest
      obtain ⟨string, hstring, rfl⟩ := Option.map_eq_some_iff.mp hdecode
      rw [MetadataScan.lines, hstring] at hnext
      obtain ⟨middle, hmiddle, hnext⟩ := bind_eq_ok_iff.mp hnext
      obtain ⟨first, hfirst, hgathers⟩ := h.line hmiddle
      obtain ⟨more, hmore, hgathers⟩ := ih hgathers htexts hnext
      have hband : bandAfter scan.band string.toList = middle.band := (band_of_line hmiddle).symm
      refine ⟨first ++ more, ?_, by rwa [← List.append_assoc]⟩
      rw [readings, hfirst, hband, hmore, List.map_append]

theorem exists_lines_of_readings {rest : List (List UInt8)} {texts : List (List Char)} (lineNumber : Nat)
    (hrest : rest.map (fun line => (Text.decode? line).map String.toList) = texts.map some)
    (h : ∀ given ∈ readings scan.band texts, given.isSome) :
    ∃ next, MetadataScan.lines lineNumber scan rest = .ok next := by
  induction rest generalizing lineNumber scan texts with
  | nil => exact ⟨scan, rfl⟩
  | cons bytes rest ih =>
    cases texts with
    | nil => cases hrest
    | cons text texts =>
      obtain ⟨hdecode, htexts⟩ := List.cons.inj hrest
      obtain ⟨string, hstring, rfl⟩ := Option.map_eq_some_iff.mp hdecode
      rw [readings, List.forall_mem_append] at h
      obtain ⟨middle, hmiddle⟩ := exists_line_of_reading lineNumber h.1
      rw [bandAfter, ← band_of_line hmiddle] at h
      obtain ⟨next, hnext⟩ := ih (lineNumber + 1) htexts h.2
      refine ⟨next, ?_⟩
      rw [MetadataScan.lines, hstring]
      exact bind_eq_ok_iff.mpr ⟨middle, hmiddle, hnext⟩

end MetadataScan

/-! ### The whole file -/

namespace SceneMetadata

open MetadataLines

/-- The values of metadata can be used, and the distance of the Sun is that of its time. -/
structure Usable (m : SceneMetadata) : Prop where
  accepts : ∀ slot : MetadataSlot, slot.Accepts (m.value slot)
  distance : ∃ instant, Instant.read m.geometry.firstLineTime.toList = .ok instant ∧
    m.geometry.earthSunDistance = instant.earthSunDistance

theorem usable_of_parse {bytes : List UInt8} {m : SceneMetadata} (h : parse bytes = .ok m) : m.Usable := by
  obtain ⟨scan, -, hfinish⟩ := bind_eq_ok_iff.mp h
  obtain ⟨-, hvalues, hdistance⟩ := MetadataScan.finish_eq_ok_iff.mp hfinish
  exact ⟨fun slot => (hvalues slot).2, hdistance⟩

/-- Lines are read as metadata exactly when they give the value of every slot once and nothing else. -/
theorem parse_eq_ok_iff {bytes : List UInt8} {lines : List (List Char)} (hlines : ReadsAs bytes lines)
    {m : SceneMetadata} :
    parse bytes = .ok m ↔
      (readings none lines).Perm (MetadataSlot.all.map fun slot => some (slot, m.value slot)) ∧ m.Usable := by
  have hmap : (MetadataSlot.all.map fun slot => some (slot, m.value slot)) =
      (MetadataSlot.all.map fun slot => (slot, m.value slot)).map some := (List.map_map ..).symm
  have hfinish {scan : MetadataScan} {given : List MetadataReading} (hgathers : scan.Gathers given) :
      scan.finish = .ok m ↔ given.Perm (MetadataSlot.all.map fun slot => (slot, m.value slot)) ∧ m.Usable := by
    rw [MetadataScan.finish_eq_ok_iff, ← MetadataScan.collected_perm_iff, hgathers.found_eq, hgathers.values_eq]
    constructor
    · intro h
      obtain ⟨hfound, hvalues, hdistance⟩ := h
      exact ⟨⟨hfound, fun slot => (hvalues slot).1⟩, fun slot => (hvalues slot).2, hdistance⟩
    · intro h
      obtain ⟨⟨hfound, hvalues⟩, haccepts, hdistance⟩ := h
      exact ⟨hfound, fun slot => ⟨hvalues slot, haccepts slot⟩, hdistance⟩
  rw [hmap, parse, bind_eq_ok_iff]
  constructor
  · intro h
    obtain ⟨scan, hscan, hm⟩ := h
    obtain ⟨given, hgiven, hgathers⟩ := MetadataScan.gathers_start.lines hlines hscan
    obtain ⟨hperm, husable⟩ := (hfinish hgathers).mp hm
    refine ⟨?_, husable⟩
    rw [show readings none lines = given.map some from hgiven]
    exact hperm.map some
  · intro h
    obtain ⟨hperm, husable⟩ := h
    have hsome : ∀ given ∈ readings MetadataScan.start.band lines, given.isSome := by
      intro given hgiven
      obtain ⟨reading, -, rfl⟩ := List.mem_map.mp (hperm.mem_iff.mp hgiven)
      rfl
    obtain ⟨scan, hscan⟩ := MetadataScan.exists_lines_of_readings 1 hlines hsome
    obtain ⟨given, hgiven, hgathers⟩ := MetadataScan.gathers_start.lines hlines hscan
    refine ⟨scan, hscan, (hfinish hgathers).mpr ⟨?_, husable⟩⟩
    rw [show readings none lines = given.map some from hgiven] at hperm
    exact (List.map_perm_map_iff (Option.some_injective _)).mp hperm

end SceneMetadata

end SurfaceWater
