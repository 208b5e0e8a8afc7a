import SurfaceWater.Metadata.Document
import SurfaceWater.Proofs.Metadata.Acceptance
import SurfaceWater.Proofs.Metadata.FieldLines

/-!
# Documents read back

The scan of a document is followed part by part. Of a scan only three things matter to the lines that come
after and to its end: the open band, the counter, and the values in the slots. Each part of a document leads
from one such view to another, whatever else the scan holds.
-/

namespace SurfaceWater

/-! ### Views -/

/-- What a scan has come to. -/
structure ScanView where
  band : Option Band
  found : Nat
  values : MetadataSlot → Option FieldValue

namespace ScanView

variable {v w u : ScanView}

def start : ScanView := ⟨none, 0, fun _ => none⟩

/-- A group line opens a band, or none. -/
def enter (v : ScanView) (band : Option Band) : ScanView := { v with band }

def fill (v : ScanView) (slot : MetadataSlot) (value : FieldValue) : ScanView :=
  { v with found := v.found + 1, values := Function.update v.values slot (some value) }

/-- A slot is filled if there is a value for it. -/
def fill? (v : ScanView) (slot : MetadataSlot) : Option FieldValue → ScanView
  | none => v
  | some value => v.fill slot value

/-- The group of a band fills its two slots. -/
def group (v : ScanView) (band : Band) (c : BandCoefficients) : ScanView :=
  ((v.enter (some band)).fill (.absCalFactor band) (.number c.absCalFactor)).fill (.effectiveBandwidth band)
    (.number c.effectiveBandwidth)

/-- The groups of those bands that are present. -/
def bandGroups (v : ScanView) (present : Band → Bool) (c : Band → BandCoefficients) (bands : List Band) : ScanView :=
  bands.foldl (fun v band => if present band then v.group band (c band) else v) v

theorem found_fill? (v : ScanView) (slot : MetadataSlot) (value : Option FieldValue) :
    (v.fill? slot value).found = v.found + value.isSome.toNat := by
  cases value <;> rfl

theorem values_fill? (v : ScanView) (slot other : MetadataSlot) (value : Option FieldValue) :
    (v.fill? slot value).values other = if other = slot then value.or (v.values other) else v.values other := by
  cases value with
  | none => simp [fill?]
  | some value => simp [fill?, fill, Function.update_apply]

/-- What the group of a band gives for a slot of the band. -/
def groupValue (c : Band → BandCoefficients) : MetadataSlot → Option FieldValue
  | .absCalFactor band => some (.number (c band).absCalFactor)
  | .effectiveBandwidth band => some (.number (c band).effectiveBandwidth)
  | _ => none

theorem values_group (v : ScanView) (band : Band) (c : Band → BandCoefficients) (slot : MetadataSlot) :
    (v.group band (c band)).values slot = if slot.band? = some band then groupValue c slot else v.values slot := by
  cases slot with
  | absCalFactor other =>
    by_cases h : other = band
    · subst h
      simp [group, fill, enter, groupValue, MetadataSlot.band?]
    · simp [group, fill, enter, MetadataSlot.band?, h]
  | effectiveBandwidth other =>
    by_cases h : other = band
    · subst h
      simp [group, fill, groupValue, MetadataSlot.band?]
    · simp [group, fill, enter, MetadataSlot.band?, h]
  | meanSunElevation | firstLineTime => simp [group, fill, enter, MetadataSlot.band?]

theorem found_bandGroups (v : ScanView) (present : Band → Bool) (c : Band → BandCoefficients) (bands : List Band) :
    (v.bandGroups present c bands).found = v.found + 2 * (bands.filter present).length := by
  induction bands generalizing v with
  | nil => rfl
  | cons band bands ih =>
    rw [bandGroups, List.foldl_cons, ← bandGroups, ih]
    cases hpresent : present band with
    | false => rw [List.filter_cons_of_neg (by simp [hpresent]), if_neg Bool.false_ne_true]
    | true =>
      have hfound : (v.group band (c band)).found = v.found + 2 := rfl
      rw [List.filter_cons_of_pos hpresent, if_pos rfl, hfound, List.length_cons]
      omega

theorem values_bandGroups (v : ScanView) (present : Band → Bool) (c : Band → BandCoefficients) (bands : List Band)
    (slot : MetadataSlot) :
    (v.bandGroups present c bands).values slot =
      if ∃ band ∈ bands, slot.band? = some band ∧ present band = true then groupValue c slot else v.values slot := by
  induction bands generalizing v with
  | nil => simp [bandGroups]
  | cons band bands ih =>
    rw [bandGroups, List.foldl_cons, ← bandGroups, ih]
    simp only [List.exists_mem_cons_iff]
    by_cases hrest : ∃ other ∈ bands, slot.band? = some other ∧ present other = true
    · rw [if_pos hrest, if_pos (.inr hrest)]
    · rw [if_neg hrest]
      cases hpresent : present band with
      | false => simp [hrest]
      | true => simp [hrest, values_group]

end ScanView

def MetadataScan.view (scan : MetadataScan) : ScanView := ⟨scan.band, scan.found, scan.value?⟩

theorem MetadataScan.view_start : start.view = .start := by
  simp only [view, ScanView.start, start, ScanView.mk.injEq, true_and]
  exact funext value?_start

theorem MetadataScan.lines_append (lineNumber : Nat) (scan : MetadataScan) (first second : List (List UInt8)) :
    lines lineNumber scan (first ++ second) =
      lines lineNumber scan first >>= fun next => lines (lineNumber + first.length) next second := by
  induction first generalizing lineNumber scan with
  | nil => rfl
  | cons bytes first ih =>
    rw [List.cons_append, lines, lines]
    cases Text.decode? bytes with
    | none => rfl
    | some text =>
      dsimp only
      rw [bind_assoc, List.length_cons, Nat.add_comm first.length, ← Nat.add_assoc]
      exact congrArg _ (funext fun next => ih (lineNumber + 1) next)

namespace ScanView

variable {v w u : ScanView} {texts more : List (List Char)} {text : List Char}

/-- Lines lead every scan from one view to another. -/
def Leads (v : ScanView) (texts : List (List Char)) (w : ScanView) : Prop :=
  ∀ (scan : MetadataScan) (lineNumber : Nat), scan.view = v →
    ∃ next, MetadataScan.lines lineNumber scan (texts.map fun text => Text.encode (String.ofList text)) = .ok next ∧
      next.view = w

theorem Leads.nil (v : ScanView) : v.Leads [] v := fun scan _ h => ⟨scan, rfl, h⟩

theorem Leads.cons (hline : ∀ (scan : MetadataScan) (lineNumber : Nat), scan.view = v →
      ∃ next, scan.line lineNumber text = .ok next ∧ next.view = w) (h : w.Leads texts u) : v.Leads (text :: texts) u := by
  intro scan lineNumber hscan
  obtain ⟨middle, hmiddle, hview⟩ := hline scan lineNumber hscan
  obtain ⟨next, hnext, hend⟩ := h middle (lineNumber + 1) hview
  refine ⟨next, ?_, hend⟩
  rw [List.map_cons, MetadataScan.lines, Text.decode?_encode]
  dsimp only
  rw [String.toList_ofList]
  exact bind_eq_ok_iff.mpr ⟨middle, hmiddle, hnext⟩

theorem Leads.append (h : v.Leads texts w) (hmore : w.Leads more u) : v.Leads (texts ++ more) u := by
  intro scan lineNumber hscan
  obtain ⟨middle, hmiddle, hview⟩ := h scan lineNumber hscan
  obtain ⟨next, hnext, hend⟩ := hmore middle _ hview
  refine ⟨next, ?_, hend⟩
  rw [List.map_append, MetadataScan.lines_append, hmiddle]
  exact hnext

/-! ### Lines -/

theorem leads_other (h : LineKind.ofLine text = .other) : v.Leads [text] v := by
  refine .cons (fun scan lineNumber hscan => ⟨scan, ?_, hscan⟩) (.nil v)
  rw [MetadataScan.line, h]
  rfl

theorem leads_group (h : LineKind.ofLine text = .group) : v.Leads [text] (v.enter (groupBand? text)) := by
  refine .cons (fun scan lineNumber hscan => ⟨{ scan with band := groupBand? text }, ?_, ?_⟩) (.nil _)
  · rw [MetadataScan.line, h]
    rfl
  · rw [← hscan]
    rfl

theorem leads_field {slot : MetadataSlot} {value : FieldValue} (h : LineKind.ofLine text = .field slot.field)
    (hband : ∀ band, slot.band? = some band → v.band = some band) (hread : slot.read? text = some value) :
    v.Leads [text] (v.fill slot value) := by
  refine .cons (fun scan lineNumber hscan => ?_) (.nil _)
  have hkind := LineKind.ofLine_eq_iff.mp h
  have hscanBand : scan.band = v.band := congrArg ScanView.band hscan
  rw [← hscanBand] at hband
  have hexists : ∃ next, scan.line lineNumber text = .ok next := by
    apply MetadataScan.exists_line_eq_ok
    intro field hfield
    exact ⟨slot, value, hkind.field_eq hfield, hband, hread⟩
  obtain ⟨next, hnext⟩ := hexists
  have hnextBand := MetadataScan.band_of_line hnext
  rw [h, if_neg (by simp)] at hnextBand
  refine ⟨next, hnext, ?_⟩
  cases MetadataScan.step_of_line hnext with
  | passes kind => exact absurd hkind (kind slot.field)
  | fills other found kind group read hfound hvalues =>
    obtain rfl := MetadataSlot.eq_of_field_eq (kind.field_eq hkind) group hband
    obtain rfl := Option.some.inj (read.symm.trans hread)
    rw [← hscan, MetadataScan.view, hnextBand, hfound, hvalues]
    rfl

theorem leads_others (h : ∀ text ∈ texts, LineKind.ofLine text = .other) : v.Leads texts v := by
  induction texts with
  | nil => exact .nil v
  | cons text texts ih =>
    rw [List.forall_mem_cons] at h
    exact (leads_other h.1).append (ih h.2)

/-- Lines that give no field may open groups, and do no more. -/
theorem leads_not_field (h : ∀ text ∈ texts, ∀ field, LineKind.ofLine text ≠ .field field) :
    ∃ band, v.Leads texts (v.enter band) := by
  induction texts generalizing v with
  | nil => exact ⟨v.band, .nil v⟩
  | cons text texts ih =>
    rw [List.forall_mem_cons] at h
    cases hkind : LineKind.ofLine text with
    | field field => exact absurd hkind (h.1 field)
    | other =>
      obtain ⟨band, hrest⟩ := ih h.2
      exact ⟨band, (leads_other hkind).append hrest⟩
    | group =>
      obtain ⟨band, hrest⟩ := ih h.2
      exact ⟨band, (leads_group hkind).append hrest⟩

section

variable {line text : String}

theorem leads_number {slot : MetadataSlot} {x : Binary32} (hline : line.toList = fieldLine slot.field text.toList)
    (hslot : slot ≠ .firstLineTime) (hband : ∀ band, slot.band? = some band → v.band = some band)
    (htext : Binary.read? text = some x) (hx : x.isFinite = true) :
    v.Leads (Text.splitLines line.toList) (v.fill slot (.number x)) := by
  have hplain := Numeral.isPlain_of_isFinite htext hx
  obtain ⟨numeral, hread, rfl⟩ := Option.map_eq_some_iff.mp htext
  rw [hline, splitLines_fieldLine slot.field hplain]
  have hnumber : MetadataScan.number 0 slot.field (fieldLine slot.field text.toList) = .ok numeral.toBinary :=
    MetadataScan.number_eq_ok_iff.mpr ⟨_, clean_fieldLine slot.field hplain, numeral, hread, rfl⟩
  exact leads_field (ofLine_fieldLine slot.field hplain) hband ((MetadataScan.number_eq_ok_iff_read? hslot).mp hnumber)

theorem leads_time (hline : line.toList = fieldLine .firstLineTime text.toList) (h : IsPlain text.toList) :
    v.Leads (Text.splitLines line.toList) (v.fill .firstLineTime (.text text.toList)) := by
  rw [hline, splitLines_fieldLine .firstLineTime h]
  refine leads_field (ofLine_fieldLine .firstLineTime h) (fun band hband => by cases hband) ?_
  have hclean := congrArg (Option.map FieldValue.text) (clean_fieldLine .firstLineTime h)
  rw [Option.map_map, Option.map_some] at hclean
  rw [MetadataScan.read?_firstLineTime]
  exact hclean

end

end ScanView

namespace MetadataDocument

open ScanView

variable {v : ScanView}

/-- The lines that a scan meets in some lines of text. -/
def parts (lines : List String) : List (List Char) := lines.flatMap fun line => Text.splitLines line.toList

theorem parse_text_eq (d : MetadataDocument) :
    SceneMetadata.parse (Text.encode d.text) =
      MetadataScan.lines 1 .start ((parts d.textLines).map fun text => Text.encode (String.ofList text)) >>=
        MetadataScan.finish := by
  rw [SceneMetadata.parse, text, Text.lines_encode]
  rfl

theorem leads_header : v.Leads (parts header) v := leads_others (by decide +kernel)

theorem toList_fieldLine {field : MetadataField} {name : String}
    (hname : name.toList = ('\t' :: field.key.toList) ++ [' ', '=', ' ']) (value : String) :
    (name ++ value ++ ";").toList = fieldLine field value.toList := by
  rw [String.toList_append, String.toList_append, hname, fieldLine, List.append_assoc, List.append_assoc]
  rfl

theorem parts_append (lines more : List String) : parts (lines ++ more) = parts lines ++ parts more := List.flatMap_append

theorem leads_cons {w u : ScanView} {line : String} {lines : List String} (hline : v.Leads (Text.splitLines line.toList) w)
    (h : w.Leads (parts lines) u) : v.Leads (parts (line :: lines)) u := by
  rw [parts, List.flatMap_cons]
  exact hline.append h

/-- A group leads where its body leads from the band that its name opens. -/
theorem leads_groupLines {w : ScanView} {name : String} {body : List String} (band : Option Band)
    (hbegin : parts ["BEGIN_GROUP = " ++ name] = [("BEGIN_GROUP = " ++ name).toList] ∧
      LineKind.ofLine ("BEGIN_GROUP = " ++ name).toList = .group ∧ groupBand? ("BEGIN_GROUP = " ++ name).toList = band)
    (hend : ∀ text ∈ parts ["END_GROUP = " ++ name], LineKind.ofLine text = .other)
    (hbody : (v.enter band).Leads (parts body) w) : v.Leads (parts (groupLines name body)) w := by
  have hlines : groupLines name body = ["BEGIN_GROUP = " ++ name] ++ (body ++ ["END_GROUP = " ++ name]) := rfl
  rw [hlines, parts_append, parts_append, hbegin.1]
  exact (hbegin.2.2 ▸ leads_group hbegin.2.1).append (hbody.append (leads_others hend))

theorem leads_bandLines {d : MetadataDocument} {band : Band} {c : BandCoefficients}
    (hpresent : ¬ d.omittedGroups.contains band.groupName)
    (hfactor : Binary.read? (d.absCalFactor.get band) = some c.absCalFactor ∧ c.absCalFactor.isFinite = true)
    (hbandwidth : Binary.read? (d.effectiveBandwidth.get band) = some c.effectiveBandwidth ∧
      c.effectiveBandwidth.isFinite = true) :
    v.Leads (parts (d.bandLines band)) (v.group band c) := by
  have hleft : ∀ text ∈ Text.splitLines "\tULLon = -122.39470000;".toList, LineKind.ofLine text = .other := by
    decide +kernel
  have hupper : ∀ text ∈ Text.splitLines "\tULLat =   37.79530000;".toList, LineKind.ofLine text = .other := by
    decide +kernel
  have hfactorName : "\tabsCalFactor = ".toList = ('\t' :: MetadataField.absCalFactor.key.toList) ++ [' ', '=', ' '] := by
    decide
  have hbandwidthName : "\teffectiveBandwidth = ".toList =
      ('\t' :: MetadataField.effectiveBandwidth.key.toList) ++ [' ', '=', ' '] := by
    decide
  have hfirst {w : ScanView} (hband : w.band = some band) :
      w.Leads (Text.splitLines ("\tabsCalFactor = " ++ d.absCalFactor.get band ++ ";").toList)
        (w.fill (.absCalFactor band) (.number c.absCalFactor)) := by
    refine leads_number (toList_fieldLine hfactorName _) (by simp) ?_ hfactor.1 hfactor.2
    rintro _ ⟨⟩
    exact hband
  have hsecond {w : ScanView} (hband : w.band = some band) :
      w.Leads (Text.splitLines ("\teffectiveBandwidth = " ++ d.effectiveBandwidth.get band ++ ";").toList)
        (w.fill (.effectiveBandwidth band) (.number c.effectiveBandwidth)) := by
    refine leads_number (toList_fieldLine hbandwidthName _) (by simp) ?_ hbandwidth.1 hbandwidth.2
    rintro _ ⟨⟩
    exact hband
  rw [bandLines, if_neg hpresent]
  apply leads_groupLines (some band)
  · cases band <;> decide +kernel
  · cases band <;> decide +kernel
  · exact leads_cons (leads_others hleft) (leads_cons (leads_others hupper)
      (leads_cons (hfirst rfl) (leads_cons (hsecond rfl) (.nil _))))

/-- The groups of the bands, one after another, of those that are there. -/
theorem leads_bands {d : MetadataDocument} {c : Band → BandCoefficients}
    (hfactor : ∀ band, Binary.read? (d.absCalFactor.get band) = some (c band).absCalFactor ∧ (c band).absCalFactor.isFinite = true)
    (hbandwidth : ∀ band, Binary.read? (d.effectiveBandwidth.get band) = some (c band).effectiveBandwidth ∧
      (c band).effectiveBandwidth.isFinite = true) (bands : List Band) :
    v.Leads (parts (bands.flatMap d.bandLines)) (v.bandGroups (fun band => !d.omittedGroups.contains band.groupName) c bands) := by
  induction bands generalizing v with
  | nil => exact .nil v
  | cons band bands ih =>
    rw [List.flatMap_cons, parts_append, bandGroups, List.foldl_cons]
    refine Leads.append ?_ ih
    by_cases homitted : d.omittedGroups.contains band.groupName = true
    · rw [bandLines, if_pos homitted, homitted]
      exact .nil v
    · rw [Bool.eq_false_iff.mpr homitted]
      exact leads_bandLines homitted (hfactor band) (hbandwidth band)

theorem leads_imageLines {d : MetadataDocument} (htime : ∀ time ∈ d.firstLineTime, IsPlain time.toList)
    {elevation : Option Binary32} (helevation : d.meanSunElevation.map Binary.read? = elevation.map some)
    (hfinite : ∀ x ∈ elevation, x.isFinite = true) :
    v.Leads (parts d.imageLines)
      (((v.enter none).fill? .firstLineTime (d.firstLineTime.map fun time => .text time.toList)).fill? .meanSunElevation
        (elevation.map .number)) := by
  have hothers (w : ScanView) : w.Leads (parts ["\tsatId = \"WV03\";", "\tmode = \"FullSwath\";"]) w ∧
      w.Leads (parts ["\tavgLineRate = 3374.00;", "\tmeanSunAz = 160.1;"]) w ∧
      w.Leads (parts ["\tmeanSatAz = 220.5;", "\tmeanSatEl = 68.2;"]) w :=
    ⟨leads_others (by decide +kernel), leads_others (by decide +kernel), leads_others (by decide +kernel)⟩
  have htimeName : "\tfirstLineTime = ".toList = ('\t' :: MetadataField.firstLineTime.key.toList) ++ [' ', '=', ' '] := by
    decide
  have helevationName : "\tmeanSunEl = ".toList =
      ('\t' :: MetadataField.meanSunElevation.key.toList) ++ [' ', '=', ' '] := by
    decide
  have htimeLine (w : ScanView) : w.Leads (parts (d.firstLineTime.map fun time => s!"\tfirstLineTime = {time};").toList)
      (w.fill? .firstLineTime (d.firstLineTime.map fun time => .text time.toList)) := by
    cases hcase : d.firstLineTime with
    | none => exact .nil w
    | some time => exact (leads_time (toList_fieldLine htimeName time) (htime time hcase)).append (.nil _)
  have helevationLine (w : ScanView) :
      w.Leads (parts (d.meanSunElevation.map fun elevation => s!"\tmeanSunEl = {elevation};").toList)
        (w.fill? .meanSunElevation (elevation.map .number)) := by
    cases hcase : d.meanSunElevation with
    | none =>
      rw [hcase] at helevation
      obtain rfl := Option.map_eq_none_iff.mp helevation.symm
      exact .nil w
    | some text =>
      rw [hcase] at helevation
      obtain ⟨x, rfl, hread⟩ := Option.map_eq_some_iff.mp helevation.symm
      exact (leads_number (toList_fieldLine helevationName text) (by simp) (fun band hband => by cases hband) hread.symm
        (hfinite x rfl)).append (.nil _)
  apply leads_groupLines none
  · decide +kernel
  · decide +kernel
  · simp only [parts_append]
    exact (((((hothers _).1.append (htimeLine _)).append (hothers _).2.1).append (helevationLine _)).append (hothers _).2.2)

/-- No field is named in a text. -/
def NamesNoField (text : String) : Prop := ∀ field : MetadataField, ¬ Mentions text.toList field.key

theorem not_field_of_isInfix {text whole : List Char} (htext : text <:+: whole)
    (h : ∀ field : MetadataField, ¬ Mentions whole field.key) (field : MetadataField) :
    LineKind.ofLine text ≠ .field field := by
  intro hkind
  have hmentions : Mentions text field.key := by
    have hdescribes := LineKind.ofLine_eq_iff.mp hkind
    cases field with
    | absCalFactor | effectiveBandwidth | meanSunElevation | firstLineTime => exact hdescribes.1
  exact h field (hmentions.trans htext)

/-- A word before a text that names no field does not make it name one. -/
theorem not_mentions_of_namesNoField {word : List Char} {text : String} (hword : ∀ field : MetadataField, ¬ Mentions word field.key)
    (h : NamesNoField text) (field : MetadataField) : ¬ Mentions (word ++ ' ' :: text.toList) field.key := by
  intro hmentions
  have hblank : ' ' ∉ field.key.toList := by cases field <;> decide
  rcases isInfix_of_append_cons hmentions hblank with hbefore | hafter
  · exact hword field hbefore
  · exact h field hafter

theorem dropFinalFeed_isPrefix (body : String) : (dropFinalFeed body).toList <+: body.toList := by
  rw [dropFinalFeed]
  split
  · rw [String.toList_ofList]
    exact List.dropLast_prefix _
  · exact List.prefix_refl _

theorem leads_extraGroups {groups : List (String × String)}
    (h : ∀ group ∈ groups, NamesNoField group.1 ∧ NamesNoField group.2) :
    ∃ band, v.Leads (parts (groups.flatMap fun (name, body) => groupLines name [dropFinalFeed body])) (v.enter band) := by
  apply leads_not_field
  intro text htext
  obtain ⟨line, hline, htext⟩ := List.mem_flatMap.mp htext
  obtain ⟨⟨name, body⟩, hgroup, hline⟩ := List.mem_flatMap.mp hline
  obtain ⟨hname, hbody⟩ := h (name, body) hgroup
  have hpart := Text.isInfix_of_mem_splitLines htext
  simp only [groupLines, List.cons_append, List.nil_append, List.mem_cons, List.not_mem_nil, or_false] at hline
  have hwords : ∀ field : MetadataField, ¬ Mentions "BEGIN_GROUP =".toList field.key ∧
      ¬ Mentions "END_GROUP =".toList field.key := by
    intro field
    cases field <;> decide
  have hbeginText : ("BEGIN_GROUP = " ++ name).toList = "BEGIN_GROUP =".toList ++ ' ' :: name.toList := by
    rw [String.toList_append]
    rfl
  have hendText : ("END_GROUP = " ++ name).toList = "END_GROUP =".toList ++ ' ' :: name.toList := by
    rw [String.toList_append]
    rfl
  rcases hline with rfl | rfl | rfl
  · apply not_field_of_isInfix hpart
    exact hbeginText ▸ not_mentions_of_namesNoField (fun field => (hwords field).1) hname
  · exact not_field_of_isInfix (hpart.trans (dropFinalFeed_isPrefix body).isInfix) hbody
  · apply not_field_of_isInfix hpart
    exact hendText ▸ not_mentions_of_namesNoField (fun field => (hwords field).2) hname

/-! ### The whole document -/

/-- What can be read of a document, apart from which groups are there. -/
structure Reads (d : MetadataDocument) (c : Band → BandCoefficients) (elevation : Option Binary32) : Prop where
  absCalFactor : ∀ band, Binary.read? (d.absCalFactor.get band) = some (c band).absCalFactor ∧
    (c band).absCalFactor.isFinite = true
  effectiveBandwidth : ∀ band, Binary.read? (d.effectiveBandwidth.get band) = some (c band).effectiveBandwidth ∧
    (c band).effectiveBandwidth.isFinite = true
  meanSunElevation : d.meanSunElevation.map Binary.read? = elevation.map some
  elevation_finite : ∀ x ∈ elevation, x.isFinite = true
  firstLineTime : ∀ time ∈ d.firstLineTime, IsPlain time.toList
  extraGroups : ∀ group ∈ d.extraGroups, NamesNoField group.1 ∧ NamesNoField group.2

/-- A band has its group. -/
def present (d : MetadataDocument) (band : Band) : Bool := !d.omittedGroups.contains band.groupName

/-- What the lines of a document come to. -/
def view (d : MetadataDocument) (c : Band → BandCoefficients) (elevation : Option Binary32) : ScanView :=
  (((ScanView.start.bandGroups d.present c Band.all).enter none).fill? .firstLineTime
    (d.firstLineTime.map fun time => .text time.toList)).fill? .meanSunElevation (elevation.map .number)

variable {d : MetadataDocument} {c : Band → BandCoefficients} {elevation : Option Binary32}

theorem Reads.leads (h : d.Reads c elevation) :
    ∃ band, ScanView.start.Leads (parts d.textLines) ((d.view c elevation).enter band) := by
  have hlast (w : ScanView) : w.Leads (parts ["END;"]) w := leads_others (by decide +kernel)
  have hbands := leads_bands (v := .start) h.absCalFactor h.effectiveBandwidth Band.all
  obtain ⟨band, hextra⟩ := leads_extraGroups (v := d.view c elevation) h.extraGroups
  refine ⟨band, ?_⟩
  rw [textLines, parts_append, parts_append, parts_append, parts_append]
  exact ((((leads_header).append hbands).append (leads_imageLines h.firstLineTime h.meanSunElevation h.elevation_finite)).append
    hextra).append (hlast _)

theorem Reads.exists_scan (h : d.Reads c elevation) : ∃ scan : MetadataScan,
    SceneMetadata.parse (Text.encode d.text) = scan.finish ∧ scan.found = (d.view c elevation).found ∧
      scan.value? = (d.view c elevation).values := by
  obtain ⟨band, hleads⟩ := h.leads
  obtain ⟨scan, hscan, hview⟩ := hleads .start 1 MetadataScan.view_start
  refine ⟨scan, ?_, congrArg ScanView.found hview, congrArg ScanView.values hview⟩
  rw [parse_text_eq, hscan]
  rfl

theorem found_view (d : MetadataDocument) (c : Band → BandCoefficients) (elevation : Option Binary32) :
    (d.view c elevation).found =
      2 * (Band.all.filter d.present).length + d.firstLineTime.isSome.toNat + elevation.isSome.toNat := by
  have hgroups := found_bandGroups .start d.present c Band.all
  rw [view, found_fill?, found_fill?, Option.isSome_map, Option.isSome_map]
  change (ScanView.start.bandGroups d.present c Band.all).found + _ + _ = _
  rw [hgroups, ScanView.start, Nat.zero_add]

theorem values_view (hpresent : ∀ band, d.present band = true) {x : Binary32} (helevation : elevation = some x)
    {time : String} (htime : d.firstLineTime = some time) (distance : Binary64) (slot : MetadataSlot) :
    (d.view c elevation).values slot = some (SceneMetadata.value ⟨.ofBands c, ⟨x, distance, time⟩⟩ slot) := by
  have hgroups := values_bandGroups .start d.present c Band.all slot
  rw [view, values_fill?, values_fill?, helevation, htime]
  change (if slot = .meanSunElevation then _ else if slot = .firstLineTime then _ else
    (ScanView.start.bandGroups d.present c Band.all).values slot) = _
  rw [hgroups]
  have hmem (band : Band) : band ∈ Band.all := by cases band <;> decide
  cases slot with
  | meanSunElevation | firstLineTime => simp [SceneMetadata.value]
  | absCalFactor band | effectiveBandwidth band =>
    simp [SceneMetadata.value, MetadataSlot.band?, hpresent, hmem, groupValue]

/-- A document in which nothing is missing is read back as it was written. -/
theorem Reads.parse_complete (h : d.Reads c elevation) (hpresent : ∀ band, d.present band = true)
    (hpositive : ∀ band, 0 < (c band).absCalFactor ∧ 0 < (c band).effectiveBandwidth) {x : Binary32}
    (helevation : elevation = some x) (hrange : 0 < x ∧ x ≤ 90) {time : String} {instant : Instant}
    (htime : d.firstLineTime = some time) (hinstant : Instant.read time.toList = .ok instant) :
    SceneMetadata.parse (Text.encode d.text) = .ok ⟨.ofBands c, ⟨x, instant.earthSunDistance, time⟩⟩ := by
  obtain ⟨scan, hparse, hfound, hvalues⟩ := h.exists_scan
  rw [hparse]
  refine MetadataScan.finish_eq_ok_iff.mpr ⟨?_, fun slot => ⟨?_, ?_⟩, instant, hinstant, rfl⟩
  · have hall : Band.all.filter d.present = Band.all := List.filter_eq_self.mpr fun band _ => hpresent band
    rw [hfound, found_view, hall, helevation, htime]
    rfl
  · rw [hvalues]
    exact values_view hpresent helevation htime _ slot
  · cases slot with
    | absCalFactor band =>
      simp only [SceneMetadata.value, BandVector.get_ofBands]
      exact ⟨(h.absCalFactor band).2, (hpositive band).1⟩
    | effectiveBandwidth band =>
      simp only [SceneMetadata.value, BandVector.get_ofBands]
      exact ⟨(h.effectiveBandwidth band).2, (hpositive band).2⟩
    | meanSunElevation => exact hrange
    | firstLineTime => exact ⟨instant, hinstant⟩

/-- A document in which something is missing has too few fields. -/
theorem Reads.parse_incomplete (h : d.Reads c elevation)
    (hmissing : elevation = none ∨ d.firstLineTime = none ∨ ∃ band, d.present band = false) :
    ∃ found < requiredFields, SceneMetadata.parse (Text.encode d.text) = .error (.fieldCount found) := by
  obtain ⟨scan, hparse, hfound, -⟩ := h.exists_scan
  have hlt : scan.found < requiredFields := by
    have hall : Band.all.length = bandCount := rfl
    have hgroups : (Band.all.filter d.present).length ≤ Band.all.length := List.length_filter_le ..
    have htime := d.firstLineTime.isSome.toNat_le
    have helevation := elevation.isSome.toNat_le
    rw [hfound, found_view, requiredFields]
    rcases hmissing with rfl | hnone | ⟨band, habsent⟩
    · rw [Option.isSome_none, Bool.toNat_false]
      omega
    · rw [hnone, Option.isSome_none, Bool.toNat_false]
      omega
    · have hfewer : (Band.all.filter d.present).length < Band.all.length :=
        List.length_filter_lt_length_iff_exists.mpr ⟨band, by cases band <;> decide, by simp [habsent]⟩
      omega
  refine ⟨scan.found, hlt, hparse.trans ?_⟩
  rw [MetadataScan.finish, if_pos (Nat.ne_of_lt hlt)]
  rfl

end MetadataDocument

end SurfaceWater
