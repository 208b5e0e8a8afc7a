import Mathlib.Data.Option.Basic
import SurfaceWater.Proofs.Blocks
import SurfaceWater.Proofs.Numeric.Word
import SurfaceWater.Proofs.Text.Blank
import SurfaceWater.Proofs.Text.Ranges

/-!
# The system of a georeference

Which system a key directory names, whatever numbers and whatever text are in the file. An entry counts if it is
declared and complete; of several with one key and one location the first counts. The number of the system and its
citation are looked up apart from each other, each with a key to fall back on.
-/

namespace SurfaceWater.GeoReference

variable {g : GeoReference} {key location : UInt16} {entry : GeoKeyEntry}

/-! ### Entries -/

/-- The numbers of a key directory. -/
def directory (g : GeoReference) : List UInt16 := g.geoKeys.getD []

/-- How many entries the directory says it has. -/
def declared (g : GeoReference) : Nat := (g.directory[3]?.getD 0).toNat

/-- How many entries have all their numbers. -/
def complete (g : GeoReference) : Nat := (g.directory.length - 4) / 4

/-- An entry that counts, by its place: it is declared, and all its numbers are there. -/
structure EntryAt (g : GeoReference) (i : Nat) (entry : GeoKeyEntry) : Prop where
  declared : i < g.declared
  key_eq : g.directory[4 + i * 4]? = some entry.key
  location_eq : g.directory[4 + i * 4 + 1]? = some entry.location
  count_eq : g.directory[4 + i * 4 + 2]? = some entry.count
  value_eq : g.directory[4 + i * 4 + 3]? = some entry.value

/-- The numbers of an entry in the order of the directory. -/
def numbers (entry : GeoKeyEntry) : List UInt16 := [entry.key, entry.location, entry.count, entry.value]

theorem getElem?_numbers_count (entry : GeoKeyEntry) : (numbers entry)[2]? = some entry.count := rfl

theorem getElem?_numbers_value (entry : GeoKeyEntry) : (numbers entry)[3]? = some entry.value := rfl

/-- The complete entries are the groups of four numbers. -/
theorem map_numbers_ofNumbers (values : List UInt16) :
    (GeoKeyEntry.ofNumbers values).map numbers = groups 4 (values.length / 4) values := by
  induction values using GeoKeyEntry.ofNumbers.induct with
  | case1 a b c d rest ih =>
    have hlength : (a :: b :: c :: d :: rest).length / 4 = rest.length / 4 + 1 := by
      simp only [List.length_cons]
      omega
    rw [GeoKeyEntry.ofNumbers, List.map_cons, ih, hlength]
    rfl
  | case2 values hshort =>
    have hlength : values.length / 4 = 0 := by
      match values, hshort with
      | [], _ => rfl
      | [_], _ => simp
      | [_, _], _ => simp
      | [_, _, _], _ => simp
      | a :: b :: c :: d :: rest, hshort => exact absurd rfl (hshort a b c d rest)
    rw [GeoKeyEntry.ofNumbers, hlength]
    · rfl
    · exact hshort

theorem length_entries (g : GeoReference) : g.entries.length = min g.declared g.complete := by
  have hlength := congrArg List.length (map_numbers_ofNumbers (g.directory.drop 4))
  rw [List.length_map, length_groups, List.length_drop] at hlength
  show ((GeoKeyEntry.ofNumbers (g.directory.drop 4)).take g.declared).length = _
  rw [List.length_take, hlength, complete]

theorem take_four_eq_iff {values : List UInt16} {entry : GeoKeyEntry} : values.take 4 = numbers entry ↔
    values[0]? = some entry.key ∧ values[1]? = some entry.location ∧ values[2]? = some entry.count ∧
      values[3]? = some entry.value := by
  match values with
  | [] => simp [numbers]
  | [_] => simp [numbers]
  | [_, _] => simp [numbers]
  | [_, _, _] => simp [numbers]
  | _ :: _ :: _ :: _ :: _ => simp [numbers]

theorem numbers_injective : Function.Injective numbers := by
  intro entry other h
  cases entry
  cases other
  simpa [numbers] using h

theorem getElem?_ofNumbers {values : List UInt16} {i : Nat} {entry : GeoKeyEntry} :
    (GeoKeyEntry.ofNumbers values)[i]? = some entry ↔ (values.drop (i * 4)).take 4 = numbers entry := by
  have hgroup : (GeoKeyEntry.ofNumbers values)[i]? = some entry ↔
      (groups 4 (values.length / 4) values)[i]? = some (numbers entry) := by
    rw [← map_numbers_ofNumbers, List.getElem?_map, Option.map_eq_some_iff]
    constructor
    · intro h
      exact ⟨entry, h, rfl⟩
    · intro h
      obtain ⟨other, hother, heq⟩ := h
      rwa [numbers_injective heq] at hother
  rw [hgroup]
  rcases Nat.lt_or_ge i (values.length / 4) with hi | hi
  · rw [getElem?_groups hi, Option.some.injEq]
  · have hnone : (groups 4 (values.length / 4) values)[i]? = none :=
      List.getElem?_eq_none (by rwa [length_groups])
    rw [hnone]
    refine iff_of_false (by simp) fun h => ?_
    -- so far on there are fewer than four numbers
    have hlength := congrArg List.length h
    rw [List.length_take, List.length_drop] at hlength
    simp only [numbers, List.length_cons, List.length_nil] at hlength
    omega

/-- The entries of a georeference are those that are declared and complete, in their order. -/
theorem getElem?_entries {i : Nat} {entry : GeoKeyEntry} : g.entries[i]? = some entry ↔ g.EntryAt i entry := by
  show ((GeoKeyEntry.ofNumbers (g.directory.drop 4)).take g.declared)[i]? = some entry ↔ _
  rw [List.getElem?_take]
  split
  case isTrue hi =>
    rw [getElem?_ofNumbers, take_four_eq_iff, List.drop_drop]
    simp only [List.getElem?_drop]
    constructor
    · intro h
      obtain ⟨hkey, hlocation, hcount, hvalue⟩ := h
      exact ⟨hi, hkey, hlocation, hcount, hvalue⟩
    · intro h
      exact ⟨h.key_eq, h.location_eq, h.count_eq, h.value_eq⟩
  case isFalse hi => exact iff_of_false (by simp) fun h => hi h.declared

/-- The entry of a key at a location, the first one where there are several. -/
def FirstEntry (g : GeoReference) (key location : UInt16) (entry : GeoKeyEntry) : Prop :=
  ∃ i, g.EntryAt i entry ∧ (entry.key = key ∧ entry.location = location) ∧
    ∀ j < i, ∀ other, g.EntryAt j other → ¬ (other.key = key ∧ other.location = location)

theorem find?_entries : (g.entries.find? fun entry => entry.key = key && entry.location = location) = some entry ↔
    g.FirstEntry key location entry := by
  rw [List.find?_eq_some_iff_getElem]
  constructor
  · intro h
    obtain ⟨hentry, i, hi, hat, hbefore⟩ := h
    refine ⟨i, getElem?_entries.mp (List.getElem?_eq_some_iff.mpr ⟨hi, hat⟩), by simpa using hentry, ?_⟩
    intro j hj other hother
    obtain ⟨_, hother⟩ := List.getElem?_eq_some_iff.mp (getElem?_entries.mpr hother)
    have hnot := hbefore j hj
    rw [hother] at hnot
    rw [not_and_or]
    simpa using hnot
  · intro h
    obtain ⟨i, hentry, hnames, hbefore⟩ := h
    obtain ⟨hi, hat⟩ := List.getElem?_eq_some_iff.mp (getElem?_entries.mpr hentry)
    refine ⟨by simpa using hnames, i, hi, hat, fun j hj => ?_⟩
    have hnot := hbefore j hj _ (getElem?_entries.mp (List.getElem?_eq_getElem (hj.trans hi)))
    rw [not_and_or] at hnot
    simpa using hnot

/-! ### The number of the system -/

/-- The value that a key has of its own. -/
def OwnValue (g : GeoReference) (key value : UInt16) : Prop := ∃ entry, g.FirstEntry key 0 entry ∧ entry.value = value

/-- The directory gives a number for the system: that of a projected system, or without one that of a geographic system. The
number that stands for any system outside the register is none. -/
def NamesCode (g : GeoReference) (code : UInt16) : Prop :=
  code ≠ userDefined ∧ (g.OwnValue projectedTypeKey code ∨
    (∀ value, ¬ g.OwnValue projectedTypeKey value) ∧ g.OwnValue geographicTypeKey code)

theorem keyValue?_eq_some_iff {value : UInt16} : g.keyValue? key = some value ↔ g.OwnValue key value := by
  rw [keyValue?, Option.map_eq_some_iff]
  simp only [find?_entries, OwnValue]

theorem keyValue?_eq_none_iff : g.keyValue? key = none ↔ ∀ value, ¬ g.OwnValue key value := by
  simp only [← keyValue?_eq_some_iff, Option.eq_none_iff_forall_ne_some, ne_eq]

/-- The number of the system, as it is looked up. -/
def code? (g : GeoReference) : Option UInt16 :=
  (g.keyValue? projectedTypeKey <|> g.keyValue? geographicTypeKey).filter (· ≠ userDefined)

theorem code?_eq_some_iff {code : UInt16} : g.code? = some code ↔ g.NamesCode code := by
  rw [code?, Option.filter_eq_some_iff, Option.orElse_eq_some, keyValue?_eq_some_iff, keyValue?_eq_none_iff,
    keyValue?_eq_some_iff, decide_eq_true_eq, and_comm]
  rfl

/-! ### The citation -/

/-- Where the text of an entry begins and ends. No entry reaches beyond the end of the text tag. -/
def StandsFor (entry : GeoKeyEntry) (text part : String) : Prop :=
  Text.StandsAt text part entry.value.toNat (min (entry.value.toNat + entry.count.toNat) (Text.encode text).length)

/-- A character that may stand behind a citation. -/
def IsPadding (c : Char) : Prop := c = '|' ∨ c = '\x00'

/-- What is left of a part without the padding at its end. -/
def Trims (part citation : String) : Prop :=
  ∃ padding : String, part = citation ++ padding ∧ (∀ c ∈ padding.toList, IsPadding c) ∧
    ∀ c ∈ citation.toList.getLast?, ¬ IsPadding c

/-- A key cites a text. -/
def Cites (g : GeoReference) (key : UInt16) (citation : String) : Prop :=
  citation ≠ "" ∧ ∃ text entry part, g.geoAscii = some text ∧ g.FirstEntry key geoAsciiTag entry ∧
    StandsFor entry text part ∧ Trims part citation

/-- Why a key cites nothing. -/
inductive CitesNothing (g : GeoReference) (key : UInt16) : Prop where
  | noText (h : g.geoAscii = none)
  | noEntry (h : ∀ entry, ¬ g.FirstEntry key geoAsciiTag entry)
  | noPart {text : String} {entry : GeoKeyEntry} (htext : g.geoAscii = some text)
      (hentry : g.FirstEntry key geoAsciiTag entry) (hpart : ∀ part, ¬ StandsFor entry text part)
  | onlyPadding {text part : String} {entry : GeoKeyEntry} (htext : g.geoAscii = some text)
      (hentry : g.FirstEntry key geoAsciiTag entry) (hpart : StandsFor entry text part)
      (hpadding : ∀ c ∈ part.toList, IsPadding c)

/-- The directory gives a citation: that of the projected system, or without one the general one. -/
def NamesCitation (g : GeoReference) (citation : String) : Prop :=
  g.Cites projectedCitationKey citation ∨ g.CitesNothing projectedCitationKey ∧ g.Cites citationKey citation

theorem trimCitation_eq_iff {part citation : String} : trimCitation part = citation ↔ Trims part citation := by
  have htest (c : Char) : (decide (c = '|') || decide (c = '\x00')) = true ↔ IsPadding c := by
    rw [Bool.or_eq_true, decide_eq_true_eq, decide_eq_true_eq, IsPadding]
  have htrim : trimCitation part =
      String.ofList (Text.dropTrailing (fun c => decide (c = '|') || decide (c = '\x00')) part.toList) := rfl
  constructor
  · intro h
    obtain ⟨padding, hpart, hpadding, hlast⟩ :=
      Text.exists_dropTrailing (fun c => decide (c = '|') || decide (c = '\x00')) part.toList
    rw [htrim] at h
    subst h
    refine ⟨String.ofList padding, ?_, ?_, ?_⟩
    · rw [← String.toList_inj, String.toList_append, String.toList_ofList, String.toList_ofList, ← hpart]
    · rw [String.toList_ofList]
      exact fun c hc => (htest c).mp (hpadding c hc)
    · rw [String.toList_ofList]
      exact fun c hc hpad => Bool.false_ne_true ((hlast c hc).symm.trans ((htest c).mpr hpad))
  · intro h
    obtain ⟨padding, rfl, hpadding, hlast⟩ := h
    rw [htrim, String.toList_append, Text.dropTrailing_append, String.ofList_toList]
    · exact fun c hc => Bool.eq_false_iff.mpr (mt (htest c).mp (hlast c hc))
    · exact fun c hc => (htest c).mpr (hpadding c hc)

theorem keyText?_eq_some_iff {citation : String} : g.keyText? key = some citation ↔ g.Cites key citation := by
  simp only [keyText?, Option.bind_eq_bind, Option.bind_eq_some_iff, find?_entries, Text.byteRange?_eq_some_iff, Cites,
    ← trimCitation_eq_iff]
  constructor
  · intro h
    obtain ⟨text, htext, entry, hentry, part, hpart, hcitation⟩ := h
    split at hcitation
    case isTrue => cases hcitation
    case isFalse hne =>
      obtain rfl := Option.some.inj hcitation
      exact ⟨by simpa using hne, text, entry, part, htext, hentry, hpart, rfl⟩
  · intro h
    obtain ⟨hne, text, entry, part, htext, hentry, hpart, rfl⟩ := h
    refine ⟨text, htext, entry, hentry, part, hpart, ?_⟩
    rw [if_neg (by simpa using hne)]

theorem trims_empty_iff {part : String} : Trims part "" ↔ ∀ c ∈ part.toList, IsPadding c := by
  constructor
  · intro h
    obtain ⟨padding, rfl, hpadding, -⟩ := h
    simpa using hpadding
  · intro h
    exact ⟨part, by simp, h, by simp⟩

/-- The text of a key, once its entry is there. -/
theorem keyText?_of_entry {text : String} (htext : g.geoAscii = some text) (hentry : g.FirstEntry key geoAsciiTag entry) :
    g.keyText? key =
      (byteRange? text entry.value.toNat (min (entry.value.toNat + entry.count.toNat) (Text.encode text).length)).bind
        fun part => if (trimCitation part).isEmpty then none else some (trimCitation part) := by
  rw [keyText?, htext, find?_entries.mpr hentry]
  rfl

theorem keyText?_eq_none_of_citesNothing (h : g.CitesNothing key) : g.keyText? key = none := by
  cases h with
  | noText htext =>
    rw [keyText?, htext]
    rfl
  | noEntry hentry =>
    refine Option.eq_none_iff_forall_ne_some.mpr fun citation hcitation => ?_
    obtain ⟨-, _, entry, _, -, hfirst, -⟩ := keyText?_eq_some_iff.mp hcitation
    exact hentry entry hfirst
  | noPart htext hentry hpart =>
    rw [keyText?_of_entry htext hentry, Option.bind_eq_none_iff]
    exact fun part hrange => absurd (Text.byteRange?_eq_some_iff.mp hrange) (hpart part)
  | onlyPadding htext hentry hpart hpadding =>
    rw [keyText?_of_entry htext hentry, Text.byteRange?_eq_some_iff.mpr hpart, Option.bind_some,
      trimCitation_eq_iff.mpr (trims_empty_iff.mpr hpadding)]
    rfl

/-- Where a key cites no text, the first thing that is missing says why. -/
theorem citesNothing_of_not_cites (h : ∀ citation, ¬ g.Cites key citation) : g.CitesNothing key := by
  cases htext : g.geoAscii with
  | none => exact .noText htext
  | some text =>
    by_cases hentry : ∃ entry, g.FirstEntry key geoAsciiTag entry
    · obtain ⟨entry, hentry⟩ := hentry
      by_cases hpart : ∃ part, StandsFor entry text part
      · obtain ⟨part, hpart⟩ := hpart
        refine .onlyPadding htext hentry hpart (trims_empty_iff.mp ?_)
        have htrims := trimCitation_eq_iff.mp (rfl : trimCitation part = _)
        by_contra hpadding
        refine h _ ⟨fun hempty => hpadding ?_, text, entry, part, htext, hentry, hpart, htrims⟩
        rwa [hempty] at htrims
      · exact .noPart htext hentry (not_exists.mp hpart)
    · exact .noEntry (not_exists.mp hentry)

theorem keyText?_eq_none_iff : g.keyText? key = none ↔ g.CitesNothing key := by
  constructor
  · intro h
    refine citesNothing_of_not_cites fun citation hcites => ?_
    rw [← keyText?_eq_some_iff, h] at hcites
    cases hcites
  · exact keyText?_eq_none_of_citesNothing

/-- The citation, as it is looked up. -/
def citation? (g : GeoReference) : Option String := g.keyText? projectedCitationKey <|> g.keyText? citationKey

theorem citation?_eq_some_iff {citation : String} : g.citation? = some citation ↔ g.NamesCitation citation := by
  rw [citation?, Option.orElse_eq_some, keyText?_eq_some_iff, keyText?_eq_none_iff, keyText?_eq_some_iff]
  rfl

/-! ### By index and offset -/

/-- Looking something up may find nothing. Where it asks for what is not there it has no end at all. -/
abbrev Lookup := OptionT Option

/-- A step that must have a result. -/
def Lookup.required {α : Type} (result : Option α) : Lookup α := OptionT.lift result

/-- What a lookup that comes to an end has found. -/
def Lookup.found {α : Type} (result : Option α) : Lookup α := OptionT.mk (some result)

theorem Lookup.required_some_bind {α β : Type} (a : α) (f : α → Lookup β) : (required (some a) >>= f) = f a := rfl

theorem Lookup.found_some_bind {α β : Type} (a : α) (f : α → Lookup β) : (found (some a) >>= f) = f a := rfl

/-- The groups of numbers that a lookup goes through. -/
def slices (g : GeoReference) : List (List UInt16) :=
  (groups 4 ((g.directory.drop 4).length / 4) (g.directory.drop 4)).take g.declared

/-- The second number of a group matters only if the first one is right. -/
def names? (key location : UInt16) (slice : List UInt16) : Option Bool := do
  if (← slice[0]?) = key then return (← slice[1]?) = location else return false

def firstSlice (g : GeoReference) (key location : UInt16) : Lookup (List UInt16) :=
  OptionT.mk (g.slices.findM? (names? key location))

/-- `keyValue?` by index. -/
def keyValueByIndex (g : GeoReference) (key : UInt16) : Lookup UInt16 := do
  let slice ← g.firstSlice key 0
  .required slice[3]?

/-- `byteRange?` by a look at the bytes at both offsets. The part between them must be text of its own. -/
def partByOffset (text : String) (start stop : Nat) : Lookup String :=
  let bytes := Text.encode text
  if start ≤ stop ∧ Instant.isBoundary bytes start = true ∧ Instant.isBoundary bytes stop = true then
    .required (Instant.slice? bytes start stop)
  else failure

/-- `keyText?` by index and offset. -/
def keyTextByIndex (g : GeoReference) (key : UInt16) : Lookup String := do
  let text ← Lookup.found g.geoAscii
  let slice ← g.firstSlice key geoAsciiTag
  let start ← Lookup.required slice[3]?
  let count ← Lookup.required slice[2]?
  let stop ← Lookup.required (Word.add? start.toNat count.toNat)
  let part ← partByOffset text start.toNat (min stop (Text.encode text).length)
  let citation := trimCitation part
  if citation.isEmpty then failure else return citation

/-- `crs?` by index and offset. A key is looked up only if nothing is found for the one before it. -/
def crsByIndex (g : GeoReference) : Option (Option Crs) := do
  let value ← (g.keyValueByIndex projectedTypeKey <|> g.keyValueByIndex geographicTypeKey).run
  let citation ← (g.keyTextByIndex projectedCitationKey <|> g.keyTextByIndex citationKey).run
  return match value.filter (· ≠ userDefined), citation with
    | some code, some citation => some ((Crs.ofEpsg code.toNat).withCitation citation)
    | some code, none => some (.ofEpsg code.toNat)
    | none, some citation => some (.ofCitation citation)
    | none, none => none

theorem slices_eq (g : GeoReference) : g.slices = g.entries.map numbers := by
  rw [slices, ← map_numbers_ofNumbers, ← List.map_take]
  rfl

theorem names?_numbers (key location : UInt16) (entry : GeoKeyEntry) :
    names? key location (numbers entry) = some (entry.key = key && entry.location = location) := by
  show (if entry.key = key then some (decide (entry.location = location)) else some false) = _
  split
  case isTrue h => rw [decide_eq_true h, Bool.true_and]
  case isFalse h => rw [decide_eq_false h, Bool.false_and]

/-- All groups have four numbers, so looking through them comes to an end. -/
theorem findM?_numbers (key location : UInt16) (entries : List GeoKeyEntry) :
    (entries.map numbers).findM? (names? key location) =
      some ((entries.find? fun entry => entry.key = key && entry.location = location).map numbers) := by
  induction entries with
  | nil => rfl
  | cons entry entries ih =>
    rw [List.map_cons, List.findM?, names?_numbers, List.find?_cons]
    cases decide (entry.key = key) && decide (entry.location = location) with
    | true => rfl
    | false => exact ih

theorem firstSlice_eq (g : GeoReference) (key location : UInt16) : g.firstSlice key location =
    .found ((g.entries.find? fun entry => entry.key = key && entry.location = location).map numbers) := by
  rw [firstSlice, slices_eq, findM?_numbers]
  rfl

theorem keyValueByIndex_eq (g : GeoReference) (key : UInt16) : g.keyValueByIndex key = .found (g.keyValue? key) := by
  rw [keyValueByIndex, firstSlice_eq, keyValue?]
  cases g.entries.find? fun entry => entry.key = key && entry.location = 0 with
  | none => rfl
  | some entry => rfl

theorem partByOffset_eq (text : String) (start stop : Nat) :
    partByOffset text start stop = .found (byteRange? text start stop) := by
  unfold partByOffset
  dsimp only
  split
  case isTrue h =>
    obtain ⟨part, hpart⟩ := Text.exists_standsAt_iff.mpr h
    rw [Text.byteRange?_eq_some_iff.mpr hpart, Instant.slice?, if_pos ⟨h.1, hpart.le.2, h.2⟩, ← List.drop_take,
      hpart.take_eq.2, Text.decode?_encode]
    rfl
  case isFalse h =>
    have hnone : byteRange? text start stop = none :=
      Option.eq_none_iff_forall_ne_some.mpr fun part hrange =>
        h (Text.exists_standsAt_iff.mp ⟨part, Text.byteRange?_eq_some_iff.mp hrange⟩)
    rw [hnone]
    rfl

/-- The end of a range fits a word, as the numbers that it is added up from have 16 bits. -/
theorem add?_toNat (start count : UInt16) : Word.add? start.toNat count.toNat = some (start.toNat + count.toNat) := by
  have hstart := start.toNat_lt
  have hcount := count.toNat_lt
  have hsize : Word.count = 2 ^ 64 := rfl
  exact Word.add?_of_lt (by omega)

theorem keyTextByIndex_eq (g : GeoReference) (key : UInt16) : g.keyTextByIndex key = .found (g.keyText? key) := by
  rw [keyTextByIndex, keyText?, firstSlice_eq]
  cases g.geoAscii with
  | none => rfl
  | some text =>
    cases g.entries.find? fun entry => entry.key = key && entry.location = geoAsciiTag with
    | none => rfl
    | some entry =>
      simp only [Option.map_some, Lookup.found_some_bind, getElem?_numbers_value, getElem?_numbers_count,
        Lookup.required_some_bind, add?_toNat, partByOffset_eq, Option.bind_eq_bind, Option.bind_some]
      cases byteRange? text _ _ with
      | none => rfl
      | some part =>
        rw [Lookup.found_some_bind, Option.bind_some]
        split
        · rfl
        · rfl

theorem found_orElse {α : Type} (result other : Option α) :
    (Lookup.found result <|> Lookup.found other) = Lookup.found (result <|> other) := by
  cases result with
  | none => rfl
  | some _ => rfl

/-- The lookup comes to an end, and with the system that the list of entries names. -/
theorem crsByIndex_eq (g : GeoReference) : g.crsByIndex = some g.crs? := by
  rw [crsByIndex, keyValueByIndex_eq, keyValueByIndex_eq, keyTextByIndex_eq, keyTextByIndex_eq, found_orElse,
    found_orElse]
  rfl

/-! ### What the system depends on -/

theorem exists_entryAt_iff {i : Nat} : (∃ entry, g.EntryAt i entry) ↔ i < min g.declared g.complete := by
  rw [← length_entries]
  simp only [← getElem?_entries]
  rw [← Option.isSome_iff_exists, isSome_getElem?]

theorem crs?_congr {other : GeoReference} (htext : other.geoAscii = g.geoAscii)
    (hentries : ∀ i entry, other.EntryAt i entry ↔ g.EntryAt i entry) : other.crs? = g.crs? := by
  have heq : other.entries = g.entries := List.ext_getElem? fun i => Option.ext fun entry => by
    rw [getElem?_entries, getElem?_entries, hentries]
  have hvalue : other.keyValue? = g.keyValue? := by
    funext key
    rw [keyValue?, keyValue?, heq]
  have hcitation : other.keyText? = g.keyText? := by
    funext key
    rw [keyText?, keyText?, heq, htext]
  rw [crs?, crs?, hvalue, hcitation]

/-- Nothing behind the entries that a directory declares belongs to an entry. -/
theorem entryAt_of_take_eq {other : GeoReference}
    (h : other.directory.take (4 + g.declared * 4) = g.directory.take (4 + g.declared * 4)) (i : Nat)
    (entry : GeoKeyEntry) : other.EntryAt i entry ↔ g.EntryAt i entry := by
  have hsame {j : Nat} (hj : j < 4 + g.declared * 4) : other.directory[j]? = g.directory[j]? := by
    rw [← List.getElem?_take_of_lt hj, h, List.getElem?_take_of_lt hj]
  have hdeclared : other.declared = g.declared := by
    rw [declared, declared, hsame (by omega)]
  constructor
  · intro hentry
    have hi := hdeclared ▸ hentry.declared
    refine ⟨hi, ?_, ?_, ?_, ?_⟩
    · rw [← hsame (by omega), hentry.key_eq]
    · rw [← hsame (by omega), hentry.location_eq]
    · rw [← hsame (by omega), hentry.count_eq]
    · rw [← hsame (by omega), hentry.value_eq]
  · intro hentry
    have hi := hentry.declared
    refine ⟨hdeclared ▸ hi, ?_, ?_, ?_, ?_⟩
    · rw [hsame (by omega), hentry.key_eq]
    · rw [hsame (by omega), hentry.location_eq]
    · rw [hsame (by omega), hentry.count_eq]
    · rw [hsame (by omega), hentry.value_eq]

/-! ### The system -/

/-- A system has the number and the citation that a directory gives. -/
structure Describes (g : GeoReference) (crs : Crs) : Prop where
  epsg : ∀ n, crs.epsg = some n ↔ ∃ code, g.NamesCode code ∧ code.toNat = n
  citation : ∀ citation, crs.citation = some citation ↔ g.NamesCitation citation

theorem crs?_eq (g : GeoReference) : g.crs? =
    if g.code? = none ∧ g.citation? = none then none else some ⟨g.code?.map UInt16.toNat, g.citation?⟩ := by
  show (match g.code?, g.citation? with
    | some code, some citation => some ((Crs.ofEpsg code.toNat).withCitation citation)
    | some code, none => some (.ofEpsg code.toNat)
    | none, some citation => some (.ofCitation citation)
    | none, none => none) = _
  cases g.code? with
  | none =>
    cases g.citation? with
    | none => rfl
    | some citation => rfl
  | some code =>
    cases g.citation? with
    | none => rfl
    | some citation => rfl

theorem describes_of_crs? {crs : Crs} (h : g.crs? = some crs) : g.Describes crs := by
  rw [crs?_eq] at h
  split at h
  case isTrue => cases h
  case isFalse =>
    obtain rfl := Option.some.inj h
    refine ⟨fun n => ?_, fun citation => citation?_eq_some_iff⟩
    simp only [← code?_eq_some_iff]
    exact Option.map_eq_some_iff

theorem crs?_eq_none_iff : g.crs? = none ↔ (∀ code, ¬ g.NamesCode code) ∧ ∀ citation, ¬ g.NamesCitation citation := by
  simp only [← code?_eq_some_iff, ← citation?_eq_some_iff, ← ne_eq, ← Option.eq_none_iff_forall_ne_some]
  rw [crs?_eq, ite_eq_left_iff]
  simp

/-- The system of any georeference. The lookup by index and offset comes to an end. The entries that count are the first
ones, as many as are both declared and complete. There is no system exactly if neither a number nor a citation is given;
otherwise it has the number and the citation that are. Whatever gives the same entries and has the same text has
the same system, so nothing behind the declared entries matters. -/
theorem system_of_directory (g : GeoReference) :
    g.crsByIndex = some g.crs? ∧
    (∀ i, (∃ entry, g.EntryAt i entry) ↔ i < min g.declared g.complete) ∧
    (g.crs? = none ↔ (∀ code, ¬ g.NamesCode code) ∧ ∀ citation, ¬ g.NamesCitation citation) ∧
    (∀ crs, g.crs? = some crs → g.Describes crs) ∧
    (∀ other : GeoReference, other.geoAscii = g.geoAscii → (∀ i entry, other.EntryAt i entry ↔ g.EntryAt i entry) →
      other.crs? = g.crs?) ∧
    ∀ other : GeoReference, other.geoAscii = g.geoAscii →
      other.directory.take (4 + g.declared * 4) = g.directory.take (4 + g.declared * 4) → other.crs? = g.crs? := by
  refine ⟨crsByIndex_eq g, fun i => exists_entryAt_iff, crs?_eq_none_iff, fun crs => describes_of_crs?, ?_, ?_⟩
  · exact fun other htext hentries => crs?_congr htext hentries
  · exact fun other htext htake => crs?_congr htext (entryAt_of_take_eq htake)

/-- Four entries, with the key of a projected system three times among them, and numbers behind them that are no entry. -/
def repeated : GeoReference where
  pixelScale := none
  tiepoints := none
  transformation := none
  geoKeys := some [1, 1, 0, 4, 3072, 34737, 1, 4326, 3072, 0, 1, 32610, 3072, 0, 1, 32611, 3073, 34737, 900, 1, 2048, 0, 1]
  geoDoubles := none
  geoAscii := some "|é|\x00"

/-- The second of the three counts, the citation ends before the bar, and the numbers may be made complete. -/
theorem system_of_directory_repeated :
    repeated.Describes ⟨some 32610, some "é"⟩ ∧
      { repeated with geoKeys := some (repeated.directory ++ [32612, 1]) }.crs? = some ⟨some 32610, some "é"⟩ := by
  obtain ⟨-, -, -, hdescribes, -, hbehind⟩ := system_of_directory repeated
  have hcrs : repeated.crs? = some ⟨some 32610, some "é"⟩ := by decide
  exact ⟨hdescribes _ hcrs, (hbehind _ rfl (by decide)).trans hcrs⟩

end SurfaceWater.GeoReference
