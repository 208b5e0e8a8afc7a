import Mathlib.Data.List.Infix
import Mathlib.Data.List.TakeWhile
import Mathlib.Tactic.IntervalCases
import SurfaceWater.Proofs.Instant
import SurfaceWater.Proofs.Metadata.Slots
import SurfaceWater.Proofs.Text.Blank
import SurfaceWater.Proofs.Text.Lines

/-!
# Lines that give a field

The values of fields are numbers and timestamps. Their characters are few, and none of the marks of the
metadata format can be made of them. Hence a line that names a field and gives it such a value is of the
kind that its name has, and the value is read back as it was written.
-/

namespace SurfaceWater

/-! ### Plain texts -/

/-- The characters of numbers and timestamps. -/
def plainChars : List Char := "0123456789+-.:eETZ".toList

/-- A text is made of the characters of numbers and timestamps. -/
def IsPlain (text : List Char) : Prop := ∀ c ∈ text, c ∈ plainChars

theorem mem_plainChars_of_isDigit {c : Char} (hc : c.isDigit = true) : c ∈ plainChars := by
  obtain ⟨hlow, hhigh⟩ := Char.bounds_of_isDigit hc
  rw [← Char.ofNat_toNat c]
  generalize c.toNat = n at hlow hhigh
  interval_cases n <;> decide

namespace IsPlain

variable {text : List Char}

theorem of_isDigit (h : ∀ c ∈ text, c.isDigit = true) : IsPlain text := fun c hc => mem_plainChars_of_isDigit (h c hc)

theorem append {first second : List Char} (hfirst : IsPlain first) (hsecond : IsPlain second) :
    IsPlain (first ++ second) := List.forall_mem_append.mpr ⟨hfirst, hsecond⟩

theorem cons {c : Char} (hc : c ∈ plainChars) (htext : IsPlain text) : IsPlain (c :: text) :=
  List.forall_mem_cons.mpr ⟨hc, htext⟩

theorem not_mem {c : Char} (h : IsPlain text) (hc : c ∉ plainChars) : c ∉ text := fun hmem => hc (h c hmem)

end IsPlain

theorem isBlank_of_mem_plainChars {c : Char} (hc : c ∈ plainChars) : Text.isBlank c = false := by
  have hall : plainChars.all (fun c => !Text.isBlank c) = true := by decide
  simpa using List.all_eq_true.mp hall c hc

theorem ne_semicolon_of_mem_plainChars {c : Char} (hc : c ∈ plainChars) : decide (c = ';') = false := by
  have hnone : ';' ∉ plainChars := by decide
  exact decide_eq_false fun heq => hnone (heq ▸ hc)

theorem IsPlain.isAscii {text : List Char} (h : IsPlain text) : ∀ c ∈ text, c.toNat < 128 := by
  have hall : plainChars.all (fun c => decide (c.toNat < 128)) = true := by decide
  exact fun c hc => of_decide_eq_true (List.all_eq_true.mp hall c (h c hc))

/-! ### Numbers and timestamps -/

namespace Numeral

theorem splitSign_snd (text : List Char) (h : IsPlain (splitSign text).2) : IsPlain text := by
  unfold splitSign at h
  split at h
  · exact h.cons (by decide)
  · exact h.cons (by decide)
  · exact h

theorem isPlain_of_naturalOfDigits? {text : List Char} {n : Nat} (h : naturalOfDigits? text = some n) : IsPlain text :=
  .of_isDigit (naturalOfDigits?_eq_some_iff.mp h).2.1

theorem isPlain_of_exponentPart? {text : List Char} {exponent : Int} (h : exponentPart? text = some exponent) :
    IsPlain text := by
  cases text with
  | nil => exact fun c hc => absurd hc List.not_mem_nil
  | cons mark rest =>
    rw [exponentPart?] at h
    split at h
    case isTrue hmark =>
      have hplain : mark ∈ plainChars := by
        rw [Bool.or_eq_true, decide_eq_true_eq, decide_eq_true_eq] at hmark
        rcases hmark with rfl | rfl <;> decide
      obtain ⟨value, hvalue, -⟩ := Option.map_eq_some_iff.mp h
      obtain ⟨n, hn, -⟩ := Option.bind_eq_some_iff.mp hvalue
      exact (splitSign_snd rest (isPlain_of_naturalOfDigits? hn)).cons hplain
    case isFalse => cases h

theorem isPlain_of_magnitude? {text : List Char} {d : Decimal} (h : magnitude? text = some d) : IsPlain text := by
  have hdigits (items : List Char) : IsPlain (items.takeWhile Char.isDigit) := .of_isDigit fun _ => List.mem_takeWhile_imp
  rw [← List.takeWhile_append_dropWhile (p := Char.isDigit) (l := text)]
  refine (hdigits text).append ?_
  simp only [magnitude?] at h
  split at h
  case h_1 tail hpoint =>
    split at h
    case isTrue => cases h
    case isFalse =>
      obtain ⟨exponent, hexponent, -⟩ := Option.bind_eq_some_iff.mp h
      have htail := (hdigits tail).append (isPlain_of_exponentPart? hexponent)
      rw [List.takeWhile_append_dropWhile] at htail
      rw [hpoint]
      exact htail.cons (by decide)
  case h_2 =>
    split at h
    case isTrue => cases h
    case isFalse =>
      obtain ⟨exponent, hexponent, -⟩ := Option.bind_eq_some_iff.mp h
      exact isPlain_of_exponentPart? hexponent

theorem isPlain_of_read? {text : List Char} {negative : Bool} {d : Decimal}
    (h : read? text = some (.decimal negative d)) : IsPlain text := by
  unfold read? at h
  dsimp only at h
  split at h
  · cases h
  split at h
  · cases h
  · obtain ⟨value, hvalue, -⟩ := Option.map_eq_some_iff.mp h
    exact splitSign_snd text (isPlain_of_magnitude? hvalue)

/-- The text of a finite number is plain. -/
theorem isPlain_of_isFinite {f : Format} {text : String} {x : Binary f} (h : Binary.read? text = some x)
    (hx : x.isFinite = true) : IsPlain text.toList := by
  obtain ⟨numeral, hread, rfl⟩ := Option.map_eq_some_iff.mp h
  cases numeral with
  | nan => cases hx
  | infinity negative => simp [toBinary, Binary.infinity, Binary.isFinite, Binary.magnitude?] at hx
  | decimal negative d => exact isPlain_of_read? hread

end Numeral

namespace Instant

theorem isDigit_of_field {text : List Char} {start width n : Nat} (h : field text start width = .ok n) {i : Nat}
    (hlow : start ≤ i) (hhigh : i < start + width) {c : Char} (hc : text[i]? = some c) : c.isDigit = true := by
  unfold field at h
  dsimp only at h
  split at h
  case h_1 _ hdigits =>
    obtain ⟨-, hall, -⟩ := naturalOfDigits?_eq_some_iff.mp hdigits
    apply hall
    apply List.mem_iff_getElem?.mpr
    refine ⟨i - start, ?_⟩
    rw [List.getElem?_take_of_lt (by omega), List.getElem?_drop, Nat.add_sub_cancel' hlow, hc]
  case h_2 => cases h

/-- Where the digits of the layout begin, and how many they are. -/
def digitFields : List (Nat × Nat) := [(0, 4), (5, 2), (8, 2), (11, 2), (14, 2), (17, 2), (20, 6)]

theorem layout_places : ∀ i < 27, (∃ place ∈ marks, place.1 = i) ∨
    ∃ place ∈ digitFields, place.1 ≤ i ∧ i < place.1 + place.2 := by decide

theorem isPlain_of_ofLayout {text : List Char} {instant : Instant} (h : ofLayout text = .ok instant) :
    text.length = 27 ∧ IsPlain text := by
  obtain ⟨⟨hlength, -⟩, hmarks, ⟨hyear, hmonth, hday, hhour, hminute, hsecond, hfraction⟩, -, -⟩ :=
    ofLayout_eq_ok_iff_checks.mp h
  have hdigits : ∀ place ∈ digitFields, ∃ n, field text place.1 place.2 = .ok n := by
    simp only [digitFields, List.forall_mem_cons]
    exact ⟨⟨_, hyear⟩, ⟨_, hmonth⟩, ⟨_, hday⟩, ⟨_, hhour⟩, ⟨_, hminute⟩, ⟨_, hsecond⟩, ⟨_, hfraction⟩,
      List.forall_mem_nil _⟩
  refine ⟨hlength, fun c hc => ?_⟩
  obtain ⟨i, hi⟩ := List.mem_iff_getElem?.mp hc
  have hlt : i < 27 := hlength ▸ (List.getElem?_eq_some_iff.mp hi).1
  rcases layout_places i hlt with ⟨place, hplace, rfl⟩ | ⟨place, hplace, hlow, hhigh⟩
  · have hplain : ∀ place ∈ marks, place.2 ∈ plainChars := by decide
    obtain rfl := Option.some.inj (hi.symm.trans (hmarks place hplace))
    exact hplain place hplace
  · obtain ⟨n, hn⟩ := hdigits place hplace
    exact mem_plainChars_of_isDigit (isDigit_of_field hn hlow hhigh hi)

theorem clean_isInfix (text : List Char) : clean text <:+: text := by
  have hdrop (test : Char → Bool) (items : List Char) : Text.dropTrailing test items <:+: items := by
    rw [Text.dropTrailing, ← List.reverse_infix, List.reverse_reverse]
    exact (List.dropWhile_suffix _).isInfix
  exact (hdrop _ _).trans ((hdrop _ _).trans ((hdrop _ _).trans (List.dropWhile_suffix _).isInfix))

theorem isPlain_of_read {text : List Char} {instant : Instant} (h : read text = .ok instant) (hlength : text.length = 27) :
    IsPlain text := by
  obtain ⟨hclean, hplain⟩ := isPlain_of_ofLayout h
  rwa [(clean_isInfix text).eq_of_length (hclean.trans hlength.symm)] at hplain

theorem clean_value {value : List Char} (h : IsPlain value) : clean (' ' :: value ++ [';']) = value := by
  have hlast : ∀ c ∈ value.getLast?, c ∈ plainChars := fun c hc => h c (List.mem_of_getLast? hc)
  have htrim : Text.trim (' ' :: value ++ [';']) = value ++ [';'] := by
    rw [Text.trim, List.cons_append, List.dropWhile_cons_of_pos (by decide), Text.dropWhile_eq_self, Text.trimEnd,
      Text.dropTrailing_eq_self]
    · intro c hc
      rw [List.getLast?_concat] at hc
      obtain rfl := Option.some.inj hc
      decide
    · intro c hc
      cases value with
      | nil =>
        obtain rfl := Option.some.inj hc
        decide
      | cons first rest =>
        obtain rfl := Option.some.inj hc
        exact isBlank_of_mem_plainChars (h _ List.mem_cons_self)
  rw [clean, htrim, Text.dropTrailing_append (fun c hc => ne_semicolon_of_mem_plainChars (hlast c hc)) (by simp),
    Text.trimEnd, Text.dropTrailing_eq_self fun c hc => isBlank_of_mem_plainChars (hlast c hc)]

end Instant

/-! ### Lines -/

/-- A mark that occurs around a character that is not in it occurs before or after the character. -/
theorem isInfix_of_append_cons {mark first rest : List Char} {c : Char} (h : mark <:+: first ++ c :: rest) (hc : c ∉ mark) :
    mark <:+: first ∨ mark <:+: rest := by
  rcases List.infix_append_iff.mp h with h | h | ⟨before, after, rfl, hbefore, hafter⟩
  · exact .inl h
  · rcases List.infix_cons_iff.mp h with h | h
    · cases mark with
      | nil => exact .inl List.nil_infix
      | cons d mark =>
        obtain ⟨rfl, -⟩ := List.cons_prefix_cons.mp h
        exact absurd List.mem_cons_self hc
    · exact .inr h
  · cases after with
    | nil =>
      rw [List.append_nil]
      exact .inl hbefore.isInfix
    | cons d after =>
      obtain ⟨rfl, -⟩ := List.cons_prefix_cons.mp hafter
      exact absurd (List.mem_append_right _ List.mem_cons_self) hc

/-- The line that gives a field a value. -/
def fieldLine (field : MetadataField) (value : List Char) : List Char :=
  ('\t' :: field.key.toList) ++ ' ' :: '=' :: (' ' :: value ++ [';'])

section

variable (field : MetadataField) {value : List Char} (h : IsPlain value)

include h

theorem splitLines_fieldLine : Text.splitLines (fieldLine field value) = [fieldLine field value] := by
  have hname : '\n' ∉ '\t' :: field.key.toList := by cases field <;> decide
  apply Text.splitLines_eq
  · have hvalue : '\n' ∉ value := h.not_mem (by decide)
    simpa [fieldLine, hvalue] using hname
  · have hlast : (fieldLine field value).getLast? = some ';' := by
      rw [fieldLine, ← List.cons_append, ← List.cons_append, ← List.append_assoc, List.getLast?_concat]
    rw [hlast]
    decide

theorem ofLine_fieldLine : LineKind.ofLine (fieldLine field value) = .field field := by
  have hmentions (mark : String) (hblank : ' ' ∉ mark.toList)
      (hmark : ∃ c ∈ mark.toList, c ∉ '=' :: ' ' :: ';' :: plainChars) :
      Mentions (fieldLine field value) mark ↔ Mentions ('\t' :: field.key.toList) mark := by
    constructor
    · intro hline
      rcases isInfix_of_append_cons hline hblank with hname | hvalue
      · exact hname
      · obtain ⟨c, hc, hplain⟩ := hmark
        have hmem := hvalue.subset hc
        simp only [List.mem_cons, not_or, List.mem_append, List.not_mem_nil, or_false] at hmem hplain
        rcases hmem with hequals | (hblank | hmem) | hend
        · exact absurd hequals hplain.1
        · exact absurd hblank hplain.2.1
        · exact absurd (h c hmem) hplain.2.2.2
        · exact absurd hend hplain.2.2.1
    · exact fun hname => hname.trans (List.prefix_append _ _).isInfix
  have hname : LineKind.Describes ('\t' :: field.key.toList) (.field field) :=
    LineKind.ofLine_eq_iff.mp (by cases field <;> decide)
  rw [LineKind.ofLine_eq_iff]
  have hgroup := hmentions "BEGIN_GROUP" (by decide) ⟨'B', by decide, by decide⟩
  have hfactor := hmentions "absCalFactor" (by decide) ⟨'a', by decide, by decide⟩
  have hbandwidth := hmentions "effectiveBandwidth" (by decide) ⟨'f', by decide, by decide⟩
  have helevation := hmentions "meanSunEl" (by decide) ⟨'m', by decide, by decide⟩
  have htime := hmentions "firstLineTime" (by decide) ⟨'f', by decide, by decide⟩
  cases field <;> simpa only [LineKind.Describes, hgroup, hfactor, hbandwidth, helevation, htime] using hname

theorem clean_fieldLine : (valueText? (fieldLine field value)).map Instant.clean = some value := by
  have hname : '=' ∉ '\t' :: field.key.toList ++ [' '] := by cases field <;> decide
  have hvalue : valueText? (fieldLine field value) = some (' ' :: value ++ [';']) :=
    valueText?_eq_some_iff.mpr ⟨_, hname, by rw [fieldLine, List.append_assoc]; rfl⟩
  rw [hvalue, Option.map_some, Instant.clean_value h]

end

end SurfaceWater
