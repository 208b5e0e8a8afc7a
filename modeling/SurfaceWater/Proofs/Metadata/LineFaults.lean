import SurfaceWater.Proofs.Metadata.Scan
import SurfaceWater.Proofs.Text.Spelling

/-!
# Lines that stop the reading

The reading of a file stops at the first line that it cannot use, and names its number. Whether a line can be used
depends on the line and on the band that is open above it, so nothing below the line has a part in it.
-/

namespace SurfaceWater

/-- The field is given once for each band. -/
def MetadataField.IsCoefficient (field : MetadataField) : Prop := field = .absCalFactor ∨ field = .effectiveBandwidth

/-! ### One line -/

/-- Why a line cannot be used while a band is open. A missing band comes before a missing value, and that before a value
that is not a number. -/
inductive FieldFault (lineNumber : Nat) (band : Option Band) (line : List Char) : MetadataFault → Prop where
  | outsideBandGroup {field : MetadataField} (kind : LineKind.Describes line (.field field))
    (coefficient : field.IsCoefficient) (outside : band = none) :
    FieldFault lineNumber band line (.outsideBandGroup lineNumber field)
  | noValue {field : MetadataField} (kind : LineKind.Describes line (.field field))
    (inside : field.IsCoefficient → band ≠ none) (noSign : '=' ∉ line) :
    FieldFault lineNumber band line (.noValue lineNumber field)
  | notANumber {field : MetadataField} {value : List Char} (kind : LineKind.Describes line (.field field))
    (inside : field.IsCoefficient → band ≠ none) (number : field ≠ .firstLineTime)
    (given : valueText? line = some value) (unreadable : Numeral.read? (Instant.clean value) = none) :
    FieldFault lineNumber band line (.notANumber lineNumber field (Instant.clean value))

namespace MetadataScan

variable {scan : MetadataScan} {lineNumber : Nat} {line : List Char} {field : MetadataField} {fault : MetadataFault}

theorem valueText?_eq_none_iff : valueText? line = none ↔ '=' ∉ line := by
  rw [← exists_valueText?_iff, Option.eq_none_iff_forall_ne_some, not_exists]

theorem number_eq_error_iff : number lineNumber field line = .error fault ↔
    ('=' ∉ line ∧ fault = .noValue lineNumber field) ∨
      ∃ value, valueText? line = some value ∧ Numeral.read? (Instant.clean value) = none ∧
        fault = .notANumber lineNumber field (Instant.clean value) := by
  rw [← valueText?_eq_none_iff, number]
  cases valueText? line with
  | none => simp [eq_comm]
  | some value => cases hread : Numeral.read? (Instant.clean value) <;> simp [hread, eq_comm]

theorem currentBand_eq_error_iff : scan.currentBand lineNumber field = .error fault ↔
    scan.band = none ∧ fault = .outsideBandGroup lineNumber field := by
  unfold currentBand
  cases scan.band <;> simp [eq_comm]

/-- The faults of a line that gives a field. -/
theorem fieldFault_iff {band : Option Band} (kind : LineKind.Describes line (.field field)) :
    FieldFault lineNumber band line fault ↔
      (field.IsCoefficient ∧ band = none ∧ fault = .outsideBandGroup lineNumber field) ∨
        ((field.IsCoefficient → band ≠ none) ∧
          (('=' ∉ line ∧ fault = .noValue lineNumber field) ∨
            field ≠ .firstLineTime ∧ ∃ value, valueText? line = some value ∧
              Numeral.read? (Instant.clean value) = none ∧ fault = .notANumber lineNumber field (Instant.clean value))) := by
  constructor
  · intro h
    cases h with
    | outsideBandGroup other coefficient outside =>
      obtain rfl := kind.field_eq other
      exact .inl ⟨coefficient, outside, rfl⟩
    | noValue other inside noSign =>
      obtain rfl := kind.field_eq other
      exact .inr ⟨inside, .inl ⟨noSign, rfl⟩⟩
    | notANumber other inside number given unreadable =>
      obtain rfl := kind.field_eq other
      exact .inr ⟨inside, .inr ⟨number, _, given, unreadable, rfl⟩⟩
  · rintro (⟨coefficient, outside, rfl⟩ | ⟨inside, ⟨noSign, rfl⟩ | ⟨number, value, given, unreadable, rfl⟩⟩)
    · exact .outsideBandGroup kind coefficient outside
    · exact .noValue kind inside noSign
    · exact .notANumber kind inside number given unreadable

theorem not_fieldFault {band : Option Band} (kind : ∀ field, ¬ LineKind.Describes line (.field field)) :
    ¬ FieldFault lineNumber band line fault := by
  intro h
  cases h with
  | outsideBandGroup other => exact kind _ other
  | noValue other => exact kind _ other
  | notANumber other => exact kind _ other

/-- A coefficient is refused for want of a band before its value is looked at. -/
theorem coefficient_eq_error_iff {next : Band → Binary32 → MetadataScan} (kind : LineKind.Describes line (.field field))
    (coefficient : field.IsCoefficient) :
    (scan.currentBand lineNumber field >>= fun band => number lineNumber field line >>= fun value =>
      pure (next band value)) = .error fault ↔ FieldFault lineNumber scan.band line fault := by
  have hnumber : field ≠ .firstLineTime := by rcases coefficient with rfl | rfl <;> decide
  rw [bind_eq_error_iff, currentBand_eq_error_iff, fieldFault_iff kind]
  simp only [bind_pure_eq_error_iff, number_eq_error_iff, currentBand_eq_ok_iff, exists_and_right, coefficient, hnumber,
    true_and, forall_const, ne_eq, not_false_eq_true, Option.ne_none_iff_exists']

/-- A line is refused for its fault. -/
theorem line_eq_error_iff : scan.line lineNumber line = .error fault ↔ FieldFault lineNumber scan.band line fault := by
  unfold MetadataScan.line
  split <;> rename_i hkind <;> rw [LineKind.ofLine_eq_iff] at hkind
  · exact iff_of_false (by simp [pure, Except.pure]) (not_fieldFault (not_field_of_describes hkind (by simp)))
  · exact coefficient_eq_error_iff hkind (.inl rfl)
  · exact coefficient_eq_error_iff hkind (.inr rfl)
  · rw [bind_pure_eq_error_iff, number_eq_error_iff, fieldFault_iff hkind]
    simp [MetadataField.IsCoefficient]
  · rw [fieldFault_iff hkind, ← valueText?_eq_none_iff]
    cases valueText? line <;> simp [MetadataField.IsCoefficient, throw, throwThe, MonadExceptOf.throw, pure, Except.pure, eq_comm]
  · exact iff_of_false (by simp [pure, Except.pure]) (not_fieldFault (not_field_of_describes hkind (by simp)))

end MetadataScan

/-! ### The lines of a file -/

namespace MetadataLines

variable {raw : List (List UInt8)} {i : Nat} {fault : MetadataFault}

/-- The texts of lines. A line that is not text counts as one that says nothing. -/
def texts (raw : List (List UInt8)) : List (List Char) :=
  raw.map fun line => ((Text.decode? line).map String.toList).getD []

/-- The fault of a line, which names its number. The first line has the number 1. -/
inductive LineFault (raw : List (List UInt8)) (i : Nat) : MetadataFault → Prop where
  | notText {line : List UInt8} (found : raw[i]? = some line) (undecodable : Text.decode? line = none) :
    LineFault raw i (.notText (i + 1))
  | field {line : List UInt8} {text : String} {fault : MetadataFault} (found : raw[i]? = some line)
    (decoded : Text.decode? line = some text) (unusable : FieldFault (i + 1) (openBand? (texts raw) i) text.toList fault) :
    LineFault raw i fault

/-- A line stops the reading: it is not text, is a coefficient that has no band, or gives a value that is missing or, where
it must be a number, cannot be read. -/
def IsFatal (raw : List (List UInt8)) (i : Nat) : Prop :=
  ∃ line, raw[i]? = some line ∧
    (Text.decode? line = none ∨ ∃ text field, Text.decode? line = some text ∧
      LineKind.Describes text.toList (.field field) ∧
        ((field.IsCoefficient ∧ openBand? (texts raw) i = none) ∨ '=' ∉ text.toList ∨
          field ≠ .firstLineTime ∧ ∃ value, valueText? text.toList = some value ∧
            Numeral.read? (Instant.clean value) = none))

theorem exists_lineFault_iff : (∃ fault, LineFault raw i fault) ↔ IsFatal raw i := by
  constructor
  · rintro ⟨fault, h⟩
    cases h with
    | notText found undecodable => exact ⟨_, found, .inl undecodable⟩
    | field found decoded unusable =>
      refine ⟨_, found, .inr ?_⟩
      cases unusable with
      | outsideBandGroup kind coefficient outside => exact ⟨_, _, decoded, kind, .inl ⟨coefficient, outside⟩⟩
      | noValue kind inside noSign => exact ⟨_, _, decoded, kind, .inr (.inl noSign)⟩
      | notANumber kind inside number given unreadable =>
        exact ⟨_, _, decoded, kind, .inr (.inr ⟨number, _, given, unreadable⟩)⟩
  · rintro ⟨line, hline, hundecodable | ⟨text, field, hdecoded, kind, hunusable⟩⟩
    · exact ⟨_, .notText hline hundecodable⟩
    · by_cases houtside : field.IsCoefficient ∧ openBand? (texts raw) i = none
      · exact ⟨_, .field hline hdecoded (.outsideBandGroup kind houtside.1 houtside.2)⟩
      · rcases hunusable.resolve_left houtside with hnoSign | ⟨hnumber, value, hgiven, hunreadable⟩
        · exact ⟨_, .field hline hdecoded (.noValue kind (not_and.mp houtside) hnoSign)⟩
        · exact ⟨_, .field hline hdecoded (.notANumber kind (not_and.mp houtside) hnumber hgiven hunreadable)⟩

/-- A fault names the number of its line. -/
theorem LineFault.exists_message (h : LineFault raw i fault) : ∃ what : String, fault.message = s!"line {i + 1}: {what}" := by
  cases h with
  | notText => exact ⟨"not valid UTF-8", by simp [MetadataFault.message, String.append_assoc]; rfl⟩
  | field found decoded unusable =>
    cases unusable with
    | @outsideBandGroup field =>
      exact ⟨s!"{field.key} outside of a band group", by simp [MetadataFault.message, String.append_assoc]; rfl⟩
    | @noValue field => exact ⟨s!"{field.key} has no value", by simp [MetadataFault.message, String.append_assoc]; rfl⟩
    | @notANumber field value =>
      exact ⟨s!"{field.key} value {Text.quote (Instant.clean value)} is not a number",
        by simp [MetadataFault.message, String.append_assoc]; rfl⟩

theorem texts_append (raw more : List (List UInt8)) : texts (raw ++ more) = texts raw ++ texts more := List.map_append ..

theorem length_texts (raw : List (List UInt8)) : (texts raw).length = raw.length := List.length_map ..

/-- The fault of a line is decided by the lines down to it. -/
theorem lineFault_append_iff (hi : i < raw.length) (more : List (List UInt8)) :
    LineFault (raw ++ more) i fault ↔ LineFault raw i fault := by
  have hband : openBand? (texts (raw ++ more)) i = openBand? (texts raw) i := by
    rw [texts_append, openBand?_append_of_le (by rw [length_texts]; omega)]
  constructor
  · intro h
    cases h with
    | notText found undecodable => exact .notText (by rwa [List.getElem?_append_left hi] at found) undecodable
    | field found decoded unusable =>
      exact .field (by rwa [List.getElem?_append_left hi] at found) decoded (hband ▸ unusable)
  · intro h
    cases h with
    | notText found undecodable => exact .notText (by rwa [List.getElem?_append_left hi]) undecodable
    | field found decoded unusable =>
      exact .field (by rwa [List.getElem?_append_left hi]) decoded (hband.symm ▸ unusable)

theorem isFatal_append_iff (hi : i < raw.length) (more : List (List UInt8)) :
    IsFatal (raw ++ more) i ↔ IsFatal raw i := by
  simp only [← exists_lineFault_iff, lineFault_append_iff hi]

theorem IsFatal.lt (h : IsFatal raw i) : i < raw.length := by
  obtain ⟨line, hline, -⟩ := h
  exact (List.getElem?_eq_some_iff.mp hline).1

/-! ### The first fatal line -/

/-- The fault of the first fatal line at a place or below. -/
def FirstFault (raw : List (List UInt8)) (start : Nat) (fault : MetadataFault) : Prop :=
  ∃ i, start ≤ i ∧ LineFault raw i fault ∧ ∀ j, start ≤ j → j < i → ¬ IsFatal raw j

theorem firstFault_of_fatal (h : IsFatal raw i) : FirstFault raw i fault ↔ LineFault raw i fault := by
  constructor
  · rintro ⟨j, hij, hfault, hnone⟩
    rcases Nat.eq_or_lt_of_le hij with rfl | hlt
    · exact hfault
    · exact absurd h (hnone i (Nat.le_refl i) hlt)
  · exact fun hfault => ⟨i, Nat.le_refl i, hfault, fun j hij hji => absurd hji (Nat.not_lt_of_le hij)⟩

theorem firstFault_of_not_fatal (h : ¬ IsFatal raw i) : FirstFault raw i fault ↔ FirstFault raw (i + 1) fault := by
  constructor
  · rintro ⟨j, hij, hfault, hnone⟩
    have hne : i ≠ j := fun heq => h (heq ▸ exists_lineFault_iff.mp ⟨fault, hfault⟩)
    exact ⟨j, by omega, hfault, fun k hik => hnone k (by omega)⟩
  · rintro ⟨j, hij, hfault, hnone⟩
    refine ⟨j, by omega, hfault, fun k hik hkj => ?_⟩
    rcases Nat.eq_or_lt_of_le hik with rfl | hlt
    · exact h
    · exact hnone k hlt hkj

/-- Lines that are the same down to the first fatal one have the same first fault. -/
theorem firstFault_of_take_eq {other : List (List UInt8)} (hfault : LineFault raw i fault)
    (hfirst : ∀ j < i, ¬ IsFatal raw j) (hsame : other.take (i + 1) = raw.take (i + 1)) : FirstFault other 0 fault := by
  have hlength : i < (raw.take (i + 1)).length := by
    have hlt := (exists_lineFault_iff.mp ⟨fault, hfault⟩).lt
    rw [List.length_take]
    omega
  rw [← List.take_append_drop (i + 1) raw] at hfault hfirst
  rw [← List.take_append_drop (i + 1) other, hsame]
  refine ⟨i, Nat.zero_le i, ?_, fun j _ hj => ?_⟩
  · rwa [lineFault_append_iff hlength] at hfault ⊢
  · have hjLength := hj.trans hlength
    have hnot := hfirst j hj
    rwa [isFatal_append_iff hjLength] at hnot ⊢

end MetadataLines

/-! ### The scan -/

namespace MetadataScan

open MetadataLines

variable {scan : MetadataScan} {fault : MetadataFault}

section

variable {past : List (List UInt8)} (hband : scan.band = openBand? (texts past) past.length)

include hband

/-- The fault of the line below those that were read is found when it is read. -/
theorem lineFault_iff {bytes : List UInt8} (rest : List (List UInt8)) :
    LineFault (past ++ bytes :: rest) past.length fault ↔
      (Text.decode? bytes = none ∧ fault = .notText (past.length + 1)) ∨
        ∃ text, Text.decode? bytes = some text ∧ scan.line (past.length + 1) text.toList = .error fault := by
  have hopen : openBand? (texts (past ++ bytes :: rest)) past.length = scan.band := by
    rw [hband, texts_append, openBand?_append_of_le (length_texts past).ge]
  have hline : (past ++ bytes :: rest)[past.length]? = some bytes := by simp
  simp only [line_eq_error_iff]
  constructor
  · intro h
    cases h with
    | notText found undecodable =>
      obtain rfl := Option.some.inj (hline.symm.trans found)
      exact .inl ⟨undecodable, rfl⟩
    | @field _ text _ found decoded unusable =>
      obtain rfl := Option.some.inj (hline.symm.trans found)
      exact .inr ⟨text, decoded, hopen ▸ unusable⟩
  · rintro (⟨hundecodable, rfl⟩ | ⟨text, hdecoded, hunusable⟩)
    · exact .notText hline hundecodable
    · exact .field hline hdecoded (hopen.symm ▸ hunusable)

/-- A scan stops at the first fatal line below those that it has read, with the fault of this line. -/
theorem lines_eq_error_iff {rest : List (List UInt8)} :
    MetadataScan.lines (past.length + 1) scan rest = .error fault ↔ FirstFault (past ++ rest) past.length fault := by
  induction rest generalizing scan past with
  | nil =>
    refine iff_of_false (by simp [MetadataScan.lines]) ?_
    rintro ⟨i, hi, hfault, -⟩
    have hlt := (exists_lineFault_iff.mp ⟨fault, hfault⟩).lt
    rw [List.append_nil] at hlt
    omega
  | cons bytes rest ih =>
    have hhere (fault : MetadataFault) : LineFault (past ++ bytes :: rest) past.length fault ↔
        (Text.decode? bytes = none ∧ fault = .notText (past.length + 1)) ∨
          ∃ text, Text.decode? bytes = some text ∧ scan.line (past.length + 1) text.toList = .error fault :=
      lineFault_iff hband rest
    rw [MetadataScan.lines]
    cases hdecode : Text.decode? bytes with
    | none =>
      simp only [hdecode, true_and, reduceCtorEq, false_and, exists_false, or_false] at hhere
      rw [firstFault_of_fatal (exists_lineFault_iff.mp ⟨_, (hhere _).mpr rfl⟩), hhere, Except.error.injEq, eq_comm]
    | some text =>
      simp only [hdecode, reduceCtorEq, false_and, Option.some.injEq, exists_eq_left', false_or] at hhere
      show (scan.line (past.length + 1) text.toList >>= fun next => MetadataScan.lines (past.length + 1 + 1) next rest) =
        .error fault ↔ _
      cases hline : scan.line (past.length + 1) text.toList with
      | error found =>
        simp only [hline, Except.error.injEq] at hhere
        rw [firstFault_of_fatal (exists_lineFault_iff.mp ⟨_, (hhere _).mpr rfl⟩), hhere]
        exact ⟨Except.error.inj, congrArg Except.error⟩
      | ok next =>
        simp only [hline, reduceCtorEq, iff_false] at hhere
        have hnext : next.band = openBand? (texts (past ++ [bytes])) (past ++ [bytes]).length := by
          have hlast : texts [bytes] = [text.toList] := by rw [texts, List.map_singleton, hdecode]; rfl
          rw [band_of_line hline, texts_append, hlast, List.length_append, ← length_texts past, List.length_singleton,
            openBand?_concat, hband, length_texts]
        have hrest := ih hnext
        rw [firstFault_of_not_fatal fun hfatal => (exists_lineFault_iff.mpr hfatal).elim hhere]
        rwa [List.append_assoc, List.length_append] at hrest

end

/-- The reading of a file stops at its first fatal line. -/
theorem lines_start_eq_error_iff {raw : List (List UInt8)} :
    MetadataScan.lines 1 start raw = .error fault ↔ FirstFault raw 0 fault :=
  lines_eq_error_iff (show start.band = openBand? (texts []) 0 from rfl)

end MetadataScan

end SurfaceWater
