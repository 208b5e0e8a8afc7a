import Mathlib.Data.List.TakeDrop
import SurfaceWater.Json.Reader
import SurfaceWater.Json.Value
import SurfaceWater.Proofs.Numeric.Shortest

/-!
# Numerals in JSON

The text of a finite number is a numeral of JSON: it has no superfluous zero in front, because a number above
zero has digits that begin with another one, and there are digits on both sides of a point. So it is read
whole wherever something follows that does not continue a numeral. Which number it is taken for is another
question.
-/

namespace SurfaceWater.Json

/-- What does not continue a numeral. -/
def Ends (rest : List Char) : Prop := ∀ c ∈ rest.head?, c.isDigit = false ∧ c ≠ '.' ∧ c ≠ 'e' ∧ c ≠ 'E'

/-- A text that is read as one numeral. -/
structure IsNumeral (literal : List Char) : Prop where
  begins : ∃ c tail, literal = c :: tail ∧ (c.isDigit = true ∨ c = '-')
  reads : ∀ rest, Ends rest → numeral? (literal ++ rest) = some (literal, rest)

/-! ### The parts of a numeral -/

theorem digits?_append {digits rest : List Char} (hne : digits ≠ []) (hdigits : ∀ c ∈ digits, c.isDigit = true)
    (hrest : ∀ c ∈ rest.head?, c.isDigit = false) : digits? (digits ++ rest) = some (digits, rest) := by
  obtain ⟨htake, hdrop⟩ := Numeral.span_digits hdigits hrest
  rw [digits?, List.span_eq_takeWhile_dropWhile, htake, hdrop]
  cases digits with
  | nil => exact absurd rfl hne
  | cons c digits => rfl

/-- The digits of a whole part: none follows a zero. -/
structure IsWhole (whole : List Char) : Prop where
  ne_nil : whole ≠ []
  digits : ∀ c ∈ whole, c.isDigit = true
  zero : ∀ tail, whole = '0' :: tail → tail = []

theorem IsWhole.reads {whole rest : List Char} (h : IsWhole whole) (hrest : ∀ c ∈ rest.head?, c.isDigit = false) :
    wholePart? (whole ++ rest) = some (whole, rest) := by
  cases whole with
  | nil => exact absurd rfl h.ne_nil
  | cons lead tail =>
    by_cases hlead : lead = '0'
    · subst hlead
      obtain rfl := h.zero tail rfl
      cases rest with
      | nil => rfl
      | cons c rest =>
        have hc : ¬ c.isDigit = true := by simp [hrest c rfl]
        exact if_neg hc
    · have hdigits := digits?_append h.ne_nil h.digits hrest
      rw [← hdigits, List.cons_append, wholePart?]
      exact fun _ heq => hlead (List.cons.inj heq).1

/-- A fraction with its point, or none. -/
def IsFraction (fraction : List Char) : Prop :=
  fraction = [] ∨ ∃ digits, fraction = '.' :: digits ∧ digits ≠ [] ∧ ∀ c ∈ digits, c.isDigit = true

theorem IsFraction.reads {fraction rest : List Char} (h : IsFraction fraction)
    (hrest : ∀ c ∈ rest.head?, c.isDigit = false ∧ c ≠ '.') :
    fractionPart? (fraction ++ rest) = some (fraction, rest) := by
  rcases h with rfl | ⟨digits, rfl, hne, hdigits⟩
  · rw [List.nil_append, fractionPart?]
    rintro tail rfl
    exact (hrest '.' rfl).2 rfl
  · rw [List.cons_append, fractionPart?, digits?_append hne hdigits fun c hc => (hrest c hc).1]
    rfl

/-- An exponent with its mark and sign, or none. -/
def IsExponent (text : List Char) : Prop := text = [] ∨ ∃ exponent, text = Decimal.exponentText true exponent

theorem IsExponent.reads {text rest : List Char} (h : IsExponent text) (hrest : Ends rest) :
    exponentPart? (text ++ rest) = some (text, rest) := by
  rcases h with rfl | ⟨exponent, rfl⟩
  · cases rest with
    | nil => rfl
    | cons c rest =>
      obtain ⟨-, -, hlower, hupper⟩ := hrest c rfl
      have hmark : ¬ (c = 'e' || c = 'E') = true := by simp [hlower, hupper]
      exact if_neg hmark
  · have hdigits : digits? (Nat.toDigits 10 exponent.natAbs ++ rest) = some (Nat.toDigits 10 exponent.natAbs, rest) :=
      digits?_append Nat.toDigits_ne_nil (fun _ => Decimal.isDigit_of_mem_toDigits) fun c hc => (hrest c hc).1
    have hsigned (sign : Char) (hsign : sign = '+' ∨ sign = '-') :
        exponentPart? ('e' :: sign :: (Nat.toDigits 10 exponent.natAbs ++ rest)) =
          some ('e' :: sign :: Nat.toDigits 10 exponent.natAbs, rest) := by
      rcases hsign with rfl | rfl
      all_goals
        rw [exponentPart?]
        simp only [decide_true, Bool.true_or, if_true, hdigits, Option.map_some]
    rw [Decimal.exponentText]
    split
    · exact hsigned '-' (.inr rfl)
    · exact hsigned '+' (.inl rfl)

/-- A numeral without a sign has up to three parts. -/
def IsUnsigned (text : List Char) : Prop :=
  ∃ whole fraction exponent, IsWhole whole ∧ IsFraction fraction ∧ IsExponent exponent ∧
    text = whole ++ (fraction ++ exponent)

theorem IsUnsigned.isNumeral {text : List Char} (h : IsUnsigned text) (negative : Bool) :
    IsNumeral ((if negative then ['-'] else []) ++ text) := by
  obtain ⟨whole, fraction, exponent, hwhole, hfraction, hexponent, rfl⟩ := h
  obtain ⟨lead, tail, rfl⟩ := List.exists_cons_of_ne_nil hwhole.ne_nil
  have hlead : lead.isDigit = true := hwhole.digits lead List.mem_cons_self
  have hminus : lead ≠ '-' := Char.ne_of_isDigit hlead rfl
  constructor
  · cases negative with
    | true => exact ⟨'-', _, rfl, .inr rfl⟩
    | false => exact ⟨lead, _, rfl, .inl hlead⟩
  · intro rest hrest
    have hafterFraction : ∀ c ∈ (exponent ++ rest).head?, c.isDigit = false ∧ c ≠ '.' := by
      rcases hexponent with rfl | ⟨power, rfl⟩
      · exact fun c hc => ⟨(hrest c hc).1, (hrest c hc).2.1⟩
      · rintro c ⟨⟩
        decide
    have hafterWhole : ∀ c ∈ (fraction ++ (exponent ++ rest)).head?, c.isDigit = false := by
      rcases hfraction with rfl | ⟨digits, rfl, -⟩
      · exact fun c hc => (hafterFraction c hc).1
      · rintro c ⟨⟩
        rfl
    have hparts := hwhole.reads hafterWhole
    cases negative with
    | true =>
      show numeral? ('-' :: (lead :: tail ++ (fraction ++ exponent) ++ rest)) = _
      rw [List.append_assoc, List.append_assoc, numeral?]
      simp only [hparts, hfraction.reads hafterFraction, hexponent.reads hrest, Option.bind_eq_bind, Option.bind_some,
        if_true, List.append_assoc]
    | false =>
      show numeral? (lead :: tail ++ (fraction ++ exponent) ++ rest) = _
      rw [List.append_assoc, List.append_assoc, numeral?]
      · simp only [hparts, hfraction.reads hafterFraction, hexponent.reads hrest, Option.bind_eq_bind, Option.bind_some,
          Bool.false_eq_true, if_false, List.nil_append, List.append_assoc]
      · exact fun _ heq => hminus (List.cons.inj heq).1

/-! ### Written numbers -/

/-- The digits of a number begin with a zero only if it is zero. -/
theorem toDigits_eq_zero_cons {n : Nat} {tail : List Char} (h : Nat.toDigits 10 n = '0' :: tail) : n = 0 ∧ tail = [] := by
  induction n using Nat.strongRecOn generalizing tail with
  | ind n ih =>
    rcases Nat.lt_or_ge n 10 with hlt | hge
    · rw [Nat.toDigits_of_lt_base hlt] at h
      obtain ⟨hdigit, htail⟩ := List.cons.inj h
      have hvalue := digitsValue_toDigits n
      rw [Nat.toDigits_of_lt_base hlt, hdigit] at hvalue
      exact ⟨hvalue.symm, htail.symm⟩
    · rw [Nat.toDigits_of_base_le (by decide) hge] at h
      cases hdigits : Nat.toDigits 10 (n / 10) with
      | nil => exact absurd hdigits Nat.toDigits_ne_nil
      | cons lead rest =>
        rw [hdigits, List.cons_append] at h
        have hzero := (ih (n / 10) (by omega) ((List.cons.inj h).1 ▸ hdigits)).1
        omega

theorem isWhole_toDigits (n : Nat) : IsWhole (Nat.toDigits 10 n) where
  ne_nil := Nat.toDigits_ne_nil
  digits _ := Decimal.isDigit_of_mem_toDigits
  zero _ h := (toDigits_eq_zero_cons h).2

theorem IsWhole.take {whole : List Char} (h : IsWhole whole) {n : Nat} (hn : 0 < n) : IsWhole (whole.take n) where
  ne_nil := by simp [List.take_eq_nil_iff, h.ne_nil]; omega
  digits c hc := h.digits c (List.mem_of_mem_take hc)
  zero tail heq := by
    obtain ⟨lead, rest, rfl⟩ := List.exists_cons_of_ne_nil h.ne_nil
    obtain ⟨n, rfl⟩ : ∃ m, n = m + 1 := ⟨n - 1, by omega⟩
    obtain ⟨rfl, rfl⟩ := List.cons.inj heq
    rw [h.zero rest rfl, List.take_nil]

theorem isUnsigned_positional {d : Decimal} (hzero : d.digits = 0 → d.exponent = 0) : IsUnsigned (d.positional true) := by
  have hdigits := isWhole_toDigits d.digits
  rw [Decimal.positional]
  split
  case isTrue hexponent =>
    have hwhole : IsWhole (Nat.toDigits 10 d.digits ++ List.replicate d.exponent.toNat '0') := by
      refine ⟨List.append_ne_nil_of_left_ne_nil hdigits.ne_nil _, ?_, ?_⟩
      · intro c hc
        rcases List.mem_append.mp hc with hc | hc
        · exact hdigits.digits c hc
        · rw [List.eq_of_mem_replicate hc]
          rfl
      · intro tail heq
        obtain ⟨lead, rest, hcons⟩ := List.exists_cons_of_ne_nil hdigits.ne_nil
        rw [hcons, List.cons_append] at heq
        obtain ⟨rfl, rfl⟩ := List.cons.inj heq
        obtain ⟨hnone, rfl⟩ := toDigits_eq_zero_cons hcons
        rw [hzero hnone]
        rfl
    exact ⟨_, ['.', '0'], [], hwhole, .inr ⟨['0'], rfl, List.cons_ne_nil _ _, List.forall_mem_singleton.mpr rfl⟩,
      .inl rfl, rfl⟩
  case isFalse hexponent =>
    split
    case isTrue hpoint =>
      have hwhole : IsWhole ((Nat.toDigits 10 d.digits).take (((Nat.toDigits 10 d.digits).length : Int) + d.exponent).toNat) :=
        hdigits.take (by omega)
      refine ⟨_, _, [], hwhole, .inr ⟨_, rfl, ?_, ?_⟩, .inl rfl, by rw [List.append_nil]⟩
      · rw [ne_eq, List.drop_eq_nil_iff]
        omega
      · exact fun c hc => hdigits.digits c (List.mem_of_mem_drop hc)
    case isFalse hpoint =>
      refine ⟨['0'], _, [], isWhole_toDigits 0, .inr ⟨_, rfl, ?_, ?_⟩, .inl rfl, by rw [List.append_nil]; rfl⟩
      · exact List.append_ne_nil_of_right_ne_nil _ hdigits.ne_nil
      · intro c hc
        rcases List.mem_append.mp hc with hc | hc
        · rw [List.eq_of_mem_replicate hc]
          rfl
        · exact hdigits.digits c hc

theorem isUnsigned_withExponent (d : Decimal) : IsUnsigned (d.withExponent true) := by
  have hdigits := isWhole_toDigits d.digits
  obtain ⟨lead, rest, hcons⟩ := List.exists_cons_of_ne_nil hdigits.ne_nil
  rw [hcons] at hdigits
  have hfraction : IsFraction (if rest = [] then [] else '.' :: rest) := by
    split
    case isTrue => exact .inl rfl
    case isFalse hrest => exact .inr ⟨rest, rfl, hrest, fun c hc => hdigits.digits c (List.mem_cons_of_mem _ hc)⟩
  rw [Decimal.withExponent_eq hcons]
  exact ⟨[lead], _, _, hdigits.take Nat.one_pos, hfraction, .inr ⟨_, rfl⟩, rfl⟩

theorem isUnsigned_layout {style : NumberStyle} (hpoint : style.pointZero = true) (hplus : style.plusExponent = true)
    {d : Decimal} (hzero : d.digits = 0 → d.exponent = 0) : IsUnsigned (style.layout d) := by
  have hboth (positional : Bool) : IsUnsigned (if positional then d.positional true else d.withExponent true) := by
    cases positional with
    | true => exact isUnsigned_positional hzero
    | false => exact isUnsigned_withExponent d
  rw [NumberStyle.layout, hpoint, hplus]
  exact hboth _

/-- A number above zero is not written with zeros alone. -/
theorem digits_shortest_ne_zero {f : Format} (tie : Tie) {word : Nat} (hpos : 0 < word) :
    (f.shortest tie word).digits ≠ 0 := by
  have hreads : f.readsBack word (f.shortest tie word) = true := Format.readsBack_shortest tie hpos
  have hunits : f.units (word - 1) < f.units word := Format.units_pred_lt hpos
  have hpower : 0 < 10 ^ (-(f.shortest tie word).exponent).toNat := Nat.pow_pos (by decide)
  have hbelow : 0 < (f.units (word - 1) + f.units word) * 10 ^ (-(f.shortest tie word).exponent).toNat :=
    Nat.mul_pos (by omega) hpower
  intro hzero
  rw [Format.readsBack_iff, hzero, Nat.zero_mul, Nat.zero_mul] at hreads
  omega

/-- The text of a finite number in a style that writes exponents with their sign and whole numbers with a point
is a numeral. -/
theorem isNumeral_write {f : Format} {style : NumberStyle} (hpoint : style.pointZero = true) (hplus : style.plusExponent = true)
    {x : Binary f} (hx : x.isFinite = true) : IsNumeral (style.write x).toList := by
  cases x with
  | nan => cases hx
  | signed negative word =>
    rw [NumberStyle.write, if_pos hx, String.toList_ofList]
    apply IsUnsigned.isNumeral
    apply isUnsigned_layout hpoint hplus
    split
    case isTrue => exact fun _ => rfl
    case isFalse hzero =>
      have hpos : 0 < word.val := Nat.pos_of_ne_zero fun hword => hzero (decide_eq_true hword)
      exact fun hdigits => absurd hdigits (digits_shortest_ne_zero style.tie hpos)

end SurfaceWater.Json
