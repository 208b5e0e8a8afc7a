import SurfaceWater.Numeric.Notation
import SurfaceWater.Proofs.Numeric.Numeral

/-!
# Written numbers read back

The digits that a number is written with lie between the midpoints of its word with the neighbours of
the word, whatever the search for the fewest of them comes to. Reading rounds to nearest, so that it comes
back to the word.
-/

namespace SurfaceWater

/-! ### Decimals around a word -/

theorem Nat.compare_mul_right {a b k : Nat} (hk : 0 < k) : compare (a * k) (b * k) = compare a b := by
  rcases Nat.lt_trichotomy a b with hlt | rfl | hgt
  · rw [Nat.compare_eq_lt.mpr hlt, Nat.compare_eq_lt]
    exact Nat.mul_lt_mul_of_pos_right hlt hk
  · rw [Nat.compare_eq_eq.mpr rfl, Nat.compare_eq_eq.mpr rfl]
  · rw [Nat.compare_eq_gt.mpr hgt, Nat.compare_eq_gt]
    exact Nat.mul_lt_mul_of_pos_right hgt hk

/-- A zero at the end of the digits says the same in the exponent. -/
theorem Decimal.compareRatio_succ (digits : Nat) (exponent : Int) (num den : Nat) :
    compareRatio ⟨digits, exponent + 1⟩ num den = compareRatio ⟨digits * 10, exponent⟩ num den := by
  rw [compareRatio, compareRatio]
  dsimp only
  rcases Int.lt_or_le exponent 0 with hneg | hnonneg
  · obtain ⟨down, hdown⟩ : ∃ down : Nat, (-exponent).toNat = down + 1 := ⟨(-exponent).toNat - 1, by omega⟩
    have hnext : (-(exponent + 1)).toNat = down := by omega
    have hzero : (exponent + 1).toNat = 0 := by omega
    have hzero' : exponent.toNat = 0 := by omega
    rw [hdown, hnext, hzero, hzero', ← Nat.compare_mul_right (Nat.zero_lt_succ 9)]
    congr 1 <;> ring
  · have hup : (exponent + 1).toNat = exponent.toNat + 1 := by omega
    have hzero : (-(exponent + 1)).toNat = 0 := by omega
    have hzero' : (-exponent).toNat = 0 := by omega
    rw [hup, hzero, hzero']
    congr 1
    ring

namespace Format

variable {f : Format} {word : Nat} {d : Decimal}

theorem readsBack_stripZeros (f : Format) (word fuel : Nat) (d : Decimal) :
    f.readsBack word (d.stripZeros fuel) = f.readsBack word d := by
  induction fuel generalizing d with
  | zero => rfl
  | succ fuel ih =>
    rw [Decimal.stripZeros]
    split
    case isTrue h =>
      have hdigits : d.digits / 10 * 10 = d.digits := Nat.div_mul_cancel (Nat.dvd_of_mod_eq_zero h.2)
      rw [ih]
      simp only [readsBack, Decimal.compareRatio_succ, hdigits]
    case isFalse => rfl

/-- A decimal reads back to a word when it lies between the midpoints around it, and is not a midpoint of an odd one. -/
theorem readsBack_iff : f.readsBack word d = true ↔
    ((f.units (word - 1) + f.units word) * 10 ^ (-d.exponent).toNat <
        d.digits * 10 ^ d.exponent.toNat * 2 ^ (f.scale + 1) ∨
      (f.units (word - 1) + f.units word) * 10 ^ (-d.exponent).toNat =
        d.digits * 10 ^ d.exponent.toNat * 2 ^ (f.scale + 1) ∧ word % 2 = 0) ∧
    (d.digits * 10 ^ d.exponent.toNat * 2 ^ (f.scale + 1) <
        (f.units word + f.units (word + 1)) * 10 ^ (-d.exponent).toNat ∨
      d.digits * 10 ^ d.exponent.toNat * 2 ^ (f.scale + 1) =
        (f.units word + f.units (word + 1)) * 10 ^ (-d.exponent).toNat ∧ word % 2 = 0) := by
  have hunits : f.units (word - 1) ≤ f.units (word + 1) := by
    have hhere := f.units_lt_succ word
    rcases Nat.eq_zero_or_pos word with rfl | hpos
    · exact Nat.le_of_lt hhere
    · exact Nat.le_of_lt ((units_pred_lt hpos).trans hhere)
  have hle : (f.units (word - 1) + f.units word) * 10 ^ (-d.exponent).toNat ≤
      (f.units word + f.units (word + 1)) * 10 ^ (-d.exponent).toNat := Nat.mul_le_mul_right _ (by omega)
  simp only [readsBack, Decimal.compareRatio]
  generalize (f.units (word - 1) + f.units word) * 10 ^ (-d.exponent).toNat = low at hle ⊢
  generalize (f.units word + f.units (word + 1)) * 10 ^ (-d.exponent).toNat = high at hle ⊢
  generalize d.digits * 10 ^ d.exponent.toNat * 2 ^ (f.scale + 1) = value
  rcases Nat.lt_trichotomy value low with hlow | hlow | hlow
  · have hhigh : compare value high = .lt := Nat.compare_eq_lt.mpr (by omega)
    simp only [Nat.compare_eq_lt.mpr hlow, hhigh, Bool.false_eq_true, false_iff]
    omega
  · simp only [Nat.compare_eq_eq.mpr hlow, decide_eq_true_eq]
    omega
  · rcases Nat.lt_trichotomy value high with hhigh | hhigh | hhigh
    · simp only [Nat.compare_eq_gt.mpr hlow, Nat.compare_eq_lt.mpr hhigh, true_iff]
      omega
    · simp only [Nat.compare_eq_gt.mpr hlow, Nat.compare_eq_eq.mpr hhigh, decide_eq_true_eq]
      omega
    · simp only [Nat.compare_eq_gt.mpr hlow, Nat.compare_eq_gt.mpr hhigh, Bool.false_eq_true, false_iff]
      omega

/-! ### The digits of a word -/

theorem readsBack_nearestOnGrid {tie : Tie} {exponent : Int} (h : f.nearestOnGrid tie word exponent = some d) :
    f.readsBack word d = true := by
  simp only [nearestOnGrid] at h
  split at h
  case h_1 hbelow _ =>
    obtain rfl := Option.some.inj h
    exact hbelow
  case h_2 _ habove =>
    obtain rfl := Option.some.inj h
    exact habove
  case h_3 => cases h
  case h_4 hbelow habove =>
    split at h
    case h_1 =>
      obtain rfl := Option.some.inj h
      exact hbelow
    case h_2 =>
      obtain rfl := Option.some.inj h
      exact habove
    case h_3 =>
      obtain rfl := Option.some.inj h
      split
      · exact hbelow
      · exact habove

/-- The exact digits of a number lie between its neighbours. -/
theorem readsBack_exact (hpos : 0 < word) : f.readsBack word ⟨f.units word * 5 ^ f.scale, -f.scale⟩ = true := by
  have hdown : (- -(f.scale : Int)).toNat = f.scale := by omega
  have hup : (-(f.scale : Int)).toNat = 0 := by omega
  have hvalue : f.units word * 5 ^ f.scale * 1 * 2 ^ (f.scale + 1) = 2 * f.units word * 10 ^ f.scale := by
    have hten : 10 ^ f.scale = 5 ^ f.scale * 2 ^ f.scale := by rw [← Nat.mul_pow]
    rw [hten]
    ring
  have hbelow := units_pred_lt (f := f) hpos
  have habove := f.units_lt_succ word
  rw [readsBack_iff]
  dsimp only
  rw [hdown, hup, Nat.pow_zero, hvalue]
  refine ⟨.inl (Nat.mul_lt_mul_of_pos_right (by omega) (Nat.pow_pos (by omega))),
    .inl (Nat.mul_lt_mul_of_pos_right (by omega) (Nat.pow_pos (by omega)))⟩

theorem readsBack_shortest (tie : Tie) (hpos : 0 < word) : f.readsBack word (f.shortest tie word) = true := by
  rw [shortest, readsBack_stripZeros]
  cases hfound : (List.range 17).findSome? fun (n : Nat) =>
      f.nearestOnGrid tie word (f.decimalPoint (f.units word) - (n + 1 : Nat)) with
  | none => exact readsBack_exact hpos
  | some d =>
    obtain ⟨n, -, hd⟩ := List.exists_of_findSome?_eq_some hfound
    exact readsBack_nearestOnGrid hd

/-! ### Reading -/

theorem two_pow_le_ten_pow (n : Nat) : 2 ^ (3 * n) ≤ 10 ^ n := by
  rw [Nat.pow_mul]
  exact Nat.pow_le_pow_left (by decide) n

/-- The midpoint above a finite word is below the power of two that the format has no exponent for. -/
theorem midpoint_le (hword : word < f.infinityWord) : f.units word + f.units (word + 1) ≤ 2 ^ (f.fractionBits + 2 ^ f.exponentBits) := by
  obtain ⟨shift, mantissa, hparts, rfl⟩ := f.exists_parts word
  have hshift : shift < 2 ^ f.exponentBits - 1 :=
    Nat.lt_of_mul_lt_mul_right (Nat.lt_of_le_of_lt (Nat.le_add_right _ _) hword)
  have hlt := hparts.lt
  rw [hparts.units_eq, hparts.units_succ]
  calc mantissa * 2 ^ shift + (mantissa + 1) * 2 ^ shift
      ≤ 2 * 2 ^ f.fractionBits * 2 ^ shift + 2 * 2 ^ f.fractionBits * 2 ^ shift :=
        Nat.add_le_add (Nat.mul_le_mul_right _ (Nat.le_of_lt hlt)) (Nat.mul_le_mul_right _ hlt)
    _ = 2 ^ (f.fractionBits + (shift + 2)) := by ring
    _ ≤ 2 ^ (f.fractionBits + 2 ^ f.exponentBits) := Nat.pow_le_pow_right Nat.two_pos (by omega)

/-- No word reads back from what is too large for the format. -/
theorem exponent_le_of_readsBack (hrange : f.fractionBits ≤ 2 ^ f.exponentBits) (hword : word < f.infinityWord)
    (hdigits : d.digits ≠ 0) (h : f.readsBack word d = true) : d.exponent ≤ (2 ^ f.exponentBits : Nat) := by
  by_contra hlarge
  obtain ⟨-, hhigh⟩ := readsBack_iff.mp h
  have hdown : (-d.exponent).toNat = 0 := by omega
  have hup : 2 ^ f.exponentBits + 1 ≤ d.exponent.toNat := by omega
  rw [hdown, Nat.pow_zero, Nat.mul_one] at hhigh
  have hvalue : 2 ^ (3 * (2 ^ f.exponentBits + 1)) ≤ d.digits * 10 ^ d.exponent.toNat * 2 ^ (f.scale + 1) :=
    calc 2 ^ (3 * (2 ^ f.exponentBits + 1))
        ≤ 10 ^ (2 ^ f.exponentBits + 1) := two_pow_le_ten_pow _
      _ ≤ 10 ^ d.exponent.toNat := Nat.pow_le_pow_right (by decide) hup
      _ ≤ d.digits * 10 ^ d.exponent.toNat := Nat.le_mul_of_pos_left _ (Nat.pos_of_ne_zero hdigits)
      _ ≤ d.digits * 10 ^ d.exponent.toNat * 2 ^ (f.scale + 1) := Nat.le_mul_of_pos_right _ (Nat.two_pow_pos _)
  have hmidpoint := midpoint_le hword
  have hpower : 2 ^ (f.fractionBits + 2 ^ f.exponentBits) < 2 ^ (3 * (2 ^ f.exponentBits + 1)) :=
    Nat.pow_lt_pow_right Nat.one_lt_two (by omega)
  omega

/-- No word but zero reads back from what is too small for the format. -/
theorem le_exponent_of_readsBack (hrange : f.fractionBits ≤ 2 ^ f.exponentBits) (hpos : 0 < word)
    (h : f.readsBack word d = true) :
    -((2 ^ f.exponentBits + d.digits.log2 : Nat) : Int) ≤ d.exponent := by
  by_contra hsmall
  obtain ⟨hlow, -⟩ := readsBack_iff.mp h
  have hup : d.exponent.toNat = 0 := by omega
  have hdown : 2 ^ f.exponentBits + d.digits.log2 + 1 ≤ (-d.exponent).toNat := by omega
  rw [hup, Nat.pow_zero, Nat.mul_one] at hlow
  have hmidpoint : 2 ^ (3 * (2 ^ f.exponentBits + d.digits.log2 + 1)) ≤
      (f.units (word - 1) + f.units word) * 10 ^ (-d.exponent).toNat :=
    calc 2 ^ (3 * (2 ^ f.exponentBits + d.digits.log2 + 1))
        ≤ 10 ^ (2 ^ f.exponentBits + d.digits.log2 + 1) := two_pow_le_ten_pow _
      _ ≤ 10 ^ (-d.exponent).toNat := Nat.pow_le_pow_right (by decide) hdown
      _ ≤ (f.units (word - 1) + f.units word) * 10 ^ (-d.exponent).toNat :=
        Nat.le_mul_of_pos_left _ (by have := units_pred_lt (f := f) hpos; omega)
  have hscale : f.scale ≤ 2 ^ f.exponentBits + f.fractionBits := by
    have hhalf : 2 ^ (f.exponentBits - 1) ≤ 2 ^ f.exponentBits := Nat.pow_le_pow_right Nat.two_pos (Nat.sub_le _ _)
    rw [scale]
    omega
  have hvalue : d.digits * 2 ^ (f.scale + 1) < 2 ^ (3 * (2 ^ f.exponentBits + d.digits.log2 + 1)) :=
    calc d.digits * 2 ^ (f.scale + 1)
        < 2 ^ (d.digits.log2 + 1) * 2 ^ (f.scale + 1) :=
          Nat.mul_lt_mul_of_pos_right Nat.lt_log2_self (Nat.two_pow_pos _)
      _ = 2 ^ (d.digits.log2 + 1 + (f.scale + 1)) := (Nat.pow_add ..).symm
      _ ≤ 2 ^ (3 * (2 ^ f.exponentBits + d.digits.log2 + 1)) := Nat.pow_le_pow_right Nat.two_pos (by omega)
  omega

/-- A decimal between the midpoints around a word is read as the word. -/
theorem ofDecimal_of_readsBack (hfraction : 0 < f.fractionBits) (hrange : f.fractionBits ≤ 2 ^ f.exponentBits)
    {word : Fin (f.infinityWord + 1)} (hpos : 0 < word.val) (hword : word.val < f.infinityWord)
    (h : f.readsBack word d = true) (negative : Bool) :
    Binary.ofDecimal negative d.digits d.exponent = .signed negative word := by
  obtain ⟨hlow, hhigh⟩ := readsBack_iff.mp h
  have hdigits : d.digits ≠ 0 := by
    intro hzero
    have hmidpoint : 0 < (f.units (word - 1) + f.units word) * 10 ^ (-d.exponent).toNat :=
      Nat.mul_pos (by have := units_pred_lt (f := f) hpos; omega) (Nat.pow_pos (by decide))
    rw [hzero, Nat.zero_mul, Nat.zero_mul] at hlow
    omega
  have hlarge := exponent_le_of_readsBack hrange hword hdigits h
  have hsmall := le_exponent_of_readsBack hrange hpos h
  have htwice : d.digits * 10 ^ d.exponent.toNat * 2 ^ (f.scale + 1) =
      2 * (d.digits * 10 ^ d.exponent.toNat * 2 ^ f.scale) := by ring
  rw [htwice] at hlow hhigh
  have hround : f.roundWord (d.digits * 10 ^ d.exponent.toNat * 2 ^ f.scale) (10 ^ (-d.exponent).toNat) = word :=
    roundWord_eq hfraction (Nat.pow_pos (by decide)) hpos (Nat.le_of_lt hword) hlow hhigh
  rw [Binary.ofDecimal, if_neg hdigits, if_neg (by omega), if_neg (by omega)]
  split
  case isTrue hnonneg =>
    have hdown : (-d.exponent).toNat = 0 := by omega
    rw [hdown, Nat.pow_zero] at hround
    rw [Binary.ofRatio, Binary.ofUnits]
    congr 1
    exact Fin.ext hround
  case isFalse hneg =>
    have hup : d.exponent.toNat = 0 := by omega
    rw [hup, Nat.pow_zero, Nat.mul_one] at hround
    rw [Binary.ofRatio, Binary.ofUnits]
    congr 1
    exact Fin.ext hround

end Format

/-! ### Texts -/

namespace Decimal

theorem isDigit_of_mem_toDigits {n : Nat} {c : Char} (h : c ∈ Nat.toDigits 10 n) : c.isDigit = true :=
  Nat.isDigit_of_mem_toDigits (by decide) (by decide) h

/-- What `withExponent` puts after the digits. -/
def exponentText (plusExponent : Bool) (exponent : Int) : List Char :=
  'e' :: ((if exponent < 0 then ['-'] else if plusExponent then ['+'] else []) ++ Nat.toDigits 10 exponent.natAbs)

theorem exponentPart?_exponentText (plusExponent : Bool) (exponent : Int) :
    Numeral.exponentPart? (exponentText plusExponent exponent) = some exponent := by
  have hsign : splitSign ((if exponent < 0 then ['-'] else if plusExponent then ['+'] else []) ++
      Nat.toDigits 10 exponent.natAbs) = (decide (exponent < 0), Nat.toDigits 10 exponent.natAbs) := by
    by_cases hneg : exponent < 0
    · rw [if_pos hneg, decide_eq_true hneg]
      rfl
    · rw [if_neg hneg, decide_eq_false hneg]
      cases plusExponent with
      | true => rfl
      | false =>
        cases hdigits : Nat.toDigits 10 exponent.natAbs with
        | nil => exact absurd hdigits Nat.toDigits_ne_nil
        | cons c rest => exact Numeral.splitSign_of_isDigit (isDigit_of_mem_toDigits (hdigits ▸ List.mem_cons_self)) rest
  rw [exponentText, Numeral.exponentPart?, if_pos (by rfl), hsign]
  dsimp only
  rw [naturalOfDigits?_toDigits]
  change some (if decide (exponent < 0) = true then -(exponent.natAbs : Int) else exponent.natAbs) = some exponent
  simp only [decide_eq_true_eq, Option.some.injEq]
  split <;> omega

/-- The first digit stands alone before the point. -/
theorem withExponent_eq {d : Decimal} {lead : Char} {rest : List Char} (h : Nat.toDigits 10 d.digits = lead :: rest)
    (plusExponent : Bool) :
    d.withExponent plusExponent =
      lead :: ((if rest = [] then [] else '.' :: rest) ++ exponentText plusExponent (rest.length + d.exponent)) := by
  have hexponent : d.leadingExponent = rest.length + d.exponent := by
    rw [leadingExponent, h, List.length_cons]
    omega
  rw [withExponent, hexponent, h]
  cases rest with
  | nil => rfl
  | cons next rest => simp only [exponentText, List.cons_append, List.append_assoc, reduceCtorEq, if_false]

end Decimal

namespace Numeral

/-- The digits and the exponent of a number are read from their text. -/
theorem magnitude?_withExponent (plusExponent : Bool) (d : Decimal) : magnitude? (d.withExponent plusExponent) = some d := by
  cases hdigits : Nat.toDigits 10 d.digits with
  | nil => exact absurd hdigits Nat.toDigits_ne_nil
  | cons lead rest =>
    have hvalue : digitsValue (lead :: rest) = d.digits := hdigits ▸ digitsValue_toDigits d.digits
    have hall : ∀ c ∈ lead :: rest, c.isDigit = true := fun c hc => Decimal.isDigit_of_mem_toDigits (hdigits ▸ hc)
    rw [List.forall_mem_cons] at hall
    have hlead : ∀ c ∈ [lead], c.isDigit = true := List.forall_mem_singleton.mpr hall.1
    have hexponent := Decimal.exponentPart?_exponentText plusExponent (rest.length + d.exponent)
    have hmark : ∀ c ∈ (Decimal.exponentText plusExponent (rest.length + d.exponent)).head?, c.isDigit = false ∧ c ≠ '.' := by
      rintro c ⟨⟩
      decide
    rw [Decimal.withExponent_eq hdigits]
    split
    case isTrue hrest =>
      subst hrest
      refine (magnitude?_whole hlead (List.cons_ne_nil _ _) hexponent hmark).trans ?_
      rw [hvalue]
      simp
    case isFalse =>
      refine (magnitude?_point hlead (List.cons_ne_nil _ _) hexponent hall.2 fun c hc => (hmark c hc).1).trans ?_
      rw [List.singleton_append, hvalue, add_sub_cancel_left]

theorem read?_withExponent (plusExponent : Bool) (d : Decimal) (negative : Bool) :
    read? ((if negative then ['-'] else []) ++ d.withExponent plusExponent) = some (.decimal negative d) := by
  cases hdigits : Nat.toDigits 10 d.digits with
  | nil => exact absurd hdigits Nat.toDigits_ne_nil
  | cons lead rest =>
    have hlead : lead.isDigit = true := Decimal.isDigit_of_mem_toDigits (hdigits ▸ List.mem_cons_self)
    have hmagnitude := magnitude?_withExponent plusExponent d
    rw [Decimal.withExponent_eq hdigits] at hmagnitude ⊢
    cases negative with
    | true => exact (read?_of_splitSign rfl hlead).trans (congrArg _ hmagnitude)
    | false => exact (read?_of_isDigit hlead _).trans (congrArg _ hmagnitude)

end Numeral

theorem NumberStyle.layout_scientific (d : Decimal) : scientific.layout d = d.withExponent false := by
  have hrange (exponent : Int) : scientific.inRange exponent = false := by
    simp only [inRange, scientific, Option.all_some, Bool.and_eq_false_iff, decide_eq_false_iff_not]
    omega
  rw [layout, hrange]
  split <;> rfl

/-- What is written with an exponent is read back. -/
theorem Binary.read?_write_scientific {f : Format} (hfraction : 0 < f.fractionBits)
    (hrange : f.fractionBits ≤ 2 ^ f.exponentBits) (x : Binary f) : read? (NumberStyle.scientific.write x) = some x := by
  cases x with
  | nan =>
    have htext : Numeral.read? "NaN".toList = some .nan := by decide
    exact congrArg (Option.map Numeral.toBinary) htext
  | signed negative word =>
    by_cases hword : word.val < f.infinityWord
    case neg =>
      have hfinite : ¬ (signed negative word).isFinite = true := by simp [isFinite, magnitude?, hword]
      obtain rfl : word = Fin.last f.infinityWord := Fin.ext (by have := word.isLt; rw [Fin.val_last]; omega)
      rw [NumberStyle.write, if_neg hfinite]
      cases negative with
      | true =>
        have htext : Numeral.read? "-inf".toList = some (.infinity true) := by decide
        exact congrArg (Option.map Numeral.toBinary) htext
      | false =>
        have htext : Numeral.read? "inf".toList = some (.infinity false) := by decide
        exact congrArg (Option.map Numeral.toBinary) htext
    case pos =>
      have hfinite : (signed negative word).isFinite = true := by simp [isFinite, magnitude?, hword]
      rw [NumberStyle.write, if_pos hfinite]
      dsimp only
      rw [NumberStyle.layout_scientific, read?, String.toList_ofList, Numeral.read?_withExponent, Option.map_some,
        Numeral.toBinary]
      congr 1
      split
      case isTrue hzero =>
        have hword : word.val = 0 := of_decide_eq_true hzero
        rw [ofDecimal, if_pos rfl, zero]
        congr 1
        exact Fin.ext hword.symm
      case isFalse hzero =>
        have hpos : 0 < word.val := Nat.pos_of_ne_zero fun hword => hzero (decide_eq_true hword)
        exact Format.ofDecimal_of_readsBack hfraction hrange hpos hword (Format.readsBack_shortest _ hpos) negative

end SurfaceWater
