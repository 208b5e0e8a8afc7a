import SurfaceWater.Numeric.Numeral
import SurfaceWater.Proofs.Numeric.Binary

/-!
# Reading what is written in digits

The decimal digits of a number read back to it, and a numeral in digits is read part by part: the digits
before a point, those after it, and an exponent.
-/

namespace SurfaceWater

/-! ### Digits -/

theorem digitsValue_toDigits (n : Nat) : digitsValue (Nat.toDigits 10 n) = n := Nat.ofDigitChars_ten_toDigits

theorem naturalOfDigits?_toDigits (n : Nat) : naturalOfDigits? (Nat.toDigits 10 n) = some n := by
  have hdigits : (Nat.toDigits 10 n).all Char.isDigit = true :=
    List.all_eq_true.mpr fun c => Nat.isDigit_of_mem_toDigits (by decide) (by decide)
  have hne : (Nat.toDigits 10 n).isEmpty = false := List.isEmpty_eq_false_iff.mpr Nat.toDigits_ne_nil
  rw [naturalOfDigits?, hdigits, hne, digitsValue_toDigits]
  rfl

theorem naturalOfDigits?_eq_some_iff {text : List Char} {n : Nat} :
    naturalOfDigits? text = some n ↔ text ≠ [] ∧ (∀ c ∈ text, c.isDigit = true) ∧ digitsValue text = n := by
  rw [naturalOfDigits?]
  by_cases h : (!text.isEmpty && text.all Char.isDigit) = true
  · rw [if_pos h]
    simp_all
  · rw [if_neg h]
    simp only [Bool.and_eq_true, Bool.not_eq_true', List.isEmpty_eq_false_iff, List.all_eq_true] at h
    simp only [reduceCtorEq, false_iff, not_and]
    exact fun hne hdigits => absurd ⟨hne, hdigits⟩ h

theorem Char.bounds_of_isDigit {c : Char} (hc : c.isDigit = true) : 48 ≤ c.toNat ∧ c.toNat ≤ 57 := by
  simp only [Char.isDigit, Bool.and_eq_true, decide_eq_true_eq] at hc
  exact hc

/-- A number is below the power of ten of its digits. -/
theorem digitsValue_lt {digits : List Char} (h : ∀ c ∈ digits, c.isDigit = true) :
    digitsValue digits < 10 ^ digits.length := by
  have hfold (n : Nat) : digits.foldl (fun n c => 10 * n + (c.toNat - 48)) n + 1 ≤ (n + 1) * 10 ^ digits.length := by
    induction digits generalizing n with
    | nil => simp
    | cons c digits ih =>
      have hc := (Char.bounds_of_isDigit (h c List.mem_cons_self)).2
      calc _ ≤ (10 * n + (c.toNat - 48) + 1) * 10 ^ digits.length := ih (fun d hd => h d (List.mem_cons_of_mem _ hd)) _
        _ ≤ (n + 1) * 10 * 10 ^ digits.length := Nat.mul_le_mul_right _ (by omega)
        _ = (n + 1) * 10 ^ (digits.length + 1) := by rw [Nat.pow_succ, Nat.mul_assoc, Nat.mul_comm 10]
  have hzero := hfold 0
  rwa [Nat.zero_add, Nat.one_mul] at hzero

theorem Char.ne_of_isDigit {c d : Char} (hc : c.isDigit = true) (hd : d.isDigit = false) : c ≠ d := by
  rintro rfl
  rw [hc] at hd
  cases hd

/-! ### Signs and names -/

namespace Numeral

theorem splitSign_of_isDigit {c : Char} (hc : c.isDigit = true) (rest : List Char) :
    splitSign (c :: rest) = (false, c :: rest) := by
  have hminus : c ≠ '-' := Char.ne_of_isDigit hc rfl
  have hplus : c ≠ '+' := Char.ne_of_isDigit hc rfl
  simp [splitSign, hminus, hplus]

/-- What begins with a digit after its sign is not a name. -/
theorem read?_of_splitSign {text rest : List Char} {negative : Bool} {c : Char}
    (h : splitSign text = (negative, c :: rest)) (hc : c.isDigit = true) :
    read? text = (magnitude? (c :: rest)).map (.decimal negative) := by
  have hbounds := Char.bounds_of_isDigit hc
  have hlower : lowerAscii c = c := by
    have hupper : ¬ c.isUpper = true := by
      intro hupper
      have hle : 65 ≤ c.toNat := (of_decide_eq_true hupper).1
      omega
    rw [lowerAscii, if_neg hupper]
  have hname (d : Char) (name : List Char) (hd : d.isDigit = false) :
      ¬ String.ofList ((c :: rest).map lowerAscii) = String.ofList (d :: name) := by
    intro heq
    have hlist := congrArg String.toList heq
    rw [String.toList_ofList, String.toList_ofList, List.map_cons, hlower] at hlist
    exact Char.ne_of_isDigit hc hd (List.cons.inj hlist).1
  have hinf := hname 'i' ['n', 'f'] rfl
  have hinfinity := hname 'i' ['n', 'f', 'i', 'n', 'i', 't', 'y'] rfl
  have hnan := hname 'n' ['a', 'n'] rfl
  rw [read?, h]
  simp only [Bool.or_eq_true, decide_eq_true_eq]
  rw [if_neg (not_or.mpr ⟨hinf, hinfinity⟩), if_neg hnan]

theorem read?_of_isDigit {c : Char} (hc : c.isDigit = true) (rest : List Char) :
    read? (c :: rest) = (magnitude? (c :: rest)).map (.decimal false) :=
  read?_of_splitSign (splitSign_of_isDigit hc rest) hc

/-! ### Magnitudes -/

theorem span_digits {digits rest : List Char} (hdigits : ∀ c ∈ digits, c.isDigit = true)
    (hrest : ∀ c ∈ rest.head?, c.isDigit = false) :
    (digits ++ rest).takeWhile Char.isDigit = digits ∧ (digits ++ rest).dropWhile Char.isDigit = rest := by
  rw [List.takeWhile_append_of_pos hdigits, List.dropWhile_append_of_pos hdigits]
  cases rest with
  | nil => exact ⟨List.append_nil _, rfl⟩
  | cons c rest =>
    have hc : ¬ c.isDigit = true := by simp [hrest c rfl]
    rw [List.takeWhile_cons_of_neg hc, List.dropWhile_cons_of_neg hc]
    exact ⟨List.append_nil _, rfl⟩

section

variable {whole fraction rest : List Char} {exponent : Int} (hwhole : ∀ c ∈ whole, c.isDigit = true) (hne : whole ≠ [])
  (hexponent : exponentPart? rest = some exponent)

include hwhole hne hexponent

theorem magnitude?_whole (hrest : ∀ c ∈ rest.head?, c.isDigit = false ∧ c ≠ '.') :
    magnitude? (whole ++ rest) = some ⟨digitsValue whole, exponent⟩ := by
  obtain ⟨htake, hdrop⟩ := span_digits hwhole fun c hc => (hrest c hc).1
  have hnotEmpty : whole.isEmpty = false := List.isEmpty_eq_false_iff.mpr hne
  rw [magnitude?, htake, hdrop]
  split
  rename_i fraction tail hsplit
  split at hsplit
  · exact absurd rfl (hrest '.' rfl).2
  · obtain ⟨rfl, rfl⟩ := Prod.mk.inj hsplit
    simp [hnotEmpty, hexponent]

theorem magnitude?_point (hfraction : ∀ c ∈ fraction, c.isDigit = true)
    (hrest : ∀ c ∈ rest.head?, c.isDigit = false) :
    magnitude? (whole ++ '.' :: (fraction ++ rest)) =
      some ⟨digitsValue (whole ++ fraction), exponent - fraction.length⟩ := by
  have hpoint : ∀ c ∈ ('.' :: (fraction ++ rest)).head?, c.isDigit = false := by simp
  obtain ⟨htake, hdrop⟩ := span_digits hwhole hpoint
  obtain ⟨htakeRest, hdropRest⟩ := span_digits hfraction hrest
  have hnotEmpty : whole.isEmpty = false := List.isEmpty_eq_false_iff.mpr hne
  simp only [magnitude?, htake, hdrop, htakeRest, hdropRest, hnotEmpty, Bool.false_and, Bool.false_eq_true, if_false,
    hexponent, Option.bind_eq_bind, Option.bind_some]

end

/-! ### Whole numbers -/

theorem toBinary_natural {f : Format} (n : Nat) : (decimal false ⟨n, 0⟩).toBinary = (Binary.ofNat n : Binary f) := by
  have hlarge : ¬ ((2 ^ f.exponentBits : Nat) : Int) < 0 := Int.not_lt.mpr (Int.natCast_nonneg _)
  have hsmall : ¬ (0 : Int) < -((2 ^ f.exponentBits + n.log2 : Nat) : Int) :=
    Int.not_lt.mpr (Int.neg_nonpos_of_nonneg (Int.natCast_nonneg _))
  rw [toBinary, Binary.ofDecimal, if_neg hlarge, if_neg hsmall, if_pos (Int.le_refl 0), Int.toNat_zero, Nat.pow_zero,
    Nat.mul_one]
  split
  case isTrue hzero =>
    obtain rfl : n = 0 := hzero
    exact Binary.ofNat_zero.symm
  case isFalse => rfl

end Numeral

end SurfaceWater
