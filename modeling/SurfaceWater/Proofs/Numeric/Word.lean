import Mathlib.Algebra.GroupWithZero.Nat

/-!
# Words of 64 bits

Sizes and positions are natural numbers, and a machine keeps them in words. Its arithmetic is given here
with no answer at all where a result is too large for a word, is below zero or has no meaning. Where there
is an answer it is that of the natural numbers.
-/

namespace SurfaceWater.Word

/-- How many words there are. -/
abbrev count : Nat := UInt64.size

/-- A number, if a word can hold it. -/
def fit? (n : Nat) : Option Nat := if n < count then some n else none

def add? (m n : Nat) : Option Nat := fit? (m + n)

def mul? (m n : Nat) : Option Nat := fit? (m * n)

def sub? (m n : Nat) : Option Nat := if n ≤ m then some (m - n) else none

/-- How many pieces of a size cover a length: one more than whole pieces fit, unless nothing is left over. -/
def ceilDiv? (length size : Nat) : Option Nat :=
  if size = 0 then none
  else if length % size = 0 then some (length / size)
  else add? (length / size) 1

/-- The sum of a list, added up from the front. -/
def sum? (numbers : List Nat) : Option Nat := numbers.foldlM add? 0

variable {m n : Nat}

theorem fit?_of_lt (h : n < count) : fit? n = some n := if_pos h

theorem add?_of_lt (h : m + n < count) : add? m n = some (m + n) := fit?_of_lt h

theorem mul?_of_lt (h : m * n < count) : mul? m n = some (m * n) := fit?_of_lt h

theorem sub?_of_le (h : n ≤ m) : sub? m n = some (m - n) := if_pos h

theorem foldlM_add? (numbers : List Nat) (h : m + numbers.sum < count) :
    numbers.foldlM add? m = some (m + numbers.sum) := by
  induction numbers generalizing m with
  | nil => rfl
  | cons n numbers ih =>
    rw [List.sum_cons] at h
    rw [List.foldlM_cons, add?_of_lt (by omega), List.sum_cons, ← Nat.add_assoc]
    exact ih (by omega)

/-- A sum fits when its total does, whatever is added first. -/
theorem sum?_of_lt {numbers : List Nat} (h : numbers.sum < count) : sum? numbers = some numbers.sum := by
  rw [sum?, foldlM_add? numbers (by omega), Nat.zero_add]

end SurfaceWater.Word
