import SurfaceWater.Numeric.Power
import SurfaceWater.Storage

/-!
# Numbers in bytes

Fixed-width numbers with their most or their least significant byte first, and parts of a file.
-/

namespace SurfaceWater

inductive ByteOrder where
  | little
  | big
  deriving DecidableEq, Repr

namespace ByteOrder

/-- The number of bytes with the least significant one first. -/
def littleNumber : List UInt8 → Nat
  | [] => 0
  | byte :: bytes => byte.toNat + 256 * littleNumber bytes

/-- The bytes of a number with the least significant one first. What does not fit is dropped. -/
def littleBytes : Nat → Nat → List UInt8
  | 0, _ => []
  | width + 1, n => UInt8.ofNat (n % 256) :: littleBytes width (n / 256)

@[simp] theorem length_littleBytes (width n : Nat) : (littleBytes width n).length = width := by
  induction width generalizing n with
  | zero => rfl
  | succ width ih => simp [littleBytes, ih]

theorem littleNumber_littleBytes {width n : Nat} (h : n < 256 ^ width) : littleNumber (littleBytes width n) = n := by
  induction width generalizing n with
  | zero =>
    simp only [Nat.pow_zero] at h
    simp only [littleBytes, littleNumber]
    omega
  | succ width ih =>
    have hdiv : n / 256 < 256 ^ width := by
      rw [Nat.pow_succ] at h
      omega
    have hmod : (UInt8.ofNat (n % 256)).toNat = n % 256 := by
      rw [UInt8.toNat_ofNat']
      omega
    rw [littleBytes, littleNumber, ih hdiv, hmod]
    omega

def number (order : ByteOrder) (bytes : List UInt8) : Nat :=
  match order with
  | little => littleNumber bytes
  | big => littleNumber bytes.reverse

def bytes (order : ByteOrder) (width n : Nat) : List UInt8 :=
  match order with
  | little => littleBytes width n
  | big => (littleBytes width n).reverse

end ByteOrder

/-- So many bytes of a file from an offset on, if the file has them. -/
def Bytes.slice? (bytes : Bytes) (offset count : Nat) : Option (List UInt8) :=
  if offset + count ≤ bytes.size then some (bytes.extract offset (offset + count)).toList else none

/-- The first `n` groups of `width` items each. -/
def groups {α : Type} (width : Nat) : Nat → List α → List (List α)
  | 0, _ => []
  | n + 1, items => items.take width :: groups width n (items.drop width)

end SurfaceWater
