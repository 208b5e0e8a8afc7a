import SurfaceWater.Image.Directory
import SurfaceWater.Proofs.Blocks

/-!
# Parts of a file

A file is put together from parts, and whoever reads it cuts parts out of it. `Carries` is what the two
have in common: the bytes have a part at an offset. The parts of a part are found by adding offsets.
-/

namespace SurfaceWater

/-- The bytes have a part at an offset. -/
def Carries (bytes : List UInt8) (offset : Nat) (part : List UInt8) : Prop :=
  ∃ before after, bytes = before ++ part ++ after ∧ before.length = offset

variable {bytes part first second : List UInt8} {offset : Nat}

theorem carries_refl (bytes : List UInt8) : Carries bytes 0 bytes := ⟨[], [], by simp, rfl⟩

theorem Carries.le (h : Carries bytes offset part) : offset + part.length ≤ bytes.length := by
  obtain ⟨before, after, rfl, rfl⟩ := h
  simp only [List.length_append]
  omega

theorem Carries.trans {inner : Nat} (h : Carries bytes offset part) (hpart : Carries part inner first) :
    Carries bytes (offset + inner) first := by
  obtain ⟨before, after, rfl, rfl⟩ := h
  obtain ⟨before', after', rfl, rfl⟩ := hpart
  exact ⟨before ++ before', after' ++ after, by simp, List.length_append⟩

theorem Carries.left (h : Carries bytes offset (first ++ second)) : Carries bytes offset first :=
  h.trans ⟨[], second, rfl, rfl⟩

theorem Carries.right (h : Carries bytes offset (first ++ second)) : Carries bytes (offset + first.length) second :=
  h.trans ⟨first, [], by simp, rfl⟩

/-- A stretch of a part. -/
theorem Carries.stretch (h : Carries bytes offset part) {start count : Nat} (hend : start + count ≤ part.length) :
    Carries bytes (offset + start) ((part.drop start).take count) := by
  refine h.trans ⟨part.take start, part.drop (start + count), ?_, ?_⟩
  · rw [List.append_assoc, ← List.drop_drop, List.take_append_drop, List.take_append_drop]
  · rw [List.length_take]
    omega

/-- A part of a list of parts is found behind those before it. -/
theorem carries_flatten {parts : List (List UInt8)} {k : Nat} (hk : parts[k]? = some part) :
    Carries parts.flatten (parts.take k).flatten.length part := by
  obtain ⟨hlt, rfl⟩ := List.getElem?_eq_some_iff.mp hk
  refine ⟨(parts.take k).flatten, (parts.drop (k + 1)).flatten, ?_, rfl⟩
  have hsplit : parts = parts.take k ++ [parts[k]] ++ parts.drop (k + 1) := by
    rw [List.append_assoc, List.singleton_append, List.getElem_cons_drop, List.take_append_drop]
  calc parts.flatten = (parts.take k ++ [parts[k]] ++ parts.drop (k + 1)).flatten := congrArg List.flatten hsplit
    _ = (parts.take k).flatten ++ parts[k] ++ (parts.drop (k + 1)).flatten := by
      rw [List.flatten_append, List.flatten_append, List.flatten_singleton]

/-! ### Reading -/

theorem Carries.slice? (h : Carries bytes offset part) : Bytes.slice? bytes.toArray offset part.length = some part := by
  obtain ⟨before, after, rfl, rfl⟩ := h
  rw [Bytes.slice?, if_pos (by simp)]
  simp

/-- A part of rows of one length is read row by row. -/
theorem Carries.slice?_row {n width row : Nat} (h : Carries bytes offset part) (hlength : part.length = n * width)
    (hrow : row < n) :
    Bytes.slice? bytes.toArray (offset + row * width) width = some ((part.drop (row * width)).take width) := by
  have hend : row * width + width ≤ part.length := by
    rw [hlength, ← Nat.succ_mul]
    exact Nat.mul_le_mul_right _ hrow
  have hslice := (h.stretch hend).slice?
  rwa [List.length_take, List.length_drop, Nat.min_eq_left (by omega)] at hslice

theorem Carries.number {width n : Nat} (h : Carries bytes offset (ByteOrder.littleBytes width n))
    (hn : n < 256 ^ width) : ImageDirectory.numberAt? .little bytes.toArray offset width = some n := by
  have hslice := h.slice?
  rw [ByteOrder.length_littleBytes] at hslice
  rw [ImageDirectory.numberAt?, hslice, Option.map_some, ByteOrder.number, ByteOrder.littleNumber_littleBytes hn]

end SurfaceWater
