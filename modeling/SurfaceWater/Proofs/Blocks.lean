import Mathlib.Data.List.Basic
import SurfaceWater.Image.Bytes

/-!
# Lists in blocks

A list that is put together from blocks of one length, and one that is taken apart into such blocks.
-/

namespace SurfaceWater

variable {α β : Type}

theorem length_flatMap_block {n : Nat} {f : α → List β} {items : List α} (h : ∀ a ∈ items, (f a).length = n) :
    (items.flatMap f).length = items.length * n := by
  induction items with
  | nil => rw [List.flatMap_nil, List.length_nil, List.length_nil, Nat.zero_mul]
  | cons item items ih =>
    rw [List.forall_mem_cons] at h
    rw [List.flatMap_cons, List.length_append, h.1, ih h.2, List.length_cons, Nat.succ_mul, Nat.add_comm]

/-- An item of a list of blocks is found through the block that it is in. -/
theorem getElem?_flatMap_block {n : Nat} {f : α → List β} {items : List α} (h : ∀ a ∈ items, (f a).length = n)
    {i j : Nat} (hj : j < n) : (items.flatMap f)[i * n + j]? = items[i]?.bind fun a => (f a)[j]? := by
  induction items generalizing i with
  | nil => rw [List.flatMap_nil, List.getElem?_nil, List.getElem?_nil, Option.bind_none]
  | cons item items ih =>
    rw [List.forall_mem_cons] at h
    rw [List.flatMap_cons]
    cases i with
    | zero =>
      rw [Nat.zero_mul, Nat.zero_add, List.getElem?_append_left (by rw [h.1]; exact hj)]
      rfl
    | succ i =>
      rw [Nat.succ_mul, List.getElem?_append_right (by rw [h.1]; omega), h.1,
        show i * n + n + j - n = i * n + j by omega, ih h.2, List.getElem?_cons_succ]

/-- Blocks of one length are the groups of what they are put together to. -/
theorem groups_flatMap {n : Nat} {f : α → List β} {items : List α} (h : ∀ a ∈ items, (f a).length = n) :
    groups n items.length (items.flatMap f) = items.map f := by
  induction items with
  | nil => rfl
  | cons item items ih =>
    rw [List.forall_mem_cons] at h
    rw [List.length_cons, groups, List.flatMap_cons, List.take_left' h.1, List.drop_left' h.1, ih h.2, List.map_cons]

theorem drop_flatMap_block {n : Nat} {f : α → List β} {items : List α} (h : ∀ a ∈ items, (f a).length = n) (k : Nat) :
    (items.flatMap f).drop (k * n) = (items.drop k).flatMap f := by
  induction items generalizing k with
  | nil => rw [List.flatMap_nil, List.drop_nil, List.drop_nil, List.flatMap_nil]
  | cons item items ih =>
    rw [List.forall_mem_cons] at h
    cases k with
    | zero => rw [Nat.zero_mul, List.drop_zero, List.drop_zero]
    | succ k =>
      rw [List.flatMap_cons, Nat.succ_mul, Nat.add_comm, ← List.drop_drop, List.drop_left' h.1, ih h.2, List.drop_succ_cons]

theorem take_flatMap_block {n : Nat} {f : α → List β} {items : List α} (h : ∀ a ∈ items, (f a).length = n) (k : Nat) :
    (items.flatMap f).take (k * n) = (items.take k).flatMap f := by
  induction items generalizing k with
  | nil => rw [List.flatMap_nil, List.take_nil, List.take_nil, List.flatMap_nil]
  | cons item items ih =>
    rw [List.forall_mem_cons] at h
    cases k with
    | zero => rw [Nat.zero_mul, List.take_zero, List.take_zero, List.flatMap_nil]
    | succ k =>
      rw [List.flatMap_cons, Nat.succ_mul, Nat.add_comm, List.take_add, List.take_left' h.1, List.drop_left' h.1, ih h.2,
        List.take_succ_cons, List.flatMap_cons]

theorem length_groups (width n : Nat) (items : List α) : (groups width n items).length = n := by
  induction n generalizing items with
  | zero => rfl
  | succ n ih => rw [groups, List.length_cons, ih]

theorem getElem?_groups {width n k : Nat} (hk : k < n) (items : List α) :
    (groups width n items)[k]? = some ((items.drop (k * width)).take width) := by
  induction n generalizing items k with
  | zero => exact absurd hk (Nat.not_lt_zero k)
  | succ n ih =>
    rw [groups]
    cases k with
    | zero => rw [List.getElem?_cons_zero, Nat.zero_mul, List.drop_zero]
    | succ k => rw [List.getElem?_cons_succ, ih (Nat.lt_of_succ_lt_succ hk), List.drop_drop, Nat.succ_mul, Nat.add_comm]

/-- A list is put together from its stretches of one length. -/
theorem flatMap_stretches {width n : Nat} {items : List α} (h : items.length = n * width) :
    ((List.range n).flatMap fun i => (items.drop (i * width)).take width) = items := by
  induction n generalizing items with
  | zero =>
    rw [Nat.zero_mul] at h
    rw [List.eq_nil_of_length_eq_zero h]
    rfl
  | succ n ih =>
    rw [Nat.succ_mul] at h
    have hrest : (items.drop width).length = n * width := by
      rw [List.length_drop, h, Nat.add_sub_cancel]
    have hnext : (fun i => (items.drop (i * width)).take width) ∘ Nat.succ =
        fun i => ((items.drop width).drop (i * width)).take width := by
      funext i
      rw [Function.comp_apply, List.drop_drop, Nat.succ_mul, Nat.add_comm]
    rw [List.range_succ_eq_map, List.flatMap_cons, List.flatMap_map]
    show (items.drop (0 * width)).take width ++ (List.range n).flatMap
      ((fun i => (items.drop (i * width)).take width) ∘ Nat.succ) = items
    rw [hnext, ih hrest, Nat.zero_mul, List.drop_zero, List.take_append_drop]

theorem mapM_eq_some_map {f : α → Option β} {g : α → β} {items : List α} (h : ∀ a ∈ items, f a = some (g a)) :
    items.mapM f = some (items.map g) := by
  induction items with
  | nil => rfl
  | cons item items ih =>
    rw [List.forall_mem_cons] at h
    rw [List.mapM_cons, h.1, ih h.2, List.map_cons]
    rfl

end SurfaceWater
