import Mathlib.Data.List.TakeWhile
import SurfaceWater.Text.Blank

/-!
# Trimming

A text keeps the ends that have nothing to drop, and loses what is all to be dropped.
-/

namespace SurfaceWater.Text

variable {α : Type} {test : α → Bool}

theorem dropWhile_eq_self {items : List α} (h : ∀ a ∈ items.head?, test a = false) : items.dropWhile test = items := by
  cases items with
  | nil => rfl
  | cons first rest => rw [List.dropWhile_cons, h first rfl, if_neg Bool.false_ne_true]

theorem dropTrailing_append {items : List α} (hitems : ∀ a ∈ items.getLast?, test a = false) {dropped : List α}
    (hdropped : ∀ a ∈ dropped, test a = true) : dropTrailing test (items ++ dropped) = items := by
  rw [dropTrailing, List.reverse_append, List.dropWhile_append_of_pos (by simpa using hdropped),
    dropWhile_eq_self (by simpa using hitems), List.reverse_reverse]

theorem dropTrailing_eq_self {items : List α} (h : ∀ a ∈ items.getLast?, test a = false) :
    dropTrailing test items = items := by
  have hnone := dropTrailing_append h (fun a (ha : a ∈ ([] : List α)) => absurd ha List.not_mem_nil)
  rwa [List.append_nil] at hnone

theorem dropTrailing_concat (items : List α) {last : α} (hlast : test last = true) :
    dropTrailing test (items ++ [last]) = dropTrailing test items := by
  rw [dropTrailing, List.reverse_concat, List.dropWhile_cons, if_pos hlast]
  rfl

/-- What is dropped satisfies the test, and what is kept does not end so. -/
theorem exists_dropTrailing (test : α → Bool) (items : List α) : ∃ dropped, items = dropTrailing test items ++ dropped ∧
    (∀ a ∈ dropped, test a = true) ∧ ∀ a ∈ (dropTrailing test items).getLast?, test a = false := by
  refine ⟨(items.reverse.takeWhile test).reverse, ?_, fun a ha => ?_, fun a ha => ?_⟩
  · rw [dropTrailing, ← List.reverse_append, List.takeWhile_append_dropWhile, List.reverse_reverse]
  · exact List.mem_takeWhile_imp (List.mem_reverse.mp ha)
  · rw [dropTrailing, List.getLast?_reverse] at ha
    have hhead := List.head?_dropWhile_not test items.reverse
    rw [Option.mem_def.mp ha] at hhead
    simpa using hhead

/-- A blank at the end of a text is trimmed with the others. -/
theorem trim_concat (text : List Char) {blank : Char} (hblank : isBlank blank = true) :
    trim (text ++ [blank]) = trim text := by
  rw [trim, trim, List.dropWhile_append]
  split
  · rename_i hall
    rw [List.isEmpty_iff.mp hall, List.dropWhile_cons, if_pos hblank, List.dropWhile_nil]
  · exact dropTrailing_concat _ hblank

theorem trim_eq_self {text : List Char} (hhead : ∀ c ∈ text.head?, isBlank c = false)
    (hlast : ∀ c ∈ text.getLast?, isBlank c = false) : trim text = text := by
  rw [trim, trimEnd, dropWhile_eq_self hhead, dropTrailing_eq_self hlast]

end SurfaceWater.Text
