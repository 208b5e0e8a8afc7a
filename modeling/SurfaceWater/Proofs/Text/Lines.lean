import Mathlib.Data.List.Basic
import SurfaceWater.Proofs.Text.Encoding

/-!
# The lines of a text

Cutting the bytes of a text into lines gives the bytes of the lines of the text, because no other
character has the byte of a line feed or of a carriage return in it.
-/

namespace SurfaceWater.Text

/-! ### Parts between separators -/

section

variable {α : Type} [DecidableEq α] {separator : α}

theorem segments_ne_nil (separator : α) (items : List α) : segments separator items ≠ [] := by
  cases items with
  | nil => exact List.cons_ne_nil _ _
  | cons item rest =>
    rw [segments]
    split
    · exact List.cons_ne_nil _ _
    · split <;> exact List.cons_ne_nil _ _

theorem segments_cons_self (separator : α) (rest : List α) :
    segments separator (separator :: rest) = [] :: segments separator rest := by
  rw [segments, if_pos rfl]

theorem segments_cons_of_ne {item : α} (h : item ≠ separator) (rest : List α) :
    segments separator (item :: rest) = (segments separator rest).modifyHead (item :: ·) := by
  rw [segments, if_neg h]
  split
  case h_1 hnil => exact absurd hnil (segments_ne_nil separator rest)
  case h_2 hparts => rw [hparts, List.modifyHead_cons]

theorem segments_append_of_not_mem {first : List α} (h : separator ∉ first) (rest : List α) :
    segments separator (first ++ rest) = (segments separator rest).modifyHead (first ++ ·) := by
  induction first with
  | nil => exact List.modifyHead_id.symm ▸ rfl
  | cons item first ih =>
    rw [List.mem_cons, not_or] at h
    rw [List.cons_append, segments_cons_of_ne (Ne.symm h.1), ih h.2, List.modifyHead_modifyHead]
    rfl

theorem segments_of_not_mem {items : List α} (h : separator ∉ items) : segments separator items = [items] := by
  have hparts := segments_append_of_not_mem h []
  rwa [List.append_nil, segments, List.modifyHead_cons, List.append_nil] at hparts

theorem segments_append_cons (first rest : List α) :
    segments separator (first ++ separator :: rest) = segments separator first ++ segments separator rest := by
  induction first with
  | nil => exact segments_cons_self separator rest
  | cons item first ih =>
    by_cases h : item = separator
    · subst h
      rw [List.cons_append, segments_cons_self, segments_cons_self, ih]
      rfl
    · rw [List.cons_append, segments_cons_of_ne h, segments_cons_of_ne h, ih]
      cases hparts : segments separator first with
      | nil => exact absurd hparts (segments_ne_nil separator first)
      | cons part parts => rfl

theorem isPrefix_of_head?_segments {items part : List α} (h : (segments separator items).head? = some part) :
    part <+: items := by
  induction items generalizing part with
  | nil =>
    obtain rfl := Option.some.inj h
    exact List.nil_prefix
  | cons item rest ih =>
    by_cases hitem : item = separator
    · subst hitem
      rw [segments_cons_self] at h
      obtain rfl := Option.some.inj h
      exact List.nil_prefix
    · rw [segments_cons_of_ne hitem, List.head?_modifyHead, Option.map_eq_some_iff] at h
      obtain ⟨first, hfirst, rfl⟩ := h
      exact (List.prefix_cons_inj item).mpr (ih hfirst)

/-- A part is cut out of the list. -/
theorem isInfix_of_mem_segments {items part : List α} (h : part ∈ segments separator items) : part <:+: items := by
  induction items generalizing part with
  | nil =>
    obtain rfl := List.mem_singleton.mp h
    exact List.infix_refl _
  | cons item rest ih =>
    by_cases hitem : item = separator
    · subst hitem
      rw [segments_cons_self, List.mem_cons] at h
      rcases h with rfl | h
      · exact List.nil_infix
      · exact List.infix_cons (ih h)
    · rw [segments_cons_of_ne hitem] at h
      cases hparts : segments separator rest with
      | nil => exact absurd hparts (segments_ne_nil separator rest)
      | cons first parts =>
        rw [hparts, List.modifyHead_cons, List.mem_cons] at h
        rcases h with rfl | h
        · have hfirst : first <+: rest := isPrefix_of_head?_segments (by rw [hparts, List.head?_cons])
          exact ((List.prefix_cons_inj item).mpr hfirst).isInfix
        · exact List.infix_cons (ih (hparts ▸ List.mem_cons_of_mem _ h))

end

/-! ### Lines -/

/-- A line of a text without the carriage return at its end. -/
def withoutReturn (line : List Char) : List Char :=
  if line.getLast? = some '\r' then line.dropLast else line

/-- The lines of a text with a line feed after it. -/
def splitLines (text : List Char) : List (List Char) := (segments '\n' text).map withoutReturn

theorem isInfix_of_mem_splitLines {text line : List Char} (h : line ∈ splitLines text) : line <:+: text := by
  obtain ⟨part, hpart, rfl⟩ := List.mem_map.mp h
  have hpart := isInfix_of_mem_segments hpart
  unfold withoutReturn
  split
  · exact (List.dropLast_prefix part).isInfix.trans hpart
  · exact hpart

/-- A text is a line of its own when it has no line feed, and no carriage return at its end. -/
theorem splitLines_eq {text : List Char} (hfeed : '\n' ∉ text) (hreturn : text.getLast? ≠ some '\r') :
    splitLines text = [text] := by
  rw [splitLines, segments_of_not_mem hfeed, List.map_singleton, withoutReturn, if_neg hreturn]

theorem lineFeed_not_mem {c : Char} (hc : c ≠ '\n') : lineFeed ∉ String.utf8EncodeChar c := fun hmem =>
  hc (Char.toNat_inj.mp (toNat_eq_of_mem_utf8EncodeChar hmem (by decide)))

theorem carriageReturn_not_mem {c : Char} (hc : c ≠ '\r') : carriageReturn ∉ String.utf8EncodeChar c := fun hmem =>
  hc (Char.toNat_inj.mp (toNat_eq_of_mem_utf8EncodeChar hmem (by decide)))

theorem segments_utf8 (text : List Char) :
    segments lineFeed (text.flatMap String.utf8EncodeChar) =
      (segments '\n' text).map fun line => line.flatMap String.utf8EncodeChar := by
  induction text with
  | nil => rfl
  | cons c rest ih =>
    by_cases hc : c = '\n'
    · subst hc
      have hfeed : String.utf8EncodeChar '\n' = [lineFeed] := by decide
      rw [List.flatMap_cons, hfeed, List.singleton_append, segments_cons_self, segments_cons_self, ih]
      rfl
    · rw [List.flatMap_cons, segments_append_of_not_mem (lineFeed_not_mem hc), segments_cons_of_ne hc, ih]
      cases hparts : segments '\n' rest with
      | nil => exact absurd hparts (segments_ne_nil '\n' rest)
      | cons part parts => rfl

theorem dropReturn_utf8 (line : List Char) :
    dropReturn (line.flatMap String.utf8EncodeChar) = (withoutReturn line).flatMap String.utf8EncodeChar := by
  rcases List.eq_nil_or_concat line with rfl | ⟨first, c, rfl⟩
  · rfl
  rw [List.concat_eq_append, withoutReturn, List.getLast?_concat, List.flatMap_append, List.flatMap_singleton, dropReturn]
  by_cases hc : c = '\r'
  · subst hc
    have hreturn : String.utf8EncodeChar '\r' = [carriageReturn] := by decide
    rw [hreturn, List.getLast?_concat, if_pos rfl, if_pos rfl, List.dropLast_concat, List.dropLast_concat]
  · have hlast : ¬ (first.flatMap String.utf8EncodeChar ++ String.utf8EncodeChar c).getLast? = some carriageReturn := by
      rw [List.getLast?_append_of_ne_nil _ String.utf8EncodeChar_ne_nil]
      exact fun heq => carriageReturn_not_mem hc (List.mem_of_getLast? heq)
    rw [if_neg hlast, if_neg fun heq => hc (Option.some.inj heq), List.flatMap_append, List.flatMap_singleton]

theorem segments_join (texts : List String) :
    segments '\n' (String.join (texts.map fun text => text ++ "\n")).toList =
      (texts.flatMap fun text => segments '\n' text.toList) ++ [[]] := by
  induction texts with
  | nil => rfl
  | cons text texts ih =>
    have hfeed : "\n".toList = ['\n'] := rfl
    rw [List.map_cons, String.join_cons, String.toList_append, String.toList_append, hfeed, List.append_assoc,
      List.singleton_append, segments_append_cons, ih, List.flatMap_cons, List.append_assoc]

/-- The lines of a sequence of texts, each with a line feed after it. -/
theorem lines_encode (texts : List String) :
    lines (encode (String.join (texts.map fun text => text ++ "\n"))) =
      (texts.flatMap fun text => splitLines text.toList).map fun line => encode (String.ofList line) := by
  have hparts : segments lineFeed (encode (String.join (texts.map fun text => text ++ "\n"))) =
      ((texts.flatMap fun text => segments '\n' text.toList).map fun line => line.flatMap String.utf8EncodeChar) ++ [[]] := by
    rw [encode_eq, segments_utf8, segments_join, List.map_append]
    rfl
  have hlines (line : List Char) :
      dropReturn (line.flatMap String.utf8EncodeChar) = encode (String.ofList (withoutReturn line)) := by
    rw [dropReturn_utf8, encode_ofList]
  rw [lines, hparts]
  simp only [List.dropLast_concat, List.getLast?_concat, Option.toList_some, List.filter_cons, List.isEmpty_nil,
    Bool.not_true, Bool.false_eq_true, if_false, List.filter_nil, List.append_nil, List.map_map, Function.comp_def, hlines,
    splitLines, List.map_flatMap]

end SurfaceWater.Text
