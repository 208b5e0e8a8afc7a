import SurfaceWater.Proofs.Text.Lines

/-!
# Spellings of lines

The same lines can be written with either line end, and with or without one after the last line. Reading gives
back the lines, except that a carriage return at the end of a line may be taken for a part of its line end.
-/

namespace SurfaceWater.Text

/-- A text is made of lines, each of which ends with a line feed, or with a carriage return and a line feed. The
last one may end with the text, if there is anything in it. -/
inductive Spells : List (List Char) → List Char → Prop where
  | nil : Spells [] []
  | last {line : List Char} (hfeed : '\n' ∉ line) (hline : line ≠ []) : Spells [line] line
  | feed {line rest : List Char} {lines : List (List Char)} (hfeed : '\n' ∉ line) (hrest : Spells lines rest) :
    Spells (line :: lines) (line ++ '\n' :: rest)
  | returnFeed {line rest : List Char} {lines : List (List Char)} (hfeed : '\n' ∉ line) (hrest : Spells lines rest) :
    Spells (line :: lines) (line ++ '\r' :: '\n' :: rest)

/-- Lines can be written with the same end after each. -/
theorem spells_flatMap {lineEnd : List Char} (hend : lineEnd = ['\n'] ∨ lineEnd = ['\r', '\n']) {lines : List (List Char)}
    (h : ∀ line ∈ lines, '\n' ∉ line) : Spells lines (lines.flatMap (· ++ lineEnd)) := by
  induction lines with
  | nil => exact .nil
  | cons line lines ih =>
    rw [List.forall_mem_cons] at h
    rw [List.flatMap_cons, List.append_assoc]
    rcases hend with rfl | rfl
    · exact .feed h.1 (ih h.2)
    · exact .returnFeed h.1 (ih h.2)

/-- A line that was read for a line that was written. -/
def SameButReturn (read line : List Char) : Prop := read = line ∨ read = withoutReturn line

theorem withoutReturn_concat (line : List Char) : withoutReturn (line ++ ['\r']) = line := by
  rw [withoutReturn, List.getLast?_concat, if_pos rfl, List.dropLast_concat]

/-- Either a line has no carriage return at its end, or it is another line with one. -/
theorem withoutReturn_cases (line : List Char) : withoutReturn line = line ∨ line = withoutReturn line ++ ['\r'] := by
  by_cases h : line.getLast? = some '\r'
  · obtain ⟨first, rfl⟩ := List.getLast?_eq_some_iff.mp h
    rw [withoutReturn_concat]
    exact .inr rfl
  · exact .inl (if_neg h)

/-! ### Bytes -/

theorem lines_of_not_mem {bytes : List UInt8} (hfeed : lineFeed ∉ bytes) (hbytes : bytes ≠ []) : lines bytes = [bytes] := by
  have hempty : bytes.isEmpty = false := by rwa [List.isEmpty_eq_false_iff]
  rw [lines, segments_of_not_mem hfeed]
  simp [hempty]

theorem lines_append (front rest : List UInt8) :
    lines (front ++ lineFeed :: rest) = (segments lineFeed front).map dropReturn ++ lines rest := by
  have hparts : segments lineFeed rest ≠ [] := segments_ne_nil lineFeed rest
  rw [lines, segments_append_cons, List.dropLast_append_of_ne_nil hparts, List.getLast?_append_of_ne_nil _ hparts,
    List.map_append, List.append_assoc]
  rfl

/-- Bytes that end with a line feed have lines of their own, whatever comes behind. -/
theorem lines_append_feed (front rest : List UInt8) :
    lines (front ++ lineFeed :: rest) = lines (front ++ [lineFeed]) ++ lines rest := by
  have hnone : lines [] = [] := rfl
  rw [lines_append, lines_append, hnone, List.append_nil]

theorem lines_append_cons {first : List UInt8} (hfeed : lineFeed ∉ first) (rest : List UInt8) :
    lines (first ++ lineFeed :: rest) = dropReturn first :: lines rest := by
  rw [lines_append, segments_of_not_mem hfeed]
  rfl

theorem lineFeed_not_mem_flatMap {line : List Char} (h : '\n' ∉ line) :
    lineFeed ∉ line.flatMap String.utf8EncodeChar := by
  intro hmem
  obtain ⟨c, hc, hbyte⟩ := List.mem_flatMap.mp hmem
  exact lineFeed_not_mem (fun heq => h (heq ▸ hc)) hbyte

/-- The first line of a text, read from its bytes. -/
theorem lines_encode_append {line : List Char} (hfeed : '\n' ∉ line) (rest : List Char) :
    lines (encode (String.ofList (line ++ '\n' :: rest))) =
      encode (String.ofList (withoutReturn line)) :: lines (encode (String.ofList rest)) := by
  have hbytes : String.utf8EncodeChar '\n' = [lineFeed] := by decide
  rw [encode_ofList, encode_ofList, encode_ofList, List.flatMap_append, List.flatMap_cons, hbytes, List.singleton_append,
    lines_append_cons (lineFeed_not_mem_flatMap hfeed), dropReturn_utf8]

theorem lines_encode_last {line : List Char} (hfeed : '\n' ∉ line) (hline : line ≠ []) :
    lines (encode (String.ofList line)) = [encode (String.ofList line)] := by
  rw [encode_ofList]
  apply lines_of_not_mem (lineFeed_not_mem_flatMap hfeed)
  intro hnil
  obtain ⟨c, rest, rfl⟩ := List.exists_cons_of_ne_nil hline
  rw [List.flatMap_cons, List.append_eq_nil_iff] at hnil
  exact String.utf8EncodeChar_ne_nil hnil.1

/-! ### Reading -/

/-- What is read are the lines, up to a carriage return. -/
theorem Spells.exists_lines {written : List (List Char)} {text : List Char} (h : Spells written text) :
    ∃ read, lines (encode (String.ofList text)) = read.map (fun line => encode (String.ofList line)) ∧
      List.Forall₂ SameButReturn read written := by
  induction h with
  | nil => exact ⟨[], rfl, .nil⟩
  | @last line hfeed hline => exact ⟨[line], lines_encode_last hfeed hline, .cons (.inl rfl) .nil⟩
  | @feed line rest lines hfeed _ ih =>
    obtain ⟨read, hread, hsame⟩ := ih
    refine ⟨withoutReturn line :: read, ?_, .cons (.inr rfl) hsame⟩
    rw [lines_encode_append hfeed, hread, List.map_cons]
  | @returnFeed line rest lines hfeed _ ih =>
    obtain ⟨read, hread, hsame⟩ := ih
    have hfeed' : '\n' ∉ line ++ ['\r'] := by simpa using hfeed
    refine ⟨line :: read, ?_, .cons (.inl rfl) hsame⟩
    rw [List.append_cons line, lines_encode_append hfeed', hread, List.map_cons, withoutReturn_concat]

/-- Every text spells the lines that are read from it. -/
theorem exists_spells (text : List Char) : ∃ written, Spells written text ∧
    lines (encode (String.ofList text)) = written.map fun line => encode (String.ofList line) := by
  induction hn : text.length using Nat.strongRecOn generalizing text with
  | ind n ih =>
    by_cases hfeed : '\n' ∈ text
    · obtain ⟨line, rest, rfl, hline⟩ := List.eq_append_cons_of_mem hfeed
      obtain ⟨written, hrest, hlines⟩ := ih rest.length (by simp at hn; omega) rest rfl
      refine ⟨withoutReturn line :: written, ?_, by rw [lines_encode_append hline, hlines, List.map_cons]⟩
      rcases withoutReturn_cases line with heq | heq
      · rw [heq]
        exact .feed hline hrest
      · have hwithout : '\n' ∉ withoutReturn line := fun hmem => hline (heq ▸ List.mem_append_left _ hmem)
        have hspells := Spells.returnFeed hwithout hrest
        rwa [List.append_cons, ← heq] at hspells
    · by_cases hnil : text = []
      · subst hnil
        exact ⟨[], .nil, rfl⟩
      · exact ⟨[text], .last hfeed hnil, lines_encode_last hfeed hnil⟩

end SurfaceWater.Text
