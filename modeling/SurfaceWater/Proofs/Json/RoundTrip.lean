import Mathlib.Data.List.DropRight
import SurfaceWater.Proofs.Json.Numerals
import SurfaceWater.Proofs.Json.Strings

/-!
# A JSON text and its value

A written value reads back, in both layouts. A text denotes a value if the value is read wherever the text
stands: after any blanks, before anything that does not continue a numeral, and with enough tokens allowed, of
which there are at most two for each character. Numerals, strings and words denote what they are written for,
and what the items of an array or the members of an object denote carries over to the whole.
-/

namespace SurfaceWater.Json

variable {layout : JsonLayout} {depth fuel : Nat} {text blanks rest : List Char}

/-! ### Blanks -/

theorem skipSpace_append (hblanks : ∀ c ∈ blanks, isSpace c = true) : skipSpace (blanks ++ text) = skipSpace text :=
  List.dropWhile_append_of_pos hblanks

theorem skipSpace_cons {c : Char} (hc : isSpace c = false) : skipSpace (c :: text) = c :: text :=
  List.dropWhile_cons_of_neg (by rw [hc]; exact Bool.false_ne_true)

theorem isSpace_of_mem_lineBreak (layout : JsonLayout) (depth : Nat) :
    ∀ c ∈ layout.lineBreak depth, isSpace c = true := by
  intro c hc
  cases layout with
  | compact => cases hc
  | indented =>
    rcases List.mem_cons.mp hc with rfl | hc
    · rfl
    · rw [List.eq_of_mem_replicate hc]
      rfl

theorem colon_eq (layout : JsonLayout) : ∃ blanks, layout.colon = ':' :: blanks ∧ ∀ c ∈ blanks, isSpace c = true := by
  cases layout with
  | compact => exact ⟨[], rfl, List.forall_mem_nil _⟩
  | indented => exact ⟨[' '], rfl, List.forall_mem_singleton.mpr rfl⟩

/-- A numeral ends before a blank, and before any other character that does not continue it. -/
theorem ends_append_cons {c : Char} (hblanks : ∀ b ∈ blanks, isSpace b = true)
    (hc : c.isDigit = false ∧ c ≠ '.' ∧ c ≠ 'e' ∧ c ≠ 'E') (rest : List Char) : Ends (blanks ++ c :: rest) := by
  cases blanks with
  | nil =>
    rintro b ⟨⟩
    exact hc
  | cons b blanks =>
    have hb : isSpace b = true := hblanks b List.mem_cons_self
    simp only [isSpace, Bool.or_eq_true, decide_eq_true_eq] at hb
    rintro d ⟨⟩
    rcases hb with ((rfl | rfl) | rfl) | rfl
    all_goals decide

/-- Blanks before a value are passed over. -/
theorem value?_skipSpace (fuel : Nat) (text : List Char) : value? fuel (skipSpace text) = value? fuel text := by
  have htwice : skipSpace (skipSpace text) = skipSpace text := List.dropWhile_idempotent isSpace text
  cases fuel with
  | zero => rw [value?, value?]
  | succ fuel => rw [value?, value?, htwice]

theorem value?_blanks (hblanks : ∀ c ∈ blanks, isSpace c = true) : value? fuel (blanks ++ text) = value? fuel text := by
  rw [← value?_skipSpace, skipSpace_append hblanks, value?_skipSpace]

/-! ### What a text denotes -/

/-- A text that is read as a value wherever it stands. -/
structure Denotes (text : List Char) (value : Json) : Prop where
  begins : ∃ c tail, text = c :: tail ∧ isSpace c = false ∧ c ≠ ']'
  reads : ∀ {fuel rest}, 2 * text.length < fuel → Ends rest → value? fuel (text ++ rest) = some (value, rest)

/-- A token that is recognised by its first character denotes a value if it is read as such. -/
theorem Denotes.of_token {c : Char} {tail : List Char} {value : Json} (hspace : isSpace c = false) (hclose : c ≠ ']')
    (hreads : ∀ fuel rest, Ends rest → value? (fuel + 1) (c :: (tail ++ rest)) = some (value, rest)) :
    Denotes (c :: tail) value where
  begins := ⟨c, tail, rfl, hspace, hclose⟩
  reads := by
    intro fuel rest hfuel hrest
    obtain ⟨fuel, rfl⟩ : ∃ n, fuel = n + 1 := ⟨fuel - 1, by omega⟩
    exact hreads fuel rest hrest

theorem word?_append (word : List Char) (value : Json) : word? word value (word ++ rest) = some (value, rest) := by
  rw [word?, if_pos (List.isPrefixOf_iff_prefix.mpr (List.prefix_append word rest)), List.drop_left]

/-- A text denotes the value that it is the word for. -/
theorem denotes_word {c : Char} {tail : List Char} {value : Json} (hspace : isSpace c = false) (hclose : c ≠ ']')
    (hreads : ∀ fuel rest, value? (fuel + 1) (c :: (tail ++ rest)) = word? (c :: tail) value (c :: (tail ++ rest))) :
    Denotes (c :: tail) value :=
  .of_token hspace hclose fun fuel rest _ => (hreads fuel rest).trans (word?_append (c :: tail) value)

theorem denotes_null : Denotes (null.write layout depth) null := by
  rw [write]
  refine denotes_word rfl (by decide) fun fuel rest => ?_
  rw [value?, skipSpace_cons rfl]
  rfl

theorem denotes_bool (value : Bool) : Denotes ((bool value).write layout depth) (bool value) := by
  cases value with
  | true =>
    rw [write]
    refine denotes_word rfl (by decide) fun fuel rest => ?_
    rw [value?, skipSpace_cons rfl]
    rfl
  | false =>
    rw [write]
    refine denotes_word rfl (by decide) fun fuel rest => ?_
    rw [value?, skipSpace_cons rfl]
    rfl

theorem denotes_string (chars : List Char) :
    Denotes (writeString (chars.map JsonChar.char)) (string (chars.map JsonChar.char)) := by
  have hreads (rest : List Char) := string?_writeString chars rest
  rw [writeString] at hreads ⊢
  refine .of_token rfl (by decide) fun fuel rest _ => ?_
  rw [value?, skipSpace_cons rfl]
  exact congrArg (Option.map _) (hreads rest)

/-- A numeral is told from everything else by its first character, a digit or a sign. -/
theorem denotes_number {literal : List Char} (h : IsNumeral literal) : Denotes literal (number literal) := by
  obtain ⟨c, tail, rfl, hc⟩ := h.begins
  have hne {other : Char} (hother : other.isDigit = false) (hminus : other ≠ '-') : c ≠ other := by
    rintro rfl
    rcases hc with hc | hc
    · exact Bool.false_ne_true (hother.symm.trans hc)
    · exact hminus hc
  have hspace : isSpace c = false := by
    simp only [isSpace, Bool.or_eq_false_iff, decide_eq_false_iff_not]
    exact ⟨⟨⟨hne rfl (by decide), hne rfl (by decide)⟩, hne rfl (by decide)⟩, hne rfl (by decide)⟩
  refine .of_token hspace (hne rfl (by decide)) fun fuel rest hrest => ?_
  rw [value?, skipSpace_cons hspace]
  split
  case h_7 => exact congrArg (Option.map _) (h.reads rest hrest)
  all_goals
    rename_i heq
    exact absurd (List.cons.inj heq).1 (hne rfl (by decide))

/-! ### Arrays -/

theorem ends_comma (rest : List Char) : Ends (',' :: rest) :=
  ends_append_cons (List.forall_mem_nil _) (by decide) rest

/-- The items of an array from the blanks before the first one to the bracket that closes them. -/
theorem items?_write {before after : List Char} (rest : List Char) {item : Json} {items : List Json}
    (hitems : ∀ other ∈ item :: items, Denotes (other.write layout depth) other)
    (hbefore : ∀ c ∈ before, isSpace c = true) (hafter : ∀ c ∈ after, isSpace c = true)
    (hfuel : 2 * (before ++ (item.write layout depth ++ (writeItems layout depth items ++ after))).length + 3 < fuel) :
    items? fuel (before ++ (item.write layout depth ++ (writeItems layout depth items ++ (after ++ ']' :: rest)))) =
      some (item :: items, rest) := by
  induction items generalizing item before fuel with
  | nil =>
    rw [writeItems, List.nil_append] at hfuel ⊢
    simp only [List.length_append] at hfuel
    obtain ⟨fuel, rfl⟩ : ∃ n, fuel = n + 1 := ⟨fuel - 1, by omega⟩
    have hitem := (hitems item List.mem_cons_self).reads (show 2 * (item.write layout depth).length < fuel by omega)
      (ends_append_cons (c := ']') hafter (by decide) rest)
    rw [items?, value?_blanks hbefore, hitem]
    simp only [Option.bind_eq_bind, Option.bind_some, skipSpace_append hafter, skipSpace_cons (c := ']') rfl]
  | cons next items ih =>
    rw [writeItems] at hfuel ⊢
    simp only [List.cons_append, List.append_assoc, List.length_append, List.length_cons] at hfuel ⊢
    obtain ⟨fuel, rfl⟩ : ∃ n, fuel = n + 1 := ⟨fuel - 1, by omega⟩
    have hitem (tail : List Char) := (hitems item List.mem_cons_self).reads
      (show 2 * (item.write layout depth).length < fuel by omega) (ends_comma tail)
    have htail := ih (fun other hother => hitems other (List.mem_cons_of_mem _ hother))
      (isSpace_of_mem_lineBreak layout depth) (show _ < fuel by simp only [List.length_append]; omega)
    rw [items?, value?_blanks hbefore, hitem]
    simp only [Option.bind_eq_bind, Option.bind_some, skipSpace_cons (c := ',') rfl, htail]

theorem denotes_array {items : List Json} (hitems : ∀ item ∈ items, Denotes (item.write layout (depth + 1)) item) :
    Denotes ((array items).write layout depth) (array items) := by
  cases items with
  | nil =>
    rw [write]
    refine .of_token rfl (by decide) fun fuel rest _ => ?_
    rw [value?, skipSpace_cons rfl]
    simp only [List.cons_append, List.nil_append, skipSpace_cons (c := ']') rfl]
  | cons item items =>
    rw [write]
    simp only [List.cons_append, List.append_assoc]
    refine ⟨⟨'[', _, rfl, rfl, by decide⟩, fun {fuel rest} hfuel _ => ?_⟩
    obtain ⟨fuel, rfl⟩ : ∃ n, fuel = n + 1 := ⟨fuel - 1, by omega⟩
    obtain ⟨c, tail, hc, hspace, hclose⟩ := (hitems item List.mem_cons_self).begins
    simp only [List.length_cons, List.length_append, List.length_nil] at hfuel
    have hread := items?_write rest hitems (List.forall_mem_nil _) (isSpace_of_mem_lineBreak layout depth)
      (show _ < fuel by simp only [List.length_append, List.length_nil]; omega)
    rw [List.nil_append, hc, List.cons_append] at hread
    rw [value?, List.cons_append, skipSpace_cons rfl]
    simp only [List.append_assoc, skipSpace_append (isSpace_of_mem_lineBreak layout (depth + 1)), hc, List.cons_append,
      skipSpace_cons hspace, List.nil_append]
    split
    case h_1 heq => exact absurd (List.cons.inj heq).1 hclose
    case h_2 => exact congrArg (Option.map _) hread

/-! ### Objects -/

/-- A key without surrogate halves and a value whose text denotes it. -/
def DenotesMember (layout : JsonLayout) (depth : Nat) (member : List JsonChar × Json) : Prop :=
  (∃ key : List Char, member.1 = key.map JsonChar.char) ∧ Denotes (member.2.write layout depth) member.2

/-- A key is read after any blanks. -/
theorem string?_skipSpace (hblanks : ∀ c ∈ blanks, isSpace c = true) (key rest : List Char) :
    string? (skipSpace (blanks ++ (writeString (key.map JsonChar.char) ++ rest))) =
      some (key.map JsonChar.char, rest) := by
  have hread := string?_writeString key rest
  rw [skipSpace_append hblanks]
  rw [writeString, List.cons_append, List.cons_append] at hread ⊢
  rw [skipSpace_cons rfl, hread]

/-- The members of an object from the blanks before the first one to the brace that closes them. -/
theorem members?_write {before after : List Char} (rest : List Char) {member : List JsonChar × Json}
    {members : List (List JsonChar × Json)} (hmembers : ∀ other ∈ member :: members, DenotesMember layout depth other)
    (hbefore : ∀ c ∈ before, isSpace c = true) (hafter : ∀ c ∈ after, isSpace c = true)
    (hfuel : 2 * (before ++ (writeString member.1 ++ (layout.colon ++ (member.2.write layout depth ++
      (writeMembers layout depth members ++ after))))).length + 3 < fuel) :
    members? fuel (before ++ (writeString member.1 ++ (layout.colon ++ (member.2.write layout depth ++
      (writeMembers layout depth members ++ (after ++ '\x7d' :: rest)))))) = some (member :: members, rest) := by
  obtain ⟨gap, hcolon, hgap⟩ := colon_eq layout
  induction members generalizing member before fuel with
  | nil =>
    obtain ⟨⟨key, hkey⟩, hvalue⟩ := hmembers member List.mem_cons_self
    rw [writeMembers, List.nil_append] at hfuel ⊢
    simp only [List.length_append] at hfuel
    obtain ⟨fuel, rfl⟩ : ∃ n, fuel = n + 1 := ⟨fuel - 1, by omega⟩
    have hread := hvalue.reads (show 2 * (member.2.write layout depth).length < fuel by omega)
      (ends_append_cons (c := '\x7d') hafter (by decide) rest)
    rw [members?, hkey, string?_skipSpace hbefore, hcolon]
    simp only [Option.bind_eq_bind, Option.bind_some, List.cons_append, skipSpace_cons (c := ':') rfl,
      value?_blanks hgap, hread, skipSpace_append hafter, skipSpace_cons (c := '\x7d') rfl, ← hkey]
  | cons next members ih =>
    obtain ⟨⟨key, hkey⟩, hvalue⟩ := hmembers member List.mem_cons_self
    rw [writeMembers] at hfuel ⊢
    simp only [List.cons_append, List.append_assoc, List.length_append, List.length_cons] at hfuel ⊢
    obtain ⟨fuel, rfl⟩ : ∃ n, fuel = n + 1 := ⟨fuel - 1, by omega⟩
    have hread (tail : List Char) :=
      hvalue.reads (show 2 * (member.2.write layout depth).length < fuel by omega) (ends_comma tail)
    have htail := ih (fun other hother => hmembers other (List.mem_cons_of_mem _ hother))
      (isSpace_of_mem_lineBreak layout depth) (show _ < fuel by simp only [List.length_append]; omega)
    rw [members?, hkey, string?_skipSpace hbefore]
    rw [hcolon] at htail ⊢
    simp only [List.cons_append] at htail ⊢
    simp only [Option.bind_eq_bind, Option.bind_some, skipSpace_cons (c := ':') rfl,
      value?_blanks hgap, hread, skipSpace_cons (c := ',') rfl, htail, ← hkey]

theorem denotes_object {members : List (List JsonChar × Json)}
    (hmembers : ∀ member ∈ members, DenotesMember layout (depth + 1) member) :
    Denotes ((object members).write layout depth) (object members) := by
  cases members with
  | nil =>
    rw [write]
    refine .of_token rfl (by decide) fun fuel rest _ => ?_
    rw [value?, skipSpace_cons rfl]
    simp only [List.cons_append, List.nil_append, skipSpace_cons (c := '\x7d') rfl]
  | cons member members =>
    obtain ⟨key, value⟩ := member
    rw [write]
    simp only [List.cons_append, List.append_assoc]
    refine ⟨⟨'\x7b', _, rfl, rfl, by decide⟩, fun {fuel rest} hfuel _ => ?_⟩
    obtain ⟨fuel, rfl⟩ : ∃ n, fuel = n + 1 := ⟨fuel - 1, by omega⟩
    simp only [List.length_cons, List.length_append, List.length_nil] at hfuel
    have hread := members?_write rest hmembers (List.forall_mem_nil _) (isSpace_of_mem_lineBreak layout depth)
      (show _ < fuel by simp only [List.length_append, List.length_nil]; omega)
    rw [List.nil_append, writeString, List.cons_append, List.cons_append] at hread
    rw [value?, List.cons_append, skipSpace_cons rfl, writeString]
    simp only [List.append_assoc, skipSpace_append (isSpace_of_mem_lineBreak layout (depth + 1)), List.cons_append,
      skipSpace_cons (c := '"') rfl, List.nil_append] at hread ⊢
    exact congrArg (Option.map _) hread

/-! ### Whole texts -/

/-- A value that its text stands for: its numbers are numerals, and its keys and strings are characters throughout. -/
inductive Writable : Json → Prop where
  | null : Writable null
  | bool (value : Bool) : Writable (bool value)
  | number {literal : List Char} (h : IsNumeral literal) : Writable (number literal)
  | string (chars : List Char) : Writable (string (chars.map JsonChar.char))
  | array {items : List Json} (hitems : ∀ item ∈ items, Writable item) : Writable (array items)
  | object {members : List (List JsonChar × Json)}
      (hkeys : ∀ member ∈ members, ∃ key : List Char, member.1 = key.map JsonChar.char)
      (hvalues : ∀ member ∈ members, Writable member.2) : Writable (object members)

theorem Writable.denotes {value : Json} (h : value.Writable) (layout : JsonLayout) (depth : Nat) :
    Denotes (value.write layout depth) value := by
  induction h generalizing depth with
  | null => exact denotes_null
  | bool value => exact denotes_bool value
  | number hnumeral => rw [write]; exact denotes_number hnumeral
  | string chars => rw [write]; exact denotes_string chars
  | array _ ih => exact denotes_array fun item hitem => ih item hitem (depth + 1)
  | object hkeys _ ih => exact denotes_object fun member hmember => ⟨hkeys member hmember, ih member hmember (depth + 1)⟩

/-- A value reads back from its text. -/
theorem Writable.parse?_render {value : Json} (h : value.Writable) (layout : JsonLayout) :
    parse? (value.render layout).toList = some value := by
  have hread : value? (2 * (value.write layout 0).length + 2) (value.write layout 0 ++ []) = some (value, []) :=
    (h.denotes layout 0).reads (by omega) fun _ hc => nomatch hc
  rw [List.append_nil] at hread
  rw [render, String.toList_ofList, parse?, hread]
  rfl

end SurfaceWater.Json
