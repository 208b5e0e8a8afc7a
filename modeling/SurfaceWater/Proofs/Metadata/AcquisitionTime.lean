import SurfaceWater.Proofs.Metadata.FieldLines
import SurfaceWater.Proofs.Metadata.Layout

/-!
# The stored time

A time is stored as its line gives it, cleaned once, but it is accepted if it can be read, and reading cleans it
again. Cleaning drops blanks, then semicolons, then blanks: what is left may end in a semicolon that had a blank
behind it, which only the second cleaning drops. So the stored time is in the fixed layout unless there is a blank
between two semicolons.
-/

namespace SurfaceWater

/-- A sublist that begins with an item lies behind what is without the item. -/
theorem sublist_of_not_mem {α : Type} {a : α} {items first rest : List α} (h : a ∉ first)
    (hsub : (a :: items).Sublist (first ++ rest)) : (a :: items).Sublist rest := by
  induction first with
  | nil => exact hsub
  | cons b first ih =>
    rw [List.mem_cons, not_or] at h
    exact ih h.2 (hsub.of_cons_of_ne h.1)

namespace Instant

open Text (isBlank dropTrailing exists_dropTrailing)

/-- A text in the fixed layout, with nothing around it that cleaning would drop. -/
structure IsNormal (text : List Char) : Prop where
  layout : ∃ instant, ofLayout text = .ok instant
  length_eq : text.length = 27
  ascii : ∀ c ∈ text, c.toNat < 128
  trim_eq : Text.trim text = text
  not_mem_semicolon : ';' ∉ text
  clean_eq : clean text = text

/-! ### Cleaning -/

/-- What cleaning a text drops: blanks on both sides, and semicolons with blanks before them. -/
structure Drops (value lead gap marks tail : List Char) : Prop where
  value_eq : value = lead ++ (clean value ++ gap ++ marks) ++ tail
  lead_blank : ∀ c ∈ lead, isBlank c = true
  gap_blank : ∀ c ∈ gap, isBlank c = true
  marks_eq : ∀ c ∈ marks, c = ';'
  tail_blank : ∀ c ∈ tail, isBlank c = true
  head_not_blank : ∀ c ∈ (clean value ++ gap ++ marks).head?, isBlank c = false
  last_not_blank : ∀ c ∈ (clean value ++ gap ++ marks).getLast?, isBlank c = false
  last_not_semicolon : ∀ c ∈ (clean value ++ gap).getLast?, c ≠ ';'
  end_not_blank : ∀ c ∈ (clean value).getLast?, isBlank c = false

theorem exists_drops (value : List Char) : ∃ lead gap marks tail, Drops value lead gap marks tail := by
  obtain ⟨tail, htail, htailBlank, hlast⟩ := exists_dropTrailing isBlank (value.dropWhile isBlank)
  obtain ⟨marks, hmarks, hmarksEq, hmarksLast⟩ := exists_dropTrailing (· = ';') (Text.trim value)
  obtain ⟨gap, hgap, hgapBlank, hgapLast⟩ := exists_dropTrailing isBlank (dropTrailing (· = ';') (Text.trim value))
  change dropTrailing (· = ';') (Text.trim value) = clean value ++ gap at hgap
  change value.dropWhile isBlank = Text.trim value ++ tail at htail
  change ∀ c ∈ (Text.trim value).getLast?, isBlank c = false at hlast
  rw [hgap] at hmarks hmarksLast
  refine ⟨value.takeWhile isBlank, gap, marks, tail, ?_, fun c => List.mem_takeWhile_imp, hgapBlank,
    fun c hc => of_decide_eq_true (hmarksEq c hc), htailBlank, ?_, ?_,
    fun c hc => of_decide_eq_false (hmarksLast c hc), hgapLast⟩
  · rw [← hmarks, List.append_assoc, ← htail, List.takeWhile_append_dropWhile]
  · intro c hc
    have hhead := List.head?_dropWhile_not isBlank value
    obtain ⟨rest, hrest⟩ := List.head?_eq_some_iff.mp hc
    rw [htail, hmarks, hrest] at hhead
    simpa using hhead
  · rwa [← hmarks]

section

variable {value lead gap marks tail : List Char}

/-- A text without blanks at its ends is only dropped from at its end. -/
theorem Drops.eq_of_trimmed (h : Drops value lead gap marks tail) (hhead : ∀ c ∈ value.head?, isBlank c = false)
    (hlast : ∀ c ∈ value.getLast?, isBlank c = false) : value = clean value ++ gap ++ marks := by
  have hlead : lead = [] := by
    cases lead with
    | nil => rfl
    | cons c lead =>
      have hblank := h.lead_blank c List.mem_cons_self
      rw [hhead c (by rw [h.value_eq]; rfl)] at hblank
      cases hblank
  have htail : tail = [] := by
    rcases List.eq_nil_or_concat tail with rfl | ⟨first, c, rfl⟩
    · rfl
    · have hblank := h.tail_blank c (by simp)
      rw [hlast c (by rw [h.value_eq]; simp)] at hblank
      cases hblank
  have hvalue := h.value_eq
  rwa [hlead, htail, List.append_nil, List.nil_append] at hvalue

/-- Blanks are dropped before semicolons only. -/
theorem Drops.gap_eq_nil (h : Drops value lead gap marks tail) (hmarks : marks = []) : gap = [] := by
  rcases List.eq_nil_or_concat gap with rfl | ⟨first, c, rfl⟩
  · rfl
  · have hblank := h.gap_blank c (by simp)
    rw [h.last_not_blank c (by simp [hmarks])] at hblank
    cases hblank

/-- The semicolons that are dropped have no blank between them and stand behind all that is kept, so that no
semicolons with a blank between them can be around if what is kept has none. -/
theorem Drops.not_sublist (h : Drops value lead gap marks tail) (hkept : ';' ∉ clean value) {blank : Char}
    (hblank : isBlank blank = true) : ¬ [';', blank, ';'].Sublist value := by
  have hnot {part : List Char} (hpart : ∀ c ∈ part, isBlank c = true) : ';' ∉ part := by
    intro hmem
    cases hpart ';' hmem
  intro hsub
  rw [h.value_eq, List.append_assoc, List.append_assoc] at hsub
  have hmarksTail : [';', blank, ';'].Sublist (marks ++ tail) := by
    apply sublist_of_not_mem (hnot h.lead_blank) at hsub
    rw [List.append_assoc] at hsub
    exact sublist_of_not_mem (hnot h.gap_blank) (sublist_of_not_mem hkept hsub)
  have hreversed := hmarksTail.reverse
  rw [List.reverse_append] at hreversed
  have hmarks : [';', blank, ';'].Sublist marks.reverse :=
    sublist_of_not_mem (fun hmem => hnot h.tail_blank (List.mem_reverse.mp hmem)) hreversed
  have hsemicolon := h.marks_eq blank (List.mem_reverse.mp (hmarks.mem (by simp)))
  rw [hsemicolon] at hblank
  cases hblank

/-- A second cleaning changes nothing if no blank stood between two semicolons, and only then if it leaves none. -/
theorem clean_clean_eq_iff (hkept : ';' ∉ clean (clean value)) :
    clean (clean value) = clean value ↔ ¬ ∃ blank, isBlank blank = true ∧ [';', blank, ';'].Sublist value := by
  obtain ⟨lead, gap, marks, tail, h⟩ := exists_drops value
  obtain ⟨lead', gap', marks', tail', h'⟩ := exists_drops (clean value)
  constructor
  · rintro heq ⟨blank, hblank, hsub⟩
    exact h.not_sublist (heq ▸ hkept) hblank hsub
  · intro hnone
    by_contra hne
    have hhead : ∀ c ∈ (clean value).head?, isBlank c = false := fun c hc =>
      h.head_not_blank c (by rw [List.append_assoc, List.head?_append, Option.mem_def.mp hc]; rfl)
    have hvalue := h'.eq_of_trimmed hhead h.end_not_blank
    -- a semicolon is left at the end, so there was a blank behind it, and a semicolon behind that
    obtain ⟨first, c, hmarks'⟩ : ∃ (first : List Char) (c : Char), marks' = first.concat c := by
      refine (List.eq_nil_or_concat marks').resolve_left fun hnil => hne ?_
      rw [h'.gap_eq_nil hnil, hnil, List.append_nil, List.append_nil] at hvalue
      exact hvalue.symm
    obtain rfl : c = ';' := h'.marks_eq c (by simp [hmarks'])
    have hlast : (clean value).getLast? = some ';' := by
      rw [hvalue, hmarks']
      simp
    obtain ⟨blank, rest, hgap⟩ : ∃ blank rest, gap = blank :: rest := by
      refine List.exists_cons_of_ne_nil fun hnil => ?_
      exact h.last_not_semicolon ';' (by rw [hnil, List.append_nil, hlast]; rfl) rfl
    obtain ⟨mark, others, hmarks⟩ : ∃ mark others, marks = mark :: others := by
      refine List.exists_cons_of_ne_nil fun hnil => ?_
      rw [h.gap_eq_nil hnil] at hgap
      cases hgap
    have hmark : mark = ';' := h.marks_eq mark (by simp [hmarks])
    refine hnone ⟨blank, h.gap_blank blank (by simp [hgap]), ?_⟩
    have hparts : ([';'] ++ [blank] ++ [';']).Sublist (clean value ++ gap ++ marks) := by
      refine ((List.singleton_sublist.mpr (List.mem_of_getLast? hlast)).append (List.singleton_sublist.mpr ?_)).append
        (List.singleton_sublist.mpr ?_)
      · simp [hgap]
      · simp [hmarks, hmark]
    rw [h.value_eq]
    exact (hparts.trans (List.sublist_append_right _ _)).trans (List.sublist_append_left _ _)

/-- A text in the layout. -/
theorem isNormal_of_ofLayout {text : List Char} {instant : Instant} (h : ofLayout text = .ok instant) :
    IsNormal text := by
  obtain ⟨hlength, hplain⟩ := isPlain_of_ofLayout h
  have hblank (c : Char) (hc : c ∈ text) : isBlank c = false := isBlank_of_mem_plainChars (hplain c hc)
  have hsemicolon : ∀ c ∈ text.getLast?, decide (c = ';') = false := fun c hc =>
    ne_semicolon_of_mem_plainChars (hplain c (List.mem_of_getLast? hc))
  have htrim : Text.trim text = text := Text.trim_eq_self (fun c hc => hblank c (List.mem_of_head? hc))
    fun c hc => hblank c (List.mem_of_getLast? hc)
  refine ⟨⟨instant, h⟩, hlength, hplain.isAscii, htrim, hplain.not_mem (by decide), ?_⟩
  rw [clean, htrim, Text.dropTrailing_eq_self hsemicolon, Text.trimEnd,
    Text.dropTrailing_eq_self fun c hc => hblank c (List.mem_of_getLast? hc)]

/-- A cleaned text that can be read is in the layout if it has no blank between two semicolons before it is cleaned. -/
theorem isNormal_clean_iff {instant : Instant} (h : read (clean value) = .ok instant) :
    IsNormal (clean value) ↔ ¬ ∃ blank, isBlank blank = true ∧ [';', blank, ';'].Sublist value := by
  have hnormal : IsNormal (clean (clean value)) := isNormal_of_ofLayout h
  rw [← clean_clean_eq_iff hnormal.not_mem_semicolon]
  exact ⟨IsNormal.clean_eq, fun heq => heq ▸ hnormal⟩

end

end Instant

namespace SceneMetadata

open MetadataLines

/-- One line of an accepted file gives the time, and what it gives is stored after one cleaning. It is in the fixed
layout after another; it is stored in the fixed layout exactly when no blank stands between two semicolons. -/
theorem firstLineTime_isNormal_iff {bytes : List UInt8} {m : SceneMetadata} (h : parse bytes = .ok m) :
    ∃ (lines : List (List Char)) (i : Nat) (line value : List Char), ReadsAs bytes lines ∧ lines[i]? = some line ∧
      LineKind.Describes line (.field .firstLineTime) ∧
      (∀ j other, lines[j]? = some other → LineKind.Describes other (.field .firstLineTime) → j = i) ∧
      valueText? line = some value ∧ m.geometry.firstLineTime.toList = Instant.clean value ∧
      Instant.IsNormal (Instant.clean m.geometry.firstLineTime.toList) ∧
      (Instant.IsNormal m.geometry.firstLineTime.toList ↔
        ¬ ∃ blank, Text.isBlank blank = true ∧ [';', blank, ';'].Sublist value) := by
  obtain ⟨scan, hscan, hfinish⟩ := bind_eq_ok_iff.mp h
  obtain ⟨lines, hlines, hholds⟩ := MetadataScan.holds_start.run hscan
  have honce := (hholds.exists_finish_iff.mp ⟨m, hfinish⟩).once .firstLineTime
  obtain ⟨-, hvalues, instant, hinstant, -⟩ := MetadataScan.finish_eq_ok_iff.mp hfinish
  obtain ⟨i, line, hline, hfills, hread⟩ := hholds.value_of _ _ (hvalues .firstLineTime).1
  rw [MetadataScan.read?_firstLineTime] at hread
  obtain ⟨value, hvalue, hclean⟩ := Option.map_eq_some_iff.mp hread
  have hstored : m.geometry.firstLineTime.toList = Instant.clean value := (FieldValue.text.inj hclean).symm
  have hfillsOf {j : Nat} {other : List Char} (hother : lines[j]? = some other)
      (hkind : LineKind.Describes other (.field .firstLineTime)) : Fills lines j .firstLineTime :=
    ⟨other, hother, hkind, by rintro _ ⟨⟩⟩
  obtain ⟨found, hfound, hkind, -⟩ := hfills
  obtain rfl : line = found := Option.some.inj (hline.symm.trans hfound)
  refine ⟨lines, i, line, value, hlines, hline, hkind, fun j other hother hotherKind => ?_, hvalue, hstored,
    Instant.isNormal_of_ofLayout hinstant, ?_⟩
  · exact honce.unique (hfillsOf hother hotherKind) (hfillsOf hline hkind)
  · rw [hstored] at hinstant ⊢
    exact Instant.isNormal_clean_iff hinstant

/-- A file whose time has one semicolon behind it stores the time in the layout. -/
theorem firstLineTime_isNormal_standard : ∃ m value,
    parse (Text.encode (shortText "1;" "2;" "45;" " 2016-10-23T18:44:52.145617Z; ")) = .ok m ∧
      m.geometry.firstLineTime.toList = Instant.clean value ∧
      ¬ ∃ blank, Text.isBlank blank = true ∧ [';', blank, ';'].Sublist value := by
  have htime : Instant.ofLayout "2016-10-23T18:44:52.145617Z".toList = .ok ⟨⟨2016, 10, 23⟩, 18, 44, 52, 145617⟩ := by
    decide +kernel
  have hnormal := Instant.isNormal_of_ofLayout htime
  have hfeed : ∀ line ∈ shortLines "1;" "2;" "45;" " 2016-10-23T18:44:52.145617Z; ", '\n' ∉ line := by decide +kernel
  have hreadings : (readings none (shortLines "1;" "2;" "45;" " 2016-10-23T18:44:52.145617Z; ")).Perm
      (MetadataSlot.all.map fun slot => some (slot, uniformValue 1 2 45 "2016-10-23T18:44:52.145617Z" slot)) := by
    decide +kernel
  obtain ⟨m, haccepted, hvalue⟩ := exists_parse_shortText hfeed hreadings (by decide) (by decide) (by decide)
    ⟨_, by rwa [Instant.read, hnormal.clean_eq]⟩
  have hstored := FieldValue.text.inj (congrFun hvalue .firstLineTime)
  obtain ⟨-, -, -, value, -, -, -, -, -, hclean, -, hiff⟩ := firstLineTime_isNormal_iff haccepted
  exact ⟨m, value, haccepted, hclean, hiff.mp (hstored ▸ hnormal)⟩

/-- With a blank between two semicolons the file is accepted, and one semicolon is stored behind the time. -/
theorem firstLineTime_keeps_semicolon : ∃ m,
    parse (Text.encode (shortText "1;" "2;" "45;" "2016-10-23T18:44:52.145617Z; ;")) = .ok m ∧
      m.geometry.firstLineTime = "2016-10-23T18:44:52.145617Z;" ∧ m.geometry.firstLineTime.length = 28 ∧
      Instant.clean m.geometry.firstLineTime.toList ≠ m.geometry.firstLineTime.toList := by
  have hfeed : ∀ line ∈ shortLines "1;" "2;" "45;" "2016-10-23T18:44:52.145617Z; ;", '\n' ∉ line := by decide +kernel
  have hreadings : (readings none (shortLines "1;" "2;" "45;" "2016-10-23T18:44:52.145617Z; ;")).Perm
      (MetadataSlot.all.map fun slot => some (slot, uniformValue 1 2 45 "2016-10-23T18:44:52.145617Z;" slot)) := by
    decide +kernel
  obtain ⟨m, haccepted, hvalue⟩ := exists_parse_shortText hfeed hreadings (by decide) (by decide) (by decide)
    ⟨⟨⟨2016, 10, 23⟩, 18, 44, 52, 145617⟩, by decide +kernel⟩
  have hstored : m.geometry.firstLineTime = "2016-10-23T18:44:52.145617Z;" :=
    String.toList_inj.mp (FieldValue.text.inj (congrFun hvalue .firstLineTime))
  refine ⟨m, haccepted, hstored, ?_, ?_⟩
  · rw [hstored]
    decide
  · rw [hstored]
    decide +kernel

end SceneMetadata

end SurfaceWater
