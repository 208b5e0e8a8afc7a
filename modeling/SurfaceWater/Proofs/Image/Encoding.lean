import Mathlib.Data.List.Forall2
import Mathlib.Data.List.Nodup
import Mathlib.Data.List.Perm.Basic
import SurfaceWater.Image.Encoder
import SurfaceWater.Proofs.Image.Slices

/-!
# Reading what was encoded

The directory that is read back from an encoded image has a field for every field that went in, with the
values of it, and no other. Short values stand in the field itself, longer ones where the field says; the
order in which the fields are written plays no part.
-/

namespace SurfaceWater

namespace ImageEncoding

/-! ### Values -/

/-- The four bytes that a field ends in begin with its values, or say where they stand before an end. -/
def Gives (bytes : List UInt8) (stop : Nat) (field : EncodedField) (inline : List UInt8) : Prop :=
  inline.length = 4 ∧
    if field.payload.length ≤ 4 then inline.take field.payload.length = field.payload
    else ∃ start, inline = ByteOrder.littleBytes 4 start ∧ Carries bytes start field.payload ∧
      start + field.payload.length ≤ stop

theorem forall₂_placeValues {bytes : List UInt8} {offset stop : Nat} {fields : List EncodedField}
    (h : Carries bytes offset (placeValues offset fields).1) (hstop : offset + (placeValues offset fields).1.length ≤ stop) :
    List.Forall₂ (Gives bytes stop) fields (placeValues offset fields).2 := by
  induction fields generalizing offset with
  | nil => exact .nil
  | cons field rest ih =>
    unfold placeValues at h hstop ⊢
    split
    · rename_i hshort
      rw [if_pos hshort] at h hstop
      refine .cons ⟨?_, ?_⟩ (ih h hstop)
      · rw [List.length_append, List.length_replicate]
        omega
      · rw [if_pos hshort, List.take_left]
    · rename_i hlong
      rw [if_neg hlong] at h hstop
      dsimp only at h hstop ⊢
      rw [List.length_append, List.length_append] at hstop
      refine .cons ⟨ByteOrder.length_littleBytes .., ?_⟩ (ih ?_ (by omega))
      · rw [if_neg hlong]
        exact ⟨_, rfl, h.left.right, by omega⟩
      · have hrest := h.right
        rwa [List.length_append, ← Nat.add_assoc] at hrest

/-! ### Order of tags -/

theorem perm_insertField (field : EncodedField) (fields : List EncodedField) :
    (insertField field fields).Perm (field :: fields) := by
  induction fields with
  | nil => exact .refl _
  | cons first rest ih =>
    unfold insertField
    split
    · exact .refl _
    · exact (ih.cons first).trans (.swap field first rest)

theorem perm_sortFields (fields : List EncodedField) : (sortFields fields).Perm fields := by
  induction fields with
  | nil => exact .refl _
  | cons field fields ih => exact (perm_insertField field _).trans (ih.cons field)

/-! ### Directories -/

/-- A field as it is read back. -/
def entry (field : EncodedField) (inline : List UInt8) : DirectoryField :=
  ⟨field.tag, field.kind, field.count, inline⟩

/-- The numbers of a field fit their places. -/
structure Fits (field : EncodedField) : Prop where
  tag_lt : field.tag < UInt16.size
  kind_lt : field.kind < UInt16.size
  count_lt : field.count < UInt32.size

theorem fieldAt?_eq_some {bytes : List UInt8} {offset : Nat} {field : EncodedField} {inline : List UInt8}
    (h : Carries bytes offset (fieldBytes field inline)) (hinline : inline.length = 4) (hfits : Fits field) :
    ImageDirectory.fieldAt? .little bytes.toArray offset = some (entry field inline) := by
  have hslice := h.right.slice?
  simp only [List.length_append, ByteOrder.length_littleBytes, hinline] at hslice
  have hkind := h.left.left.right
  have hcount := h.left.right
  simp only [List.length_append, ByteOrder.length_littleBytes] at hkind hcount
  rw [ImageDirectory.fieldAt?, h.left.left.left.number hfits.tag_lt, hkind.number hfits.kind_lt,
    hcount.number hfits.count_lt, hslice]
  rfl

section

variable (chunks : List (List UInt8)) (fields : List EncodedField)

theorem carries_encode :
    Carries (encode chunks fields) 0 [0x49, 0x49] ∧
      Carries (encode chunks fields) 2 (ByteOrder.littleBytes 2 42) ∧
      Carries (encode chunks fields) 4 (ByteOrder.littleBytes 4 (directoryStart chunks fields)) ∧
      Carries (encode chunks fields) headerSize chunks.flatten ∧
      Carries (encode chunks fields) (valuesStart chunks) (placed chunks fields).1 ∧
      Carries (encode chunks fields) (directoryStart chunks fields)
        (directoryBytes (sortFields fields) (placed chunks fields).2) := by
  have hall : Carries (encode chunks fields) 0 ([0x49, 0x49] ++ ByteOrder.littleBytes 2 42 ++
      ByteOrder.littleBytes 4 (directoryStart chunks fields) ++ chunks.flatten ++ (placed chunks fields).1 ++
      evenPadding (valuesStart chunks + (placed chunks fields).1.length) ++
      directoryBytes (sortFields fields) (placed chunks fields).2) := carries_refl (encode chunks fields)
  have hheader := hall.left.left.left.left
  have hsamples := hall.left.left.left.right
  have hvalues := hall.left.left.right
  have hdirectory := hall.right
  simp only [List.length_append, ByteOrder.length_littleBytes, List.length_cons, List.length_nil, Nat.zero_add,
    Nat.reduceAdd] at hsamples hvalues hdirectory
  have hnumber := hheader.left.right
  have hstart := hheader.right
  simp only [List.length_append, ByteOrder.length_littleBytes, List.length_cons, List.length_nil, Nat.zero_add,
    Nat.reduceAdd] at hnumber hstart
  exact ⟨hheader.left.left, hnumber, hstart, hsamples, hvalues, hdirectory⟩

end

theorem length_fieldBytes {field : EncodedField} {inline : List UInt8} (h : inline.length = 4) :
    (fieldBytes field inline).length = 12 := by
  simp only [fieldBytes, List.length_append, ByteOrder.length_littleBytes, h]

theorem length_entries {bytes : List UInt8} {stop : Nat} {fields : List EncodedField} {inlines : List (List UInt8)}
    (hgives : List.Forall₂ (Gives bytes stop) fields inlines) :
    (fields.zipWith fieldBytes inlines).flatten.length = 12 * fields.length := by
  induction hgives with
  | nil => rfl
  | cons hfield hgives ih =>
    rw [List.zipWith_cons_cons, List.flatten_cons, List.length_append, length_fieldBytes hfield.1, ih, List.length_cons]
    omega

/-- The fields of a directory are read one after another. -/
theorem fields_eq_some {bytes : List UInt8} {offset stop : Nat} {fields : List EncodedField} {inlines : List (List UInt8)}
    (h : Carries bytes offset (fields.zipWith fieldBytes inlines).flatten)
    (hgives : List.Forall₂ (Gives bytes stop) fields inlines) (hfits : ∀ field ∈ fields, Fits field) :
    (List.range fields.length).mapM (fun i => ImageDirectory.fieldAt? .little bytes.toArray (offset + 12 * i)) =
      some (fields.zipWith entry inlines) := by
  induction hgives generalizing offset with
  | nil => rfl
  | @cons field inline fields inlines hfield hgives ih =>
    rw [List.zipWith_cons_cons, List.flatten_cons] at h
    have hrest := h.right
    rw [length_fieldBytes hfield.1] at hrest
    rw [List.forall_mem_cons] at hfits
    have hnext : (fun i => ImageDirectory.fieldAt? .little bytes.toArray (offset + 12 * i)) ∘ Nat.succ =
        fun i => ImageDirectory.fieldAt? .little bytes.toArray (offset + 12 + 12 * i) := by
      funext i
      rw [Function.comp_apply, Nat.mul_succ, Nat.add_comm (12 * i), Nat.add_assoc]
    rw [List.length_cons, List.range_succ_eq_map, List.mapM_cons, Nat.mul_zero, Nat.add_zero,
      fieldAt?_eq_some h.left hfield.1 hfits.1, List.mapM_map, hnext, ih hrest hfits.2]
    rfl

section

variable {chunks : List (List UInt8)} {fields : List EncodedField}

theorem valuesStart_le : valuesStart chunks ≤ directoryStart chunks fields := by
  rw [directoryStart]
  omega

/-- The values of a field stand before the directory. -/
theorem gives_placed : List.Forall₂ (Gives (encode chunks fields) (directoryStart chunks fields)) (sortFields fields)
    (placed chunks fields).2 := by
  obtain ⟨-, -, -, -, hvalues, -⟩ := carries_encode chunks fields
  apply forall₂_placeValues hvalues
  change valuesStart chunks + (placed chunks fields).1.length ≤ directoryStart chunks fields
  rw [directoryStart]
  omega

theorem read?_encode (hstop : directoryStart chunks fields < UInt32.size) (hcount : fields.length < UInt16.size)
    (hfits : ∀ field ∈ fields, Fits field) :
    ImageDirectory.read? (encode chunks fields).toArray =
      some ⟨.little, (encode chunks fields).toArray, (sortFields fields).zipWith entry (placed chunks fields).2⟩ := by
  obtain ⟨horder, hmagic, hstart, -, -, hdirectory⟩ := carries_encode chunks fields
  have hperm := perm_sortFields fields
  have hcountField := hdirectory.left.left
  have hentries := hdirectory.left.right
  have hnext := hdirectory.right
  have hgives : List.Forall₂ (Gives (encode chunks fields) (directoryStart chunks fields)) (sortFields fields)
      (placed chunks fields).2 := gives_placed
  have hslice : Bytes.slice? (encode chunks fields).toArray 0 2 = some [0x49, 0x49] := horder.slice?
  rw [List.length_append, length_entries hgives, ByteOrder.length_littleBytes, ← Nat.add_assoc] at hnext
  rw [ByteOrder.length_littleBytes] at hentries
  have hread := fields_eq_some hentries hgives fun field hfield => hfits field (hperm.mem_iff.mp hfield)
  rw [hperm.length_eq] at hread hcountField hnext
  have hpos : ¬ 0 = directoryStart chunks fields := by
    unfold directoryStart valuesStart headerSize
    omega
  simp only [ImageDirectory.read?, hslice, ImageDirectory.byteOrder?, Option.bind_eq_bind, Option.bind_some,
    hmagic.number (by decide), hstart.number hstop, hcountField.number hcount, hread, hnext.number (by decide), hpos,
    ne_eq, not_true_eq_false, if_false]
  rfl

end

/-! ### Chunks -/

section

variable {chunks : List (List UInt8)}

theorem getElem?_chunkOffsets (offset : Nat) (chunks : List (List UInt8)) (k : Nat) :
    (chunkOffsets offset chunks)[k]? = chunks[k]?.map fun _ => offset + (chunks.take k).flatten.length := by
  induction chunks generalizing offset k with
  | nil => rfl
  | cons chunk chunks ih =>
    cases k with
    | zero => rfl
    | succ k =>
      rw [chunkOffsets, List.getElem?_cons_succ, ih, List.getElem?_cons_succ, List.take_succ_cons, List.flatten_cons,
        List.length_append, Nat.add_assoc]

theorem length_chunkOffsets (offset : Nat) (chunks : List (List UInt8)) :
    (chunkOffsets offset chunks).length = chunks.length := by
  induction chunks generalizing offset with
  | nil => rfl
  | cons chunk chunks ih => rw [chunkOffsets, List.length_cons, List.length_cons, ih]

theorem chunkOffsets_congr {others : List (List UInt8)} (h : chunks.map List.length = others.map List.length)
    (offset : Nat) : chunkOffsets offset chunks = chunkOffsets offset others := by
  induction chunks generalizing others offset with
  | nil =>
    cases others with
    | nil => rfl
    | cons other others => cases h
  | cons chunk chunks ih =>
    cases others with
    | nil => cases h
    | cons other others =>
      rw [List.map_cons, List.map_cons] at h
      obtain ⟨hlength, hrest⟩ := List.cons.inj h
      rw [chunkOffsets, chunkOffsets, hlength, ih hrest]

/-- A chunk stands at its offset. -/
theorem carries_chunk (fields : List EncodedField) {k : Nat} {chunk : List UInt8} (hk : chunks[k]? = some chunk) :
    Carries (encode chunks fields) (headerSize + (chunks.take k).flatten.length) chunk := by
  obtain ⟨-, -, -, hsamples, -⟩ := carries_encode chunks fields
  exact hsamples.trans (carries_flatten hk)

/-- Every chunk ends before the directory begins. -/
theorem chunk_end_le (fields : List EncodedField) {k : Nat} {chunk : List UInt8} (hk : chunks[k]? = some chunk) :
    headerSize + (chunks.take k).flatten.length + chunk.length ≤ directoryStart chunks fields := by
  have hend := (carries_flatten hk).le
  have hle : valuesStart chunks ≤ directoryStart chunks fields := valuesStart_le
  rw [valuesStart] at hle
  omega

theorem offset_le_directoryStart {fields : List EncodedField} {offset : Nat}
    (hoffset : offset ∈ chunkOffsets headerSize chunks) : offset ≤ directoryStart chunks fields := by
  obtain ⟨k, hk, rfl⟩ := List.getElem_of_mem hoffset
  have hchunk := getElem?_chunkOffsets headerSize chunks k
  rw [List.getElem?_eq_getElem hk] at hchunk
  obtain ⟨chunk, hchunk, heq⟩ := Option.map_eq_some_iff.mp hchunk.symm
  have hle := chunk_end_le fields hchunk
  omega

theorem size_le_directoryStart {fields : List EncodedField} {size : Nat} (hsize : size ∈ chunks.map List.length) :
    size ≤ directoryStart chunks fields := by
  obtain ⟨chunk, hchunk, rfl⟩ := List.mem_map.mp hsize
  obtain ⟨k, hk, rfl⟩ := List.getElem_of_mem hchunk
  have hle := chunk_end_le fields (List.getElem?_eq_getElem hk)
  omega

end

end ImageEncoding

/-! ### What a directory has -/

/-- The values of a field are as many as it says, of a kind that is known. -/
structure EncodedField.WellFormed (field : EncodedField) : Prop where
  tag_lt : field.tag < UInt16.size
  payload : ∃ width, kindWidth? field.kind = some width ∧ field.payload.length = width * field.count

/-- A directory has the given fields, with their values, and no others. -/
structure ImageDirectory.Has (d : ImageDirectory) (fields : List EncodedField) : Prop where
  order_eq : d.order = .little
  found : ∀ field ∈ fields, ∃ inline, d.field? field.tag = some (ImageEncoding.entry field inline) ∧
    d.payload? (ImageEncoding.entry field inline) = some field.payload
  absent : ∀ tag, (∀ field ∈ fields, field.tag ≠ tag) → d.field? tag = none

namespace ImageEncoding

theorem kindWidth?_bounds {kind width : Nat} (h : kindWidth? kind = some width) : kind < UInt16.size ∧ 0 < width := by
  unfold kindWidth? at h
  split at h <;> cases h <;> decide

variable {chunks : List (List UInt8)} {fields : List EncodedField}

theorem fits_of_gives {bytes : List UInt8} {stop : Nat} (hstop : stop < UInt32.size) {field : EncodedField}
    {inline : List UInt8} (hfield : field.WellFormed) (h : Gives bytes stop field inline) : Fits field := by
  obtain ⟨width, hwidth, hpayload⟩ := hfield.payload
  obtain ⟨hkind, hpos⟩ := kindWidth?_bounds hwidth
  have hcount : field.count ≤ field.payload.length := hpayload ▸ Nat.le_mul_of_pos_left _ hpos
  refine ⟨hfield.tag_lt, hkind, ?_⟩
  by_cases hshort : field.payload.length ≤ 4
  · exact Nat.lt_of_le_of_lt (Nat.le_trans hcount hshort) (by decide)
  · obtain ⟨-, hgives⟩ := h
    rw [if_neg hshort] at hgives
    obtain ⟨start, -, -, hend⟩ := hgives
    omega

/-- The values of a field that is read back are those that were written. -/
theorem payload?_eq_some {d : ImageDirectory} {bytes : List UInt8} (horder : d.order = .little)
    (hbytes : d.bytes = bytes.toArray) {stop : Nat} (hstop : stop < UInt32.size) {field : EncodedField}
    {inline : List UInt8} (hfield : field.WellFormed) (h : Gives bytes stop field inline) :
    d.payload? (entry field inline) = some field.payload := by
  obtain ⟨width, hwidth, hpayload⟩ := hfield.payload
  obtain ⟨-, hgives⟩ := h
  simp only [ImageDirectory.payload?, entry, hwidth, Option.bind_eq_bind, Option.bind_some, ← hpayload]
  by_cases hshort : field.payload.length ≤ 4
  · rw [if_pos hshort] at hgives ⊢
    rw [hgives]
    rfl
  · rw [if_neg hshort] at hgives ⊢
    obtain ⟨start, rfl, hcarries, hend⟩ := hgives
    have hstart : start < UInt32.size := by omega
    rw [horder, ByteOrder.number, ByteOrder.littleNumber_littleBytes hstart, hbytes]
    exact hcarries.slice?

section

variable {bytes : List UInt8} {stop : Nat} {inlines : List (List UInt8)}

theorem tag_entries (h : List.Forall₂ (Gives bytes stop) fields inlines) :
    (fields.zipWith entry inlines).map DirectoryField.tag = fields.map EncodedField.tag := by
  induction h with
  | nil => rfl
  | cons _ _ ih =>
    rw [List.zipWith_cons_cons, List.map_cons, List.map_cons, ih]
    rfl

theorem exists_entry (h : List.Forall₂ (Gives bytes stop) fields inlines) {field : EncodedField}
    (hfield : field ∈ fields) : ∃ inline, Gives bytes stop field inline ∧ entry field inline ∈ fields.zipWith entry inlines := by
  induction h with
  | nil => exact absurd hfield List.not_mem_nil
  | @cons first inline fields inlines hfirst _ ih =>
    rw [List.zipWith_cons_cons]
    rcases List.mem_cons.mp hfield with rfl | hfield
    · exact ⟨inline, hfirst, List.mem_cons_self⟩
    · obtain ⟨found, hfound, hmem⟩ := ih hfield
      exact ⟨found, hfound, List.mem_cons_of_mem _ hmem⟩

end

/-- The numbers of the fields fit their places when the directory begins at an offset of 32 bits. -/
theorem fits_of_mem (hstop : directoryStart chunks fields < UInt32.size) (hfields : ∀ field ∈ fields, field.WellFormed)
    {field : EncodedField} (hfield : field ∈ fields) : Fits field := by
  have hgives : List.Forall₂ (Gives (encode chunks fields) (directoryStart chunks fields)) (sortFields fields)
      (placed chunks fields).2 := gives_placed
  obtain ⟨inline, hinline, -⟩ := exists_entry hgives ((perm_sortFields fields).mem_iff.mpr hfield)
  exact fits_of_gives hstop (hfields field hfield) hinline

/-- An encoded image has its fields when its directory begins at an offset of 32 bits. -/
theorem has_encode (hstop : directoryStart chunks fields < UInt32.size) (hcount : fields.length < UInt16.size)
    (hfields : ∀ field ∈ fields, field.WellFormed) (htags : (fields.map EncodedField.tag).Nodup) :
    ∃ d, ImageDirectory.read? (encode chunks fields).toArray = some d ∧ d.bytes = (encode chunks fields).toArray ∧
      d.Has fields := by
  have hgives : List.Forall₂ (Gives (encode chunks fields) (directoryStart chunks fields)) (sortFields fields)
      (placed chunks fields).2 := gives_placed
  have hperm := perm_sortFields fields
  have hentry {field : EncodedField} (hfield : field ∈ fields) : ∃ inline,
      Gives (encode chunks fields) (directoryStart chunks fields) field inline ∧ entry field inline ∈ (sortFields fields).zipWith entry (placed chunks fields).2 :=
    exists_entry hgives (hperm.mem_iff.mpr hfield)
  refine ⟨_, read?_encode hstop hcount fun _ => fits_of_mem hstop hfields, rfl, rfl, ?_, ?_⟩
  · intro field hfield
    obtain ⟨inline, hinline, hmem⟩ := hentry hfield
    refine ⟨inline, ?_, payload?_eq_some rfl rfl hstop (hfields field hfield) hinline⟩
    obtain ⟨width, hwidth, -⟩ := (hfields field hfield).payload
    have hnodup : (((sortFields fields).zipWith entry (placed chunks fields).2).map DirectoryField.tag).Nodup := by
      rw [tag_entries hgives]
      exact (hperm.map _).nodup_iff.mpr htags
    -- no other field has the tag, so the search finds this one
    cases hfound : ImageDirectory.field? ⟨.little, (encode chunks fields).toArray,
        (sortFields fields).zipWith entry (placed chunks fields).2⟩ field.tag with
    | none =>
      have hnone := List.find?_eq_none.mp hfound _ (List.mem_reverse.mpr hmem)
      simp [entry, hwidth] at hnone
    | some other =>
      have hother := List.mem_reverse.mp (List.mem_of_find?_eq_some hfound)
      have htag := List.find?_some hfound
      simp only [Bool.and_eq_true, decide_eq_true_eq] at htag
      rw [List.inj_on_of_nodup_map hnodup hother hmem htag.1]
  · intro tag htag
    apply List.find?_eq_none.mpr
    intro other hother
    have hmem := List.mem_map_of_mem (f := DirectoryField.tag) (List.mem_reverse.mp hother)
    rw [tag_entries hgives, List.mem_map] at hmem
    obtain ⟨field, hfield, heq⟩ := hmem
    have hne := htag field (hperm.mem_iff.mp hfield)
    rw [heq] at hne
    simp [hne]

end ImageEncoding

/-! ### Kinds of fields -/

namespace EncodedField

theorem wellFormed_shorts {tag : Nat} (htag : tag < UInt16.size) (values : List Nat) : (shorts tag values).WellFormed :=
  ⟨htag, 2, rfl, by
    rw [shorts, length_flatMap_block fun n _ => ByteOrder.length_littleBytes 2 n, Nat.mul_comm]⟩

theorem wellFormed_longs {tag : Nat} (htag : tag < UInt16.size) (values : List Nat) : (longs tag values).WellFormed :=
  ⟨htag, 4, rfl, by
    rw [longs, length_flatMap_block fun n _ => ByteOrder.length_littleBytes 4 n, Nat.mul_comm]⟩

theorem wellFormed_doubles {tag : Nat} (htag : tag < UInt16.size) (values : List Binary64) :
    (doubles tag values).WellFormed :=
  ⟨htag, 8, rfl, by
    rw [doubles, length_flatMap_block fun x _ => ByteOrder.length_littleBytes 8 x.toBits, Nat.mul_comm]⟩

theorem wellFormed_text {tag : Nat} (htag : tag < UInt16.size) (value : String) : (text tag value).WellFormed :=
  ⟨htag, 1, rfl, (Nat.one_mul _).symm⟩

/-! ### Fields that may be missing -/

section

variable {α : Type} {make : α → EncodedField}

theorem map_tag_toList (value : Option α) {tag : Nat} (h : ∀ a, (make a).tag = tag) :
    (value.map make).toList.map EncodedField.tag = (value.map fun _ => tag).toList := by
  cases value with
  | none => rfl
  | some a => exact congrArg (fun tag => [tag]) (h a)

theorem sublist_toList_tag (value : Option α) (tag : Nat) : (value.map fun _ => tag).toList.Sublist [tag] := by
  cases value with
  | none => exact List.nil_sublist _
  | some a => exact .refl _

theorem wellFormed_of_mem_toList {value : Option α} (h : ∀ a, (make a).WellFormed) {field : EncodedField} (hfield : field ∈ (value.map make).toList) :
    field.WellFormed := by
  cases value with
  | none => exact absurd hfield List.not_mem_nil
  | some a =>
    obtain rfl : field = make a := List.mem_singleton.mp hfield
    exact h a

end

end EncodedField

end SurfaceWater
