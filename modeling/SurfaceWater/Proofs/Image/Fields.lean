import SurfaceWater.Image.Uncompressed
import SurfaceWater.Proofs.Image.Encoding
import SurfaceWater.Proofs.Numeric.Binary
import SurfaceWater.Proofs.Text.Blank
import SurfaceWater.Proofs.Text.Encoding

/-!
# Values of a directory

The values that a directory has are read back by every reader that takes their kind. A field of whole
numbers gives them all alike, whatever their width. A text is read in two ways, according to whether it
stands in the field itself with its null; texts of ASCII without nulls come out the same either way.
-/

namespace SurfaceWater

/-- The values of a field are whole numbers of a width. -/
structure EncodedField.Lists (field : EncodedField) (width : Nat) (values : List Nat) : Prop where
  kindWidth_eq : kindWidth? field.kind = some width
  count_eq : field.count = values.length
  payload_eq : field.payload = values.flatMap (ByteOrder.littleBytes width)
  values_lt : ∀ v ∈ values, v < 256 ^ width

namespace ImageDirectory

open ImageEncoding

variable {d : ImageDirectory} {fields : List EncodedField} {field : EncodedField} {tag n width : Nat}
  {values kinds : List Nat}

/-! ### Fields of whole numbers -/

theorem lists_longs (hvalues : ∀ v ∈ values, v < UInt32.size) : (EncodedField.longs tag values).Lists 4 values :=
  ⟨rfl, rfl, rfl, hvalues⟩

theorem lists_shorts (hvalues : ∀ v ∈ values, v < UInt16.size) : (EncodedField.shorts tag values).Lists 2 values :=
  ⟨rfl, rfl, rfl, hvalues⟩

theorem lt_of_mem_singleton {limit : Nat} (hn : n < limit) : ∀ v ∈ [n], v < limit := by
  intro v hv
  rw [List.mem_singleton.mp hv]
  exact hn

/-! ### Fields that are there -/

section

variable (h : d.Has fields) (hmem : field ∈ fields)

include h hmem

theorem Has.integers? (hlists : field.Lists width values) (hkind : field.kind ∈ kinds) :
    ∃ inline, d.field? field.tag = some (entry field inline) ∧ d.integers? kinds (entry field inline) = some values := by
  obtain ⟨inline, hfield, hpayload⟩ := h.found _ hmem
  have hnumbers : values.map (ByteOrder.littleNumber ∘ ByteOrder.littleBytes width) = values := by
    calc values.map (ByteOrder.littleNumber ∘ ByteOrder.littleBytes width) = values.map id :=
          List.map_congr_left fun v hv => ByteOrder.littleNumber_littleBytes (hlists.values_lt v hv)
      _ = values := List.map_id values
  have htaken : ¬ (entry field inline).kind ∉ kinds := fun hnot => hnot hkind
  have hwidth : kindWidth? (entry field inline).kind = some width := hlists.kindWidth_eq
  have hcount : (entry field inline).count = values.length := hlists.count_eq
  refine ⟨inline, hfield, ?_⟩
  simp only [ImageDirectory.integers?, htaken, if_false, hwidth, hpayload, Option.bind_eq_bind, Option.bind_some, hcount,
    hlists.payload_eq, groups_flatMap fun v _ => ByteOrder.length_littleBytes width v, h.order_eq]
  rw [List.map_map]
  exact congrArg some hnumbers

theorem Has.numberBelow? (hlists : field.Lists width [n]) (hkind : field.kind ∈ kinds) {limit : Nat} (hlimit : n < limit) :
    d.numberBelow? kinds limit field.tag = some (some n) := by
  obtain ⟨inline, hfield, hvalues⟩ := h.integers? hmem hlists hkind
  have hcount : (entry field inline).count = 1 := hlists.count_eq
  simp only [ImageDirectory.numberBelow?, hfield, hcount, hvalues, hlimit, if_true]

theorem Has.numbers? (hlists : field.Lists width values) (hkind : field.kind ∈ unsignedKinds) :
    d.numbers? field.tag = some (some values) := by
  obtain ⟨inline, hfield, hvalues⟩ := h.integers? hmem hlists hkind
  have hcount : (entry field inline).count = values.length := hlists.count_eq
  have hascii : ¬ (entry field inline).kind = asciiKind := by
    intro heq
    rw [show field.kind = asciiKind from heq] at hkind
    exact absurd hkind (by decide)
  have hrational : ¬ (entry field inline).kind = rationalKind := by
    intro heq
    rw [show field.kind = rationalKind from heq] at hkind
    exact absurd hkind (by decide)
  rw [ImageDirectory.numbers?, hfield]
  dsimp only
  rw [fieldNumbers?, hcount]
  cases values with
  | nil => rfl
  | cons first rest =>
    simp only [List.length_cons, Nat.succ_ne_zero, hascii, hrational, if_false, decide_false, Bool.false_and,
      Bool.false_eq_true, hvalues, Option.map_some]

end

section

variable (h : d.Has fields)

include h

theorem Has.long? (hmem : EncodedField.longs tag [n] ∈ fields) (hn : n < UInt32.size) : d.long? tag = some (some n) :=
  h.numberBelow? hmem (lists_longs (lt_of_mem_singleton hn)) (by decide : longKind ∈ unsignedKinds) hn

theorem Has.short? (hmem : EncodedField.shorts tag [n] ∈ fields) (hn : n < UInt16.size) : d.short? tag = some (some n) :=
  h.numberBelow? hmem (lists_shorts (lt_of_mem_singleton hn)) (by decide : shortKind ∈ integerKinds) hn

theorem Has.longs? (hmem : EncodedField.longs tag values ∈ fields) (hvalues : ∀ v ∈ values, v < UInt32.size) :
    d.numbers? tag = some (some values) :=
  h.numbers? hmem (lists_longs hvalues) (by decide : longKind ∈ unsignedKinds)

theorem Has.shorts? (hmem : EncodedField.shorts tag values ∈ fields) (hvalues : ∀ v ∈ values, v < UInt16.size) :
    d.numbers? tag = some (some values) :=
  h.numbers? hmem (lists_shorts hvalues) (by decide : shortKind ∈ unsignedKinds)

end

/-! ### Lists that are carried along -/

section

variable (h : d.Has fields) {tag : UInt16}

include h

theorem Has.doubles? {values : List Binary64} (hmem : EncodedField.doubles tag.toNat values ∈ fields) :
    d.doubles? tag = some values := by
  obtain ⟨inline, hfield, hpayload⟩ := h.found _ hmem
  change d.field? tag.toNat = _ at hfield
  have hkind : (entry (.doubles tag.toNat values) inline).kind = doubleKind := rfl
  have hgroups : groups 8 (entry (.doubles tag.toNat values) inline).count (EncodedField.doubles tag.toNat values).payload =
      values.map fun x => ByteOrder.littleBytes 8 x.toBits := groups_flatMap fun x _ => ByteOrder.length_littleBytes 8 _
  have hbits : values.map ((fun bytes => Binary.ofBits (d.order.number bytes)) ∘ fun x => ByteOrder.littleBytes 8 x.toBits) =
      values := by
    rw [h.order_eq]
    refine (List.map_congr_left fun x _ => ?_).trans (List.map_id values)
    have hlt : x.toBits < 256 ^ 8 := Binary.toBits_lt (by decide) x
    rw [Function.comp_apply, ByteOrder.number, ByteOrder.littleNumber_littleBytes hlt, Binary.ofBits_toBits (by decide)]
    rfl
  simp only [ImageDirectory.doubles?, hfield, hkind, hpayload, hgroups, Option.bind_eq_bind, Option.bind_some, ne_eq,
    not_true_eq_false, decide_false, Bool.false_and, Bool.false_eq_true, if_false, List.map_map, hbits]
  rfl

theorem Has.shortList? {values : List UInt16}
    (hmem : EncodedField.shorts tag.toNat (values.map UInt16.toNat) ∈ fields) : d.shorts? tag = some values := by
  have hlists : (EncodedField.shorts tag.toNat (values.map UInt16.toNat)).Lists 2 (values.map UInt16.toNat) := by
    apply lists_shorts
    intro n hn
    obtain ⟨value, -, rfl⟩ := List.mem_map.mp hn
    exact value.toNat_lt
  have hkind : shortKind ∈ if values.length = 1 then [byteKind, undefinedKind, shortKind] else integerKinds := by
    split <;> decide
  obtain ⟨inline, hfield, hvalues⟩ := h.integers? hmem hlists hkind
  change d.field? tag.toNat = _ at hfield
  have hcount : (entry (.shorts tag.toNat (values.map UInt16.toNat)) inline).count = values.length := List.length_map _
  have hback : (values.map UInt16.toNat).map UInt16.ofNat = values := by
    rw [List.map_map]
    exact (List.map_congr_left fun value _ => UInt16.ofNat_toNat).trans (List.map_id values)
  have hall : (values.map UInt16.toNat).all (· < UInt16.size) = true := by
    rw [List.all_eq_true]
    intro n hn
    exact decide_eq_true (hlists.values_lt n hn)
  cases values with
  | nil => simp only [ImageDirectory.shorts?, hfield, hcount, Option.bind_eq_bind, Option.bind_some, List.length_nil, if_true]; rfl
  | cons first rest =>
    have hpos : ¬ (first :: rest).length = 0 := Nat.succ_ne_zero _
    simp only [ImageDirectory.shorts?, hfield, hcount, hpos, hvalues, hall, hback, Option.bind_eq_bind, Option.bind_some,
      if_false, if_true]
    rfl

end

/-! ### Texts -/

section

variable {text : String}

theorem bytes_of_isTagText (htext : SurfaceWater.isTagText text = true) :
    ∀ byte ∈ Text.encode text, byte ≠ 0 ∧ byte < 128 := by
  intro byte hbyte
  rw [Text.encode_eq, List.mem_flatMap] at hbyte
  obtain ⟨c, hc, hbyte⟩ := hbyte
  have hbounds := List.all_eq_true.mp htext c hc
  simp only [Bool.and_eq_true, decide_eq_true_eq] at hbounds
  rw [Text.utf8EncodeChar_of_lt hbounds.2, List.mem_singleton] at hbyte
  have hvalue : byte.toNat = c.toNat := by
    rw [hbyte, UInt8.toNat_ofNat']
    omega
  constructor
  · rintro rfl
    exact absurd hvalue (Nat.ne_of_lt hbounds.1)
  · exact UInt8.lt_iff_toNat_lt.mpr (hvalue ▸ hbounds.2)

/-- A text without nulls is found again before the null at its end. -/
theorem stripNulls_eq {bytes : List UInt8} (h : ∀ byte ∈ bytes, byte ≠ 0) :
    (((bytes ++ [0]).dropWhile (· = 0)).reverse.dropWhile (· = 0)).reverse = bytes := by
  cases bytes with
  | nil => rfl
  | cons first rest =>
    have hfirst : (first :: (rest ++ [0])).dropWhile (· = 0) = first :: (rest ++ [0]) := by
      apply Text.dropWhile_eq_self
      intro byte hbyte
      obtain rfl : first = byte := Option.some.inj hbyte
      exact decide_eq_false (h first List.mem_cons_self)
    have hlast : ∀ byte ∈ (first :: rest).getLast?, decide (byte = 0) = false := by
      intro byte hbyte
      exact decide_eq_false (h byte (List.mem_of_getLast? hbyte))
    rw [List.cons_append, hfirst, ← List.cons_append]
    exact Text.dropTrailing_append hlast (by simp)

theorem Has.text? (h : d.Has fields) {tag : UInt16} (hmem : EncodedField.text tag.toNat text ∈ fields)
    (htext : SurfaceWater.isTagText text = true) : d.text? tag = some text := by
  obtain ⟨inline, hfield, hpayload⟩ := h.found _ hmem
  change d.field? tag.toNat = _ at hfield
  change d.payload? _ = some (Text.encode text ++ [0]) at hpayload
  have hbytes := bytes_of_isTagText htext
  have hkind : (entry (.text tag.toNat text) inline).kind = asciiKind := rfl
  have hcount : (entry (.text tag.toNat text) inline).count = (Text.encode text).length + 1 := List.length_append
  have hascii : (Text.encode text ++ [0]).all (· < 128) = true := by
    rw [List.all_append, Bool.and_eq_true, List.all_eq_true]
    exact ⟨fun byte hbyte => decide_eq_true (hbytes byte hbyte).2, rfl⟩
  have htake : (Text.encode text ++ [0]).takeWhile (· ≠ 0) = Text.encode text := by
    rw [List.takeWhile_append_of_pos fun byte hbyte => decide_eq_true (hbytes byte hbyte).1]
    simp
  simp only [ImageDirectory.text?, hfield, Option.bind_eq_bind, Option.bind_some, fieldText?, hkind, hcount, hpayload,
    hascii, htake, stripNulls_eq fun byte hbyte => (hbytes byte hbyte).1, Text.decode?_encode, List.getLast?_concat]
  simp

end

/-! ### Values that may be missing -/

section

variable (h : d.Has fields) {tag : UInt16}

include h

theorem Has.optionalDoubles {values : Option (List Binary64)}
    (hmem : ∀ list ∈ values, EncodedField.doubles tag.toNat list ∈ fields)
    (habsent : values = none → ∀ field ∈ fields, field.tag ≠ tag.toNat) : d.doubles? tag = values := by
  cases values with
  | none =>
    rw [ImageDirectory.doubles?, h.absent _ (habsent rfl)]
    rfl
  | some list => exact h.doubles? (hmem list rfl)

theorem Has.optionalShorts {values : Option (List UInt16)}
    (hmem : ∀ list ∈ values, EncodedField.shorts tag.toNat (list.map UInt16.toNat) ∈ fields)
    (habsent : values = none → ∀ field ∈ fields, field.tag ≠ tag.toNat) : d.shorts? tag = values := by
  cases values with
  | none =>
    rw [ImageDirectory.shorts?, h.absent _ (habsent rfl)]
    rfl
  | some list => exact h.shortList? (hmem list rfl)

theorem Has.optionalText {value : Option String}
    (hmem : ∀ text ∈ value, EncodedField.text tag.toNat text ∈ fields)
    (htext : ∀ text ∈ value, SurfaceWater.isTagText text = true)
    (habsent : value = none → ∀ field ∈ fields, field.tag ≠ tag.toNat) : d.text? tag = value := by
  cases value with
  | none =>
    rw [ImageDirectory.text?, h.absent _ (habsent rfl)]
    rfl
  | some text => exact h.text? (hmem text rfl) (htext text rfl)

end

end ImageDirectory

end SurfaceWater
