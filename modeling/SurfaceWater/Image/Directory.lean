import SurfaceWater.Image.Bytes
import SurfaceWater.Numeric.Binary
import SurfaceWater.Text.Lines

/-!
# Image directories

The fields that describe an image in a TIFF file. A field has a tag, a kind of value and a count;
values of at most four bytes stand in the field itself, others at an offset that stands there. A
field of a kind that is not known is passed over, and of several fields with one tag the last
counts.
-/

namespace SurfaceWater

structure DirectoryField where
  tag : Nat
  kind : Nat
  count : Nat
  /-- The four bytes of the value or its offset. -/
  inline : List UInt8
  deriving DecidableEq, Repr

/-! ### Kinds of values -/

def byteKind : Nat := 1

def asciiKind : Nat := 2

def shortKind : Nat := 3

def longKind : Nat := 4

/-- Pairs of a numerator and a denominator. -/
def rationalKind : Nat := 5

/-- Bytes of no stated meaning, which are read as numbers. -/
def undefinedKind : Nat := 7

def doubleKind : Nat := 12

/-- Offsets of directories. -/
def directoryKind : Nat := 13

/-- Numbers of 64 bits. -/
def bigLongKind : Nat := 16

/-- Offsets of directories in 64 bits. -/
def bigDirectoryKind : Nat := 18

/-- The kinds of unsigned integers. -/
def integerKinds : List Nat := [byteKind, undefinedKind, shortKind, longKind, bigLongKind]

/-- The kinds of unsigned integers with the offsets, which can stand for integers of 32 bits and
more. -/
def unsignedKinds : List Nat := integerKinds ++ [directoryKind, bigDirectoryKind]

/-- How many bytes a value of a kind has. -/
def kindWidth? : Nat → Option Nat
  | 1 => some 1
  | 2 => some 1
  | 3 => some 2
  | 4 => some 4
  | 5 => some 8
  | 6 => some 1
  | 7 => some 1
  | 8 => some 2
  | 9 => some 4
  | 10 => some 8
  | 11 => some 4
  | 12 => some 8
  | 13 => some 4
  | 16 => some 8
  | 17 => some 8
  | 18 => some 8
  | _ => none

structure ImageDirectory where
  order : ByteOrder
  bytes : Bytes
  fields : List DirectoryField

namespace ImageDirectory

def numberAt? (order : ByteOrder) (bytes : Bytes) (offset width : Nat) : Option Nat :=
  (bytes.slice? offset width).map order.number

def fieldAt? (order : ByteOrder) (bytes : Bytes) (offset : Nat) : Option DirectoryField := do
  let tag ← numberAt? order bytes offset 2
  let kind ← numberAt? order bytes (offset + 2) 2
  let count ← numberAt? order bytes (offset + 4) 4
  let inline ← bytes.slice? (offset + 8) 4
  return ⟨tag, kind, count, inline⟩

/-- The byte order that the first two bytes of a file name. -/
def byteOrder? : List UInt8 → Option ByteOrder
  | [0x49, 0x49] => some .little
  | [0x4D, 0x4D] => some .big
  | _ => none

/-- Reads the directory of the first image of a file. It is followed by the offset of another
directory, which must be there and must not lead back to the first. -/
def read? (bytes : Bytes) : Option ImageDirectory := do
  let order ← byteOrder? (← bytes.slice? 0 2)
  if (← numberAt? order bytes 2 2) ≠ 42 then none
  let start ← numberAt? order bytes 4 4
  let count ← numberAt? order bytes start 2
  let fields ← (List.range count).mapM fun i => fieldAt? order bytes (start + 2 + 12 * i)
  let next ← numberAt? order bytes (start + 2 + 12 * count) 4
  if next = start then none
  return ⟨order, bytes, fields⟩

def field? (d : ImageDirectory) (tag : Nat) : Option DirectoryField :=
  d.fields.reverse.find? fun field => field.tag = tag && (kindWidth? field.kind).isSome

/-- The bytes of a field's values, if the file has them. -/
def payload? (d : ImageDirectory) (field : DirectoryField) : Option (List UInt8) := do
  let length := (← kindWidth? field.kind) * field.count
  if length ≤ 4 then return field.inline.take length
  d.bytes.slice? (d.order.number field.inline) length

/-- The values of a field of integers of some kinds. -/
def integers? (d : ImageDirectory) (kinds : List Nat) (field : DirectoryField) : Option (List Nat) := do
  if field.kind ∉ kinds then none
  let width ← kindWidth? field.kind
  let payload ← d.payload? field
  return (groups width field.count payload).map d.order.number

/-- The text of a field. One that fits the field itself must be of ASCII and end in a null, and
loses the nulls at both ends; a longer one ends before its first null and is in UTF-8. -/
def fieldText? (d : ImageDirectory) (field : DirectoryField) : Option String := do
  if field.kind ≠ asciiKind || field.count = 0 then none
  let payload ← d.payload? field
  if field.count ≤ 4 then
    if payload.all (· < 128) && payload.getLast? = some 0 then
      Text.decode? ((payload.dropWhile (· = 0)).reverse.dropWhile (· = 0)).reverse
    else none
  else Text.decode? (payload.takeWhile (· ≠ 0))

/-- The numbers that a field lists. A text lists its code points, and a single rational its
numerator and denominator. -/
def fieldNumbers? (d : ImageDirectory) (field : DirectoryField) : Option (List Nat) :=
  if field.count = 0 then some []
  else if field.kind = asciiKind then (d.fieldText? field).map fun text => text.toList.map Char.toNat
  else if field.kind = rationalKind && field.count = 1 then do
    let payload ← d.payload? field
    return (groups 4 2 payload).map d.order.number
  else d.integers? unsignedKinds field

/-! ### Values that describe the samples

These may be absent, but not unreadable: the outer option is empty where a field cannot be read. -/

def numbers? (d : ImageDirectory) (tag : Nat) : Option (Option (List Nat)) :=
  match d.field? tag with
  | none => some none
  | some field => (d.fieldNumbers? field).map some

/-- A single number of some kinds below a limit. -/
def numberBelow? (d : ImageDirectory) (kinds : List Nat) (limit tag : Nat) : Option (Option Nat) :=
  match d.field? tag with
  | none => some none
  | some field =>
    match field.count, d.integers? kinds field with
    | 1, some [n] => if n < limit then some (some n) else none
    | _, _ => none

/-- A number of 16 bits. -/
def short? (d : ImageDirectory) (tag : Nat) : Option (Option Nat) := d.numberBelow? integerKinds UInt16.size tag

/-- A number of 32 bits. -/
def long? (d : ImageDirectory) (tag : Nat) : Option (Option Nat) := d.numberBelow? unsignedKinds UInt32.size tag

/-! ### Values that are carried along

What cannot be read is as good as absent. -/

def doubles? (d : ImageDirectory) (tag : UInt16) : Option (List Binary64) := do
  let field ← d.field? tag.toNat
  if field.kind ≠ doubleKind && field.count ≠ 0 then none
  let payload ← d.payload? field
  return (groups 8 field.count payload).map fun bytes => .ofBits (d.order.number bytes)

/-- A list of numbers of 16 bits. Numbers of more bits that fit are taken too, but only in a list of
several. -/
def shorts? (d : ImageDirectory) (tag : UInt16) : Option (List UInt16) := do
  let field ← d.field? tag.toNat
  if field.count = 0 then return []
  let kinds := if field.count = 1 then [byteKind, undefinedKind, shortKind] else integerKinds
  let values ← d.integers? kinds field
  if values.all (· < UInt16.size) then return values.map UInt16.ofNat else none

def text? (d : ImageDirectory) (tag : UInt16) : Option String := do d.fieldText? (← d.field? tag.toNat)

end ImageDirectory

end SurfaceWater
