import SurfaceWater.Numeric.Notation

/-!
# JSON values

A JSON text as a value. Numbers keep the literal they were written with, since its digits are
rounded only where a number of a certain precision is asked for. Strings are sequences of
characters, with the exception that an escape may name half of a surrogate pair that has no other
half; such a string stands for no text.
-/

namespace SurfaceWater

/-- An element of a JSON string. -/
inductive JsonChar where
  | char (c : Char)
  | half (unit : Nat)
  deriving DecidableEq, Repr

/-- The character that an element stands for. -/
def JsonChar.char? : JsonChar → Option Char
  | char c => some c
  | half _ => none

inductive Json where
  | null
  | bool (value : Bool)
  | number (literal : List Char)
  | string (chars : List JsonChar)
  | array (items : List Json)
  | object (members : List (List JsonChar × Json))

namespace Json

def text (s : String) : Json := string (s.toList.map JsonChar.char)

/-- An object with the given keys, in their order. -/
def record (members : List (String × Json)) : Json :=
  object (members.map fun (key, value) => (key.toList.map JsonChar.char, value))

/-- The characters of a string, unless a surrogate half is among them. -/
def charsText? (chars : List JsonChar) : Option String := (chars.mapM JsonChar.char?).map String.ofList

def doubleStyle : NumberStyle where
  positionalFrom := some (-5)
  positionalBelow := some 16
  pointZero := true
  plusExponent := true
  tie := .even
  nanText := "null"
  infinityText := "null"
  negativeInfinityText := "null"

def singleStyle : NumberStyle := { doubleStyle with positionalFrom := some (-6), positionalBelow := some 13 }

/-- A number in a style. Values that JSON has no numeral for are null. -/
def ofBinary {f : Format} (style : NumberStyle) (x : Binary f) : Json :=
  if x.isFinite then number (style.write x).toList else null

def ofSingle (x : Binary32) : Json := ofBinary singleStyle x

def ofDouble (x : Binary64) : Json := ofBinary doubleStyle x

def ofNat (n : Nat) : Json := number (Nat.toDigits 10 n)

/-- A value that may be absent. -/
def ofOption {α : Type} (write : α → Json) : Option α → Json
  | none => null
  | some value => write value

end Json

end SurfaceWater
