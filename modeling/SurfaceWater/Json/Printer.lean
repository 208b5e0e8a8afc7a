import SurfaceWater.Json.Value

/-!
# Writing JSON

A value as a text, either without any blanks or with one item to a line, indented by two spaces for
each level. Inside strings only quotes, backslashes and control characters are escaped.
-/

namespace SurfaceWater

inductive JsonLayout where
  | compact
  | indented
  deriving DecidableEq, Repr

/-- The line break before an item at a depth. -/
def JsonLayout.lineBreak (layout : JsonLayout) (depth : Nat) : List Char :=
  match layout with
  | compact => []
  | indented => '\n' :: List.replicate (2 * depth) ' '

/-- What stands between a key and its value. -/
def JsonLayout.colon : JsonLayout → List Char
  | compact => [':']
  | indented => [':', ' ']

namespace JsonChar

/-- The escape of a code unit by its number. -/
def unitEscape (unit : Nat) : List Char :=
  '\\' :: 'u' :: [4096, 256, 16, 1].map fun weight => Nat.digitChar (unit / weight % 16)

/-- How an element of a string is written. -/
def write : JsonChar → List Char
  | char '"' => ['\\', '"']
  | char '\\' => ['\\', '\\']
  | char '\x08' => ['\\', 'b']
  | char '\x0c' => ['\\', 'f']
  | char '\n' => ['\\', 'n']
  | char '\r' => ['\\', 'r']
  | char '\t' => ['\\', 't']
  | char c => if c.toNat < 0x20 then unitEscape c.toNat else [c]
  | half unit => unitEscape unit

end JsonChar

namespace Json

def writeString (chars : List JsonChar) : List Char := '"' :: chars.flatMap JsonChar.write ++ ['"']

mutual

/-- The text of a value at a depth. -/
def write (layout : JsonLayout) (depth : Nat) : Json → List Char
  | null => ['n', 'u', 'l', 'l']
  | bool true => ['t', 'r', 'u', 'e']
  | bool false => ['f', 'a', 'l', 's', 'e']
  | number literal => literal
  | string chars => writeString chars
  | array [] => ['[', ']']
  | array (item :: items) =>
    '[' :: layout.lineBreak (depth + 1) ++ item.write layout (depth + 1) ++ writeItems layout (depth + 1) items ++
      layout.lineBreak depth ++ [']']
  | object [] => ['\x7b', '\x7d']
  | object ((key, value) :: members) =>
    '\x7b' :: layout.lineBreak (depth + 1) ++ writeString key ++ layout.colon ++ value.write layout (depth + 1) ++
      writeMembers layout (depth + 1) members ++ layout.lineBreak depth ++ ['\x7d']

def writeItems (layout : JsonLayout) (depth : Nat) : List Json → List Char
  | [] => []
  | item :: items => ',' :: layout.lineBreak depth ++ item.write layout depth ++ writeItems layout depth items

def writeMembers (layout : JsonLayout) (depth : Nat) : List (List JsonChar × Json) → List Char
  | [] => []
  | (key, value) :: members =>
    ',' :: layout.lineBreak depth ++ writeString key ++ layout.colon ++ value.write layout depth ++
      writeMembers layout depth members

end

def render (layout : JsonLayout) (value : Json) : String := String.ofList (value.write layout 0)

end Json

end SurfaceWater
