import SurfaceWater.Json.Value

/-!
# Reading JSON

A text as the value it writes. Blanks may stand around every token, a numeral has no superfluous
leading zero and a digit on both sides of its point, strings hold no bare control characters, and
nothing follows the value.
-/

namespace SurfaceWater.Json

def isSpace (c : Char) : Bool := c = ' ' || c = '\n' || c = '\t' || c = '\r'

def skipSpace (text : List Char) : List Char := text.dropWhile isSpace

/-! ### Numbers -/

/-- The digits at the front of a text and the rest, if there is a digit. -/
def digits? (text : List Char) : Option (List Char × List Char) :=
  match text.span Char.isDigit with
  | ([], _) => none
  | parts => some parts

/-- The whole part of a numeral: a zero, or digits that start with none. -/
def wholePart? : List Char → Option (List Char × List Char)
  | '0' :: rest => match rest with
    | c :: _ => if c.isDigit then none else some (['0'], rest)
    | [] => some (['0'], [])
  | text => digits? text

/-- The fraction of a numeral with its point, if it has one. -/
def fractionPart? : List Char → Option (List Char × List Char)
  | '.' :: rest => (digits? rest).map fun (digits, tail) => ('.' :: digits, tail)
  | text => some ([], text)

/-- The exponent of a numeral with its mark, if it has one. -/
def exponentPart? : List Char → Option (List Char × List Char)
  | mark :: rest =>
    if mark = 'e' || mark = 'E' then
      match rest with
      | '+' :: tail => (digits? tail).map fun (digits, after) => (mark :: '+' :: digits, after)
      | '-' :: tail => (digits? tail).map fun (digits, after) => (mark :: '-' :: digits, after)
      | tail => (digits? tail).map fun (digits, after) => (mark :: digits, after)
    else some ([], mark :: rest)
  | [] => some ([], [])

/-- The numeral at the front of a text. -/
def numeral? (text : List Char) : Option (List Char × List Char) := do
  let (sign, unsigned) := match text with
    | '-' :: rest => (['-'], rest)
    | _ => ([], text)
  let (whole, afterWhole) ← wholePart? unsigned
  let (fraction, afterFraction) ← fractionPart? afterWhole
  let (exponent, rest) ← exponentPart? afterFraction
  some (sign ++ whole ++ fraction ++ exponent, rest)

/-! ### Strings -/

def hexDigit? (c : Char) : Option Nat :=
  if c.isDigit then some (c.toNat - 48)
  else if 'a' ≤ c ∧ c ≤ 'f' then some (c.toNat - 87)
  else if 'A' ≤ c ∧ c ≤ 'F' then some (c.toNat - 55)
  else none

/-- The code unit of four hexadecimal digits. -/
def codeUnit? : List Char → Option (Nat × List Char)
  | a :: b :: c :: d :: rest => do
    let a ← hexDigit? a
    let b ← hexDigit? b
    let c ← hexDigit? c
    let d ← hexDigit? d
    some (((a * 16 + b) * 16 + c) * 16 + d, rest)
  | _ => none

/-- Escapes of one letter. -/
def letterEscape? : Char → Option Char
  | '"' => some '"'
  | '\\' => some '\\'
  | '/' => some '/'
  | 'b' => some '\x08'
  | 'f' => some '\x0c'
  | 'n' => some '\n'
  | 'r' => some '\r'
  | 't' => some '\t'
  | _ => none

def isLead (unit : Nat) : Bool := 0xD800 ≤ unit && unit < 0xDC00

def isTrail (unit : Nat) : Bool := 0xDC00 ≤ unit && unit < 0xE000

/-- The element that a code unit stands for, together with the rest of a text that may hold its
other half. -/
def unitChar (unit : Nat) (rest : List Char) : JsonChar × List Char :=
  if isLead unit then
    match rest with
    | '\\' :: 'u' :: tail =>
      match codeUnit? tail with
      | some (trail, after) =>
        if isTrail trail then (.char (Char.ofNat (0x10000 + (unit - 0xD800) * 0x400 + (trail - 0xDC00))), after)
        else (.half unit, rest)
      | none => (.half unit, rest)
    | _ => (.half unit, rest)
  else if isTrail unit then (.half unit, rest)
  else (.char (Char.ofNat unit), rest)

/-- The rest of a string after its opening quote. The first number bounds the characters read. -/
def stringTail? : Nat → List Char → Option (List JsonChar × List Char)
  | 0, _ => none
  | _ + 1, '"' :: rest => some ([], rest)
  | fuel + 1, '\\' :: 'u' :: rest => do
    let (unit, afterUnit) ← codeUnit? rest
    let (first, afterFirst) := unitChar unit afterUnit
    let (chars, tail) ← stringTail? fuel afterFirst
    some (first :: chars, tail)
  | fuel + 1, '\\' :: letter :: rest => do
    let c ← letterEscape? letter
    let (chars, tail) ← stringTail? fuel rest
    some (.char c :: chars, tail)
  | fuel + 1, c :: rest =>
    if c = '\\' || c.toNat < 0x20 then none
    else do
      let (chars, tail) ← stringTail? fuel rest
      some (.char c :: chars, tail)
  | _ + 1, [] => none

/-- The string at the front of a text. -/
def string? : List Char → Option (List JsonChar × List Char)
  | '"' :: rest => stringTail? (rest.length + 1) rest
  | _ => none

/-! ### Values -/

/-- A word at the front of a text. -/
def word? (word : List Char) (value : Json) (text : List Char) : Option (Json × List Char) :=
  if word.isPrefixOf text then some (value, text.drop word.length) else none

mutual

/-- The value at the front of a text, after blanks. The first number bounds the tokens read. -/
def value? : Nat → List Char → Option (Json × List Char)
  | 0, _ => none
  | fuel + 1, text =>
    match skipSpace text with
    | '[' :: rest =>
      match skipSpace rest with
      | ']' :: tail => some (.array [], tail)
      | items => (items? fuel items).map fun (items, tail) => (.array items, tail)
    | '\x7b' :: rest =>
      match skipSpace rest with
      | '\x7d' :: tail => some (.object [], tail)
      | members => (members? fuel members).map fun (members, tail) => (.object members, tail)
    | '"' :: rest => (string? ('"' :: rest)).map fun (chars, tail) => (.string chars, tail)
    | 'n' :: rest => word? ['n', 'u', 'l', 'l'] .null ('n' :: rest)
    | 't' :: rest => word? ['t', 'r', 'u', 'e'] (.bool true) ('t' :: rest)
    | 'f' :: rest => word? ['f', 'a', 'l', 's', 'e'] (.bool false) ('f' :: rest)
    | other => (numeral? other).map fun (literal, tail) => (.number literal, tail)

/-- One or more items with commas between them, up to the bracket that closes them. -/
def items? : Nat → List Char → Option (List Json × List Char)
  | 0, _ => none
  | fuel + 1, text => do
    let (item, afterItem) ← value? fuel text
    match skipSpace afterItem with
    | ']' :: tail => some ([item], tail)
    | ',' :: rest => do
      let (items, tail) ← items? fuel rest
      some (item :: items, tail)
    | _ => none

/-- One or more members with commas between them, up to the brace that closes them. -/
def members? : Nat → List Char → Option (List (List JsonChar × Json) × List Char)
  | 0, _ => none
  | fuel + 1, text => do
    let (key, afterKey) ← string? (skipSpace text)
    match skipSpace afterKey with
    | ':' :: rest => do
      let (value, afterValue) ← value? fuel rest
      match skipSpace afterValue with
      | '\x7d' :: tail => some ([(key, value)], tail)
      | ',' :: rest => do
        let (members, tail) ← members? fuel rest
        some ((key, value) :: members, tail)
      | _ => none
    | _ => none

end

def parse? (text : List Char) : Option Json := do
  let (value, tail) ← value? (2 * text.length + 2) text
  if (skipSpace tail).isEmpty then some value else none

end SurfaceWater.Json
