import SurfaceWater.Text.Printable

/-!
# Quoted texts

Messages quote the texts they complain about between double quotes. A quote, a backslash and the
common controls are written as an escape of two characters, any other character that is not
printable by its code point.
-/

namespace SurfaceWater.Text

/-- How a character is written between quotes. -/
def quotedChar (c : Char) : List Char :=
  match c with
  | '"' => ['\\', '"']
  | '\\' => ['\\', '\\']
  | '\t' => ['\\', 't']
  | '\n' => ['\\', 'n']
  | '\r' => ['\\', 'r']
  | '\x00' => ['\\', '0']
  | c => if isPrintable c then [c] else '\\' :: 'u' :: '\x7b' :: (Nat.toDigits 16 c.toNat ++ ['\x7d'])

def quote (text : List Char) : String := String.ofList ('"' :: text.flatMap quotedChar ++ ['"'])

end SurfaceWater.Text
