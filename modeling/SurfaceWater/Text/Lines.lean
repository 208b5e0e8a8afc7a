/-!
# Lines

A byte sequence as the lines of a text file. A line ends at a line feed, and a carriage return just
before the line feed belongs to the line end; what follows the last line feed is a line only if it
is not empty.
-/

namespace SurfaceWater.Text

/-- The parts of a list between the occurrences of a separator. There is always one more part than
separators. -/
def segments {α : Type} [DecidableEq α] (separator : α) : List α → List (List α)
  | [] => [[]]
  | item :: rest =>
    if item = separator then [] :: segments separator rest
    else match segments separator rest with
      | [] => [[item]]
      | part :: parts => (item :: part) :: parts

def lineFeed : UInt8 := 10

def carriageReturn : UInt8 := 13

/-- A line without the carriage return at its end. -/
def dropReturn (line : List UInt8) : List UInt8 :=
  if line.getLast? = some carriageReturn then line.dropLast else line

def lines (bytes : List UInt8) : List (List UInt8) :=
  let parts := segments lineFeed bytes
  parts.dropLast.map dropReturn ++ (parts.getLast?.toList.filter fun part => !part.isEmpty)

/-- The text that bytes encode in UTF-8. -/
def decode? (bytes : List UInt8) : Option String := String.fromUTF8? bytes.toByteArray

/-- The bytes of a text in UTF-8. -/
def encode (text : String) : List UInt8 := text.toUTF8.data.toList

end SurfaceWater.Text
