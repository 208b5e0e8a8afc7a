/-!
# Colour models

How the samples of an image are to be understood, and which of these understandings a scene may
have.
-/

namespace SurfaceWater

/-- What the samples of a pixel stand for, with the bits of one sample. -/
inductive ColorModel where
  | gray (bits : Nat)
  | rgb (bits : Nat)
  | palette (bits : Nat)
  | grayAlpha (bits : Nat)
  | rgba (bits : Nat)
  | cmyk (bits : Nat)
  | cmyka (bits : Nat)
  | ycbcr (bits : Nat)
  | lab (bits : Nat)
  | multiband (bits samples : Nat)
  deriving DecidableEq, Repr

namespace ColorModel

/-- The model that a photometric interpretation gives to so many samples, if it has one for them. -/
def ofPhotometric? (photometric samples bits : Nat) : Option ColorModel :=
  match photometric, samples with
  | 1, 1 => some (.gray bits)
  | 1, n => some (.multiband bits n)
  | 2, 3 => some (.rgb bits)
  | 2, 4 => some (.rgba bits)
  | 5, 4 => some (.cmyk bits)
  | 5, 5 => some (.cmyka bits)
  | 6, 3 => some (.ycbcr bits)
  | _, _ => none

/-- The bands of a model whose samples are measurements of 8 or 16 bits. -/
def bands? : ColorModel → Option Nat
  | gray bits => if bits = 8 || bits = 16 then some 1 else none
  | rgb bits => if bits = 8 || bits = 16 then some 3 else none
  | rgba bits => if bits = 8 || bits = 16 then some 4 else none
  | multiband bits samples => if bits = 8 || bits = 16 then some samples else none
  | _ => none

def description : ColorModel → String
  | gray bits => s!"Gray({bits})"
  | rgb bits => s!"RGB({bits})"
  | palette bits => s!"Palette({bits})"
  | grayAlpha bits => s!"GrayA({bits})"
  | rgba bits => s!"RGBA({bits})"
  | cmyk bits => s!"CMYK({bits})"
  | cmyka bits => s!"CMYKA({bits})"
  | ycbcr bits => s!"YCbCr({bits})"
  | lab bits => s!"Lab({bits})"
  | multiband bits samples => s!"Multiband \x7b bit_depth: {bits}, num_samples: {samples} \x7d"

end ColorModel

end SurfaceWater
