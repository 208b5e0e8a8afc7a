import SurfaceWater.Image.Codec
import SurfaceWater.Tile

/-!
# Image layouts

The shape of a multiband image, the chunks that it is kept in, and the value that marks its missing
pixels.
-/

namespace SurfaceWater

structure ImageLayout where
  width : Nat
  height : Nat
  /-- Samples of one pixel. -/
  bands : Nat
  chunkWidth : Nat
  chunkHeight : Nat
  /-- The value declared for missing data. -/
  noData : Option Binary64
  deriving DecidableEq

namespace ImageLayout

def chunksAcross (l : ImageLayout) : Nat := ceilDiv l.width l.chunkWidth

def chunksDown (l : ImageLayout) : Nat := ceilDiv l.height l.chunkHeight

/-- Chunks have the full width of the image. -/
def isStriped (l : ImageLayout) : Bool := l.width ≤ l.chunkWidth

def fullWindow (l : ImageLayout) : Window := .full l.height l.width

/-- The sample value of missing pixels: a pixel is missing when all its samples have it. Without a
declared value it is zero; a declared value that no sample can have masks nothing. -/
def maskValue (l : ImageLayout) : Option UInt16 :=
  match l.noData with
  | none => some 0
  | some value =>
    match value.magnitude? with
    | none => none
    | some units =>
      let one := 2 ^ Format.double.scale
      if units % one = 0 ∧ units / one < UInt16.size ∧ (!value.isNegative ∨ units = 0) then
        some (UInt16.ofNat (units / one))
      else none

/-- The part of the image in the chunk of a chunk row and column. -/
def chunkWindow (l : ImageLayout) (chunkRow chunkCol : Nat) : Window :=
  let row := chunkRow * l.chunkHeight
  let col := chunkCol * l.chunkWidth
  ⟨row, col, min l.chunkHeight (l.height - row), min l.chunkWidth (l.width - col)⟩

/-- The tag of the text that declares the value of missing data. -/
def noDataTag : UInt16 := 42113

/-- The arrangement in which every band is kept apart from the others. -/
def bandsApart : UInt16 := 2

/-- The layout of an image, if its samples are of a kind that is used. -/
def ofImage (image : DecodedImage) : Except Error ImageLayout := do
  let some (width, height) := image.dimensions? | throw (.image .noDimensions)
  let some model := image.colorModel? | throw (.image .noColorModel)
  let some bands := model.bands? | throw (.data (.color model))
  let some planarity := image.planarity? | throw (.image .noPlanarity)
  if planarity = some bandsApart then throw (.data .planar)
  let (chunkWidth, chunkHeight) := image.chunkDimensions
  let noData := (image.text? noDataTag).bind fun text =>
    Binary.read? (String.ofList (Text.dropTrailing (· = '\x00') (Text.trim text.toList)))
  if width = 0 ∨ height = 0 then throw (.dimensions width.toNat height.toNat)
  return ⟨width.toNat, height.toNat, bands, max chunkWidth.toNat 1, max chunkHeight.toNat 1, noData⟩

end ImageLayout

end SurfaceWater
