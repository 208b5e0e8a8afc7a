import SurfaceWater.Label
import SurfaceWater.Numeric.Binary
import SurfaceWater.Raster

/-!
# Label counts

How many pixels of a result have each label. A tally is kept while strips are produced: it counts
the pixels that are water, those without data, and all of them, and land is what remains. Its
counters are words, which begin again at zero after the last one.
-/

namespace SurfaceWater

structure LabelCounts where
  water : Nat
  land : Nat
  noData : Nat
  deriving DecidableEq, Repr

namespace LabelCounts

def total (c : LabelCounts) : Nat := c.water + c.land + c.noData

/-- A count in percent of the total. -/
def percent (c : LabelCounts) (count : Nat) : Binary64 := 100 * Binary.ofNat count / Binary.ofNat (max c.total 1)

/-- How often each label is in a raster. -/
def ofRaster (r : Raster UInt8) : LabelCounts :=
  ⟨r.cells.count WaterLabel.water.value, r.cells.count WaterLabel.land.value,
    r.cells.count WaterLabel.noData.value⟩

end LabelCounts

structure LabelTally where
  water : UInt64
  noData : UInt64
  labelled : UInt64
  deriving DecidableEq, Repr

namespace LabelTally

def zero : LabelTally := ⟨0, 0, 0⟩

/-- The tally after a further strip of labels. -/
def add (tally : LabelTally) (strip : Raster UInt8) : LabelTally :=
  ⟨tally.water + .ofNat (strip.cells.count WaterLabel.water.value), tally.noData + .ofNat strip.noDataCount,
    tally.labelled + .ofNat strip.size⟩

def counts (tally : LabelTally) : LabelCounts :=
  ⟨tally.water.toNat, (tally.labelled - tally.water - tally.noData).toNat, tally.noData.toNat⟩

end LabelTally

end SurfaceWater
