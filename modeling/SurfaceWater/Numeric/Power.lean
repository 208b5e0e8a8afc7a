/-!
# Powers

The powers of natural numbers that bytes, words and decimal digits are counted with.
-/

namespace SurfaceWater

/-- The power of two natural numbers. Algebra libraries bring one of their own, equal to this one;
with this one preferred, a definition says the same wherever it is read. -/
scoped instance (priority := 2000) powNat : Pow Nat Nat := instPowNat

end SurfaceWater
