import Mathlib.Algebra.Order.Field.Rat
import Mathlib.Tactic.Linarith
import Mathlib.Tactic.Ring
import SurfaceWater.GeoTransform

/-!
# Placement in exact numbers

The map from pixels to the ground over the rational numbers. A scale and a tiepoint say which map without rotation
it is, and which point of the raster is known on the ground. The bounds of a raster are put around its four corners
only; since each coordinate changes by the same amount from one column or row to the next, whatever its sign, it is
nowhere in the raster less than at all corners or greater than at all of them.
-/

namespace SurfaceWater

/-- A point on the ground lies in a rectangle, or on its border. -/
structure Bounds.Contains (b : Bounds ℚ) (point : ℚ × ℚ) : Prop where
  minX_le : b.minX ≤ point.1
  le_maxX : point.1 ≤ b.maxX
  minY_le : b.minY ≤ point.2
  le_maxY : point.2 ≤ b.maxY

namespace GeoTransform

variable {t : GeoTransform ℚ} {scale tiepoint : List ℚ} {width height col row : Nat}

/-! ### Tiepoints -/

/-- Where a point of the raster is, which need not be the corner of a pixel. -/
def place (t : GeoTransform ℚ) (col row : ℚ) : ℚ × ℚ :=
  (t.originX + col * t.pixelWidth + row * t.rowRotation, t.originY + col * t.colRotation + row * t.pixelHeight)

theorem corner_eq_place : t.corner col row = t.place col row := rfl

/-- What a scale and a tiepoint say: the size of a pixel, and a point of the raster with its place on the ground. -/
structure Tie where
  pixelWidth : ℚ
  pixelHeight : ℚ
  col : ℚ
  row : ℚ
  x : ℚ
  y : ℚ

/-- The numbers of a scale and a tiepoint, which has two more for heights. -/
structure Tie.IsIn (tie : Tie) (scale tiepoint : List ℚ) : Prop where
  pixelWidth_eq : scale[0]? = some tie.pixelWidth
  pixelHeight_eq : scale[1]? = some tie.pixelHeight
  col_eq : tiepoint[0]? = some tie.col
  row_eq : tiepoint[1]? = some tie.row
  x_eq : tiepoint[3]? = some tie.x
  y_eq : tiepoint[4]? = some tie.y
  complete : 6 ≤ tiepoint.length

/-- The map has pixels of the size with north up, and puts the point where it is known to be. -/
structure Tie.Places (tie : Tie) (t : GeoTransform ℚ) : Prop where
  pixelWidth_eq : t.pixelWidth = tie.pixelWidth
  pixelHeight_eq : t.pixelHeight = -tie.pixelHeight
  rowRotation_eq : t.rowRotation = 0
  colRotation_eq : t.colRotation = 0
  place_eq : t.place tie.col tie.row = (tie.x, tie.y)

theorem Tie.exists_isIn_iff : (∃ tie : Tie, tie.IsIn scale tiepoint) ↔ 2 ≤ scale.length ∧ 6 ≤ tiepoint.length := by
  constructor
  · intro h
    obtain ⟨tie, htie⟩ := h
    exact ⟨(List.getElem?_eq_some_iff.mp htie.pixelHeight_eq).1, htie.complete⟩
  · intro h
    obtain ⟨hscale, htiepoint⟩ := h
    exact ⟨⟨scale[0], scale[1], tiepoint[0], tiepoint[1], tiepoint[3], tiepoint[4]⟩,
      by simp, by simp, by simp, by simp, by simp, by simp, htiepoint⟩

/-- A tie is kept by one map only. -/
theorem Tie.places_iff {tie : Tie} : tie.Places t ↔
    t = aligned (tie.x - tie.col * tie.pixelWidth) (tie.y + tie.row * tie.pixelHeight) tie.pixelWidth (-tie.pixelHeight) := by
  constructor
  · intro h
    have hplace := h.place_eq
    rw [place, h.pixelWidth_eq, h.pixelHeight_eq, h.rowRotation_eq, h.colRotation_eq, Prod.mk.injEq] at hplace
    obtain ⟨hx, hy⟩ := hplace
    have horiginX : t.originX = tie.x - tie.col * tie.pixelWidth := by linarith
    have horiginY : t.originY = tie.y + tie.row * tie.pixelHeight := by linarith
    rw [aligned, ← horiginX, ← horiginY, ← h.pixelWidth_eq, ← h.pixelHeight_eq]
    cases t
    congr 1
    · exact h.rowRotation_eq
    · exact h.colRotation_eq
  · intro h
    subst h
    refine ⟨rfl, rfl, rfl, rfl, Prod.ext ?_ ?_⟩
    · simp only [place, aligned]
      ring
    · simp only [place, aligned]
      ring

/-- A scale and a tiepoint with all their numbers give the one map that keeps their tie, and no others give a map. -/
theorem ofTiepoint?_eq_some_iff : ofTiepoint? scale tiepoint = some t ↔
    ∃ tie : Tie, tie.IsIn scale tiepoint ∧ tie.Places t := by
  simp only [Tie.places_iff]
  unfold ofTiepoint?
  split
  case h_1 pixelWidth pixelHeight _ i j _ x y _ _ =>
    rw [Option.some.injEq]
    constructor
    · intro h
      subst h
      exact ⟨⟨pixelWidth, pixelHeight, i, j, x, y⟩, ⟨rfl, rfl, rfl, rfl, rfl, rfl, by simp⟩, rfl⟩
    · intro h
      obtain ⟨tie, ⟨hwidth, hheight, hcol, hrow, hx, hy, -⟩, rfl⟩ := h
      cases hwidth
      cases hheight
      cases hcol
      cases hrow
      cases hx
      cases hy
      rfl
  case h_2 hshort =>
    refine iff_of_false (by simp) fun h => ?_
    obtain ⟨tie, htie, -⟩ := h
    obtain ⟨hscale, htiepoint⟩ := Tie.exists_isIn_iff.mp ⟨tie, htie⟩
    match scale, tiepoint, hscale, htiepoint with
    | _ :: _ :: _, _ :: _ :: _ :: _ :: _ :: _ :: _, _, _ => exact hshort _ _ _ _ _ _ _ _ _ _ rfl rfl

/-- The first rows of a matrix with the origin and the steps of the map, whatever stands in the columns for heights. -/
def IsMatrix (t : GeoTransform ℚ) (matrix : List ℚ) : Prop :=
  ∃ x y rest, matrix = t.pixelWidth :: t.rowRotation :: x :: t.originX :: t.colRotation :: t.pixelHeight :: y ::
    t.originY :: rest

theorem ofMatrix?_eq_some_iff {matrix : List ℚ} : ofMatrix? matrix = some t ↔ t.IsMatrix matrix := by
  constructor
  · unfold ofMatrix?
    split
    · intro h
      cases h
      exact ⟨_, _, _, rfl⟩
    · intro h
      cases h
  · intro h
    obtain ⟨x, y, rest, rfl⟩ := h
    rfl

/-! ### A coordinate over the raster -/

/-- A corner of the raster, given by the lines between columns and rows that cross there. -/
def IsCorner (width height col row : Nat) : Prop := (col = 0 ∨ col = width) ∧ (row = 0 ∨ row = height)

/-- A coordinate that changes by one amount from column to column and by another one from row to row. -/
def coordinate (origin colStep rowStep : ℚ) (col row : Nat) : ℚ := origin + col * colStep + row * rowStep

/-- Of two ends a multiple of a step is at one no greater than anywhere between them. -/
theorem exists_end_le {size n : Nat} (hn : n ≤ size) (step : ℚ) :
    ∃ e : Nat, (e = 0 ∨ e = size) ∧ (e : ℚ) * step ≤ n * step := by
  rcases le_total 0 step with hstep | hstep
  · have hfirst : ((0 : Nat) : ℚ) ≤ n := by exact_mod_cast Nat.zero_le n
    exact ⟨0, .inl rfl, mul_le_mul_of_nonneg_right hfirst hstep⟩
  · have hlast : (n : ℚ) ≤ size := by exact_mod_cast hn
    exact ⟨size, .inr rfl, mul_le_mul_of_nonpos_right hlast hstep⟩

theorem exists_corner_le (hcol : col ≤ width) (hrow : row ≤ height) (origin colStep rowStep : ℚ) :
    ∃ c r, IsCorner width height c r ∧
      coordinate origin colStep rowStep c r ≤ coordinate origin colStep rowStep col row := by
  obtain ⟨c, hc, hle⟩ := exists_end_le hcol colStep
  obtain ⟨r, hr, hle'⟩ := exists_end_le hrow rowStep
  refine ⟨c, r, ⟨hc, hr⟩, ?_⟩
  rw [coordinate, coordinate]
  linarith

theorem exists_le_corner (hcol : col ≤ width) (hrow : row ≤ height) (origin colStep rowStep : ℚ) :
    ∃ c r, IsCorner width height c r ∧
      coordinate origin colStep rowStep col row ≤ coordinate origin colStep rowStep c r := by
  -- where the opposite coordinate is least
  obtain ⟨c, r, hcorner, hle⟩ := exists_corner_le hcol hrow (-origin) (-colStep) (-rowStep)
  refine ⟨c, r, hcorner, ?_⟩
  rw [coordinate, coordinate] at hle ⊢
  linarith

/-! ### The bounds -/

/-- The least of four values at the corners. -/
theorem least_corner {K : Type} [LinearOrder K] (value : Nat → Nat → K) (width height : Nat) :
    (∃ c r, IsCorner width height c r ∧
      value c r = min (min (min (value 0 0) (value width 0)) (value 0 height)) (value width height)) ∧
    ∀ c r, IsCorner width height c r →
      min (min (min (value 0 0) (value width 0)) (value 0 height)) (value width height) ≤ value c r := by
  constructor
  · rcases min_choice (min (min (value 0 0) (value width 0)) (value 0 height)) (value width height) with h | h
    · rw [h]
      rcases min_choice (min (value 0 0) (value width 0)) (value 0 height) with h | h
      · rw [h]
        rcases min_choice (value 0 0) (value width 0) with h | h
        · exact ⟨0, 0, ⟨.inl rfl, .inl rfl⟩, h.symm⟩
        · exact ⟨width, 0, ⟨.inr rfl, .inl rfl⟩, h.symm⟩
      · exact ⟨0, height, ⟨.inl rfl, .inr rfl⟩, h.symm⟩
    · exact ⟨width, height, ⟨.inr rfl, .inr rfl⟩, h.symm⟩
  · intro c r h
    obtain ⟨rfl | rfl, rfl | rfl⟩ := h <;> simp

/-- The greatest of them, which is the least in the opposite order. -/
theorem greatest_corner (value : Nat → Nat → ℚ) (width height : Nat) :
    (∃ c r, IsCorner width height c r ∧
      value c r = max (max (max (value 0 0) (value width 0)) (value 0 height)) (value width height)) ∧
    ∀ c r, IsCorner width height c r →
      value c r ≤ max (max (max (value 0 0) (value width 0)) (value 0 height)) (value width height) :=
  least_corner (K := OrderDual ℚ) value width height

/-- A rectangle has all corners of pixels of a raster in it, and each of its sides goes through a corner of the
raster. -/
structure BoundedBy (t : GeoTransform ℚ) (width height : Nat) (b : Bounds ℚ) : Prop where
  contains : ∀ col row, col ≤ width → row ≤ height → b.Contains (t.corner col row)
  minX_attained : ∃ col row, IsCorner width height col row ∧ (t.corner col row).1 = b.minX
  minY_attained : ∃ col row, IsCorner width height col row ∧ (t.corner col row).2 = b.minY
  maxX_attained : ∃ col row, IsCorner width height col row ∧ (t.corner col row).1 = b.maxX
  maxY_attained : ∃ col row, IsCorner width height col row ∧ (t.corner col row).2 = b.maxY

theorem boundedBy_bounds (t : GeoTransform ℚ) (width height : Nat) : t.BoundedBy width height (t.bounds width height) := by
  obtain ⟨hminX, hleastX⟩ := least_corner (fun c r => (t.corner c r).1) width height
  obtain ⟨hminY, hleastY⟩ := least_corner (fun c r => (t.corner c r).2) width height
  obtain ⟨hmaxX, hgreatestX⟩ := greatest_corner (fun c r => (t.corner c r).1) width height
  obtain ⟨hmaxY, hgreatestY⟩ := greatest_corner (fun c r => (t.corner c r).2) width height
  refine ⟨fun col row hcol hrow => ⟨?_, ?_, ?_, ?_⟩, hminX, hminY, hmaxX, hmaxY⟩
  · obtain ⟨c, r, hcorner, hle⟩ := exists_corner_le hcol hrow t.originX t.pixelWidth t.rowRotation
    exact (hleastX c r hcorner).trans hle
  · obtain ⟨c, r, hcorner, hle⟩ := exists_le_corner hcol hrow t.originX t.pixelWidth t.rowRotation
    exact hle.trans (hgreatestX c r hcorner)
  · obtain ⟨c, r, hcorner, hle⟩ := exists_corner_le hcol hrow t.originY t.colRotation t.pixelHeight
    exact (hleastY c r hcorner).trans hle
  · obtain ⟨c, r, hcorner, hle⟩ := exists_le_corner hcol hrow t.originY t.colRotation t.pixelHeight
    exact hle.trans (hgreatestY c r hcorner)

/-! ### Placement -/

/-- A scale and a tiepoint that are long enough give the one map that has their size of a pixel, has north up and puts
the tied point of the raster at its place on the ground. A matrix with the origin and the steps of that map and without
rotation gives the same map. Whatever map a raster is placed by, all corners of its pixels are within the bounds, and
the bounds are nowhere wider than that needs. -/
theorem placement_exact :
    (∀ scale tiepoint : List ℚ,
      ((∃ t, ofTiepoint? scale tiepoint = some t) ↔ 2 ≤ scale.length ∧ 6 ≤ tiepoint.length) ∧
      ∀ t, ofTiepoint? scale tiepoint = some t ↔ ∃ tie : Tie, tie.IsIn scale tiepoint ∧ tie.Places t) ∧
    (∀ (tie : Tie) t, tie.Places t →
      (∀ col row : Nat, tie.col = col → tie.row = row → t.corner col row = (tie.x, tie.y)) ∧
      ∀ (a b : ℚ) rest,
        ofMatrix? (tie.pixelWidth :: 0 :: a :: t.originX :: 0 :: -tie.pixelHeight :: b :: t.originY :: rest) = some t) ∧
    ∀ (t : GeoTransform ℚ) width height, t.BoundedBy width height (t.bounds width height) := by
  refine ⟨fun scale tiepoint => ⟨?_, fun t => ofTiepoint?_eq_some_iff⟩, fun tie t h => ⟨?_, ?_⟩, boundedBy_bounds⟩
  · rw [← Tie.exists_isIn_iff]
    constructor
    · intro hmap
      obtain ⟨t, ht⟩ := hmap
      obtain ⟨tie, htie, -⟩ := ofTiepoint?_eq_some_iff.mp ht
      exact ⟨tie, htie⟩
    · intro htie
      obtain ⟨tie, htie⟩ := htie
      exact ⟨_, ofTiepoint?_eq_some_iff.mpr ⟨tie, htie, Tie.places_iff.mpr rfl⟩⟩
  · intro col row hcol hrow
    rw [corner_eq_place, ← hcol, ← hrow, h.place_eq]
  · intro a b rest
    refine ofMatrix?_eq_some_iff.mpr ⟨a, b, rest, ?_⟩
    rw [h.pixelWidth_eq, h.pixelHeight_eq, h.rowRotation_eq, h.colRotation_eq]

/-- Pixels of 2 by 3 with the corner of the pixel in column 1 and row 4 at (500, 700), and a raster of 3 by 2 pixels that
is mirrored and rotated. -/
theorem placement_exact_mirrored :
    ofTiepoint? [2, 3, 0] [1, 4, 0, 500, 700, 0] = some (aligned (498 : ℚ) 712 2 (-3)) ∧
      (aligned (498 : ℚ) 712 2 (-3)).corner 1 4 = (500, 700) ∧
      ofMatrix? [2, 0, 0, 498, 0, -3, 0, 712] = some (aligned (498 : ℚ) 712 2 (-3)) ∧
      BoundedBy ⟨100, 200, -2, 3, 1 / 2, -1 / 3⟩ 3 2 ⟨94, 199, 101, 206⟩ := by
  obtain ⟨htiepoint, hties, hbounds⟩ := placement_exact
  have hplaces : Tie.Places ⟨2, 3, 1, 4, 500, 700⟩ (aligned (498 : ℚ) 712 2 (-3)) :=
    ⟨rfl, rfl, rfl, rfl, by decide +kernel⟩
  have hrectangle : bounds (⟨100, 200, -2, 3, 1 / 2, -1 / 3⟩ : GeoTransform ℚ) 3 2 = ⟨94, 199, 101, 206⟩ := by
    decide +kernel
  refine ⟨?_, ?_, ?_, ?_⟩
  · exact ((htiepoint _ _).2 _).mpr ⟨_, ⟨rfl, rfl, rfl, rfl, rfl, rfl, by decide⟩, hplaces⟩
  · exact (hties _ _ hplaces).1 1 4 rfl rfl
  · exact (hties _ _ hplaces).2 0 0 []
  · rw [← hrectangle]
    exact hbounds _ 3 2

end GeoTransform

end SurfaceWater
