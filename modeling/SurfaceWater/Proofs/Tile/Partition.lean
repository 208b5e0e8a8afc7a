import Mathlib.Algebra.BigOperators.Ring.Finset
import SurfaceWater.Proofs.Tile.Words
import SurfaceWater.Proofs.Window.Cells

/-!
# The tiles of an area

The tiles of a walk cut its area into parts: every cell of the area is in exactly one of them. That the
parts have as many cells together as the area is then a count of its cells, tile by tile.
-/

namespace SurfaceWater

/-- Tiles of at most a shape cut an area into parts, numbered and ordered from the top, and side by side
from the left. -/
structure Tile.Partitions (tiles : List Tile) (area : Window) (tileRows tileCols : Nat) : Prop where
  numbered : ∀ (k : Nat) (t : Tile), tiles[k]? = some t → t.index = k
  rows : ∀ t ∈ tiles, 0 < t.rows ∧ t.rows ≤ tileRows
  cols : ∀ t ∈ tiles, 0 < t.cols ∧ t.cols ≤ tileCols
  inside : ∀ t ∈ tiles, ∀ cell ∈ t.window, cell ∈ area
  covers : ∀ cell ∈ area, ∃! t, t ∈ tiles ∧ cell ∈ t.window
  ordered : tiles.Pairwise fun s t => s.rowOffset < t.rowOffset ∨ s.rowOffset = t.rowOffset ∧ s.colOffset < t.colOffset

namespace Tile.Partitions

variable {tiles : List Tile} {area : Window} {tileRows tileCols : Nat}

theorem nodup (h : Partitions tiles area tileRows tileCols) : tiles.Nodup := by
  refine h.ordered.imp ?_
  rintro s t hbefore rfl
  omega

/-- The area is the union of the tiles, and these are disjoint. -/
theorem sum_cells (h : Partitions tiles area tileRows tileCols) :
    (tiles.map fun t => t.rows * t.cols).sum = area.size := by
  have hunion : area.cells = tiles.toFinset.biUnion fun t => t.window.cells := by
    ext cell
    simp only [Finset.mem_biUnion, List.mem_toFinset, Window.mem_cells]
    constructor
    · intro hcell
      exact (h.covers cell hcell).exists
    · intro htile
      obtain ⟨t, ht, hcell⟩ := htile
      exact h.inside t ht cell hcell
  have hapart : (tiles.toFinset : Set Tile).PairwiseDisjoint fun t => t.window.cells := by
    intro s hs t ht hne
    rw [Function.onFun, Finset.disjoint_left]
    intro cell hcell hcell'
    rw [Window.mem_cells] at hcell hcell'
    rw [Finset.mem_coe, List.mem_toFinset] at hs ht
    exact hne ((h.covers cell (h.inside s hs cell hcell)).unique ⟨hs, hcell⟩ ⟨ht, hcell'⟩)
  rw [← Window.card_cells, hunion, Finset.card_biUnion hapart, List.sum_toFinset _ h.nodup]
  simp only [Window.card_cells, Window.size, Tile.window]

end Tile.Partitions

namespace TileCursor

variable {c : TileCursor}

/-- The first tile of two is above the second one, or beside it on the left. -/
theorem tileAt_before {j k : Nat} (hjk : j < k) :
    (c.tileAt j).rowOffset < (c.tileAt k).rowOffset ∨
      (c.tileAt j).rowOffset = (c.tileAt k).rowOffset ∧ (c.tileAt j).colOffset < (c.tileAt k).colOffset := by
  have hj := Nat.div_add_mod j c.across
  have hk' := Nat.div_add_mod k c.across
  have hrows := c.tileRows_pos
  have hcols := c.tileCols_pos
  simp only [tileAt, Nat.add_lt_add_iff_left, Nat.add_left_cancel_iff, Nat.mul_lt_mul_right hrows,
    Nat.mul_lt_mul_right hcols]
  rcases Nat.lt_or_eq_of_le (Nat.div_le_div_right (c := c.across) (Nat.le_of_lt hjk)) with hdown | hsame
  · exact .inl hdown
  · rw [hsame] at hj ⊢
    exact .inr ⟨rfl, by omega⟩

theorem partitions (area : Window) (tileRows tileCols : Nat) :
    Tile.Partitions (within area tileRows tileCols).tiles area (max tileRows 1) (max tileCols 1) where
  numbered k t ht := by
    rw [tiles_within, List.getElem?_map, Option.map_eq_some_iff] at ht
    obtain ⟨i, hi, rfl⟩ := ht
    exact (List.getElem?_eq_some_iff.mp hi).choose_spec ▸ List.getElem_range _
  rows t ht := by
    refine ⟨(window_of_mem_tiles ht).1.1, ?_⟩
    obtain ⟨k, -, rfl⟩ := mem_tiles_iff.mp ht
    exact Nat.min_le_left ..
  cols t ht := by
    refine ⟨(window_of_mem_tiles ht).1.2, ?_⟩
    obtain ⟨k, -, rfl⟩ := mem_tiles_iff.mp ht
    exact Nat.min_le_left ..
  inside t ht cell hcell := by
    obtain ⟨k, hk, rfl⟩ := mem_tiles_iff.mp ht
    exact ((mem_tileAt_iff hk).mp hcell).1
  covers cell hcell := by
    obtain ⟨t, ht, htcell⟩ : ∃ t ∈ (within area tileRows tileCols).tiles, cell ∈ t.window := exists_tile_of_mem hcell
    refine ⟨t, ⟨ht, htcell⟩, ?_⟩
    rintro s ⟨hs, hscell⟩
    obtain ⟨j, hj, rfl⟩ := mem_tiles_iff.mp hs
    obtain ⟨k, hk, rfl⟩ := mem_tiles_iff.mp ht
    obtain ⟨-, hrow, hcol⟩ := (mem_tileAt_iff hj).mp hscell
    obtain ⟨-, hrow', hcol'⟩ := (mem_tileAt_iff hk).mp htcell
    -- both tiles stand in the row and column of the grid that the cell is in
    have hplace := Nat.div_add_mod j (within area tileRows tileCols).across
    rw [← hrow, ← hcol, hrow', hcol', Nat.div_add_mod] at hplace
    rw [hplace]
  ordered := by
    rw [tiles_within, List.pairwise_map]
    exact List.pairwise_lt_range.imp tileAt_before

/-- A walk in words partitions its area. It has as many tiles as it says at every point of the way, and
behind the last one nothing more comes, however often it is called. -/
theorem tiles_partition (area : Window) (tileRows tileCols : Nat)
    (hwords : (within area tileRows tileCols).InWords) :
    Tile.Partitions (within area tileRows tileCols).tiles area (max tileRows 1) (max tileCols 1) ∧
      ((within area tileRows tileCols).tiles.map fun t => t.rows * t.cols).sum = area.size ∧
      (within area tileRows tileCols).tiles.length = (within area tileRows tileCols).tileCount ∧
      (area.isEmpty = true → (within area tileRows tileCols).tiles = []) ∧
      ∀ n, ∃ last,
        (within area tileRows tileCols).callsInWords n =
            some ((List.range n).map fun k => (within area tileRows tileCols).tiles[k]?, last) ∧
          last.tileCountInWords = some (within area tileRows tileCols).tileCount := by
  have hlength : (within area tileRows tileCols).tiles.length = (within area tileRows tileCols).tileCount := by
    rw [tiles_within, List.length_map, List.length_range]
  have hparts := partitions area tileRows tileCols
  refine ⟨hparts, hparts.sum_cells, hlength, ?_, ?_⟩
  · intro hempty
    rw [List.eq_nil_iff_length_eq_zero, hlength, tileCount, area_within, if_pos hempty]
  · intro n
    exact ⟨_, callsInWords_within hwords n, tileCountInWords_eq (hwords.place _)⟩

/-- An area of three rows and five columns away from the corner, in tiles of two by two. -/
theorem tiles_partition_clipped :
    (within ⟨7, 1, 3, 5⟩ 2 2).InWords ∧
      Tile.Partitions
        [⟨0, 7, 1, 2, 2⟩, ⟨1, 7, 3, 2, 2⟩, ⟨2, 7, 5, 2, 1⟩, ⟨3, 9, 1, 1, 2⟩, ⟨4, 9, 3, 1, 2⟩, ⟨5, 9, 5, 1, 1⟩]
        ⟨7, 1, 3, 5⟩ 2 2 :=
  have hwords : (within ⟨7, 1, 3, 5⟩ 2 2).InWords := ⟨by decide, by decide, by decide⟩
  ⟨hwords, (tiles_partition ⟨7, 1, 3, 5⟩ 2 2 hwords).1⟩

end TileCursor

end SurfaceWater
