import Mathlib.Data.List.Nodup
import SurfaceWater.Proofs.Image.CopyLoop

/-!
# What is copied

The chunks that a window is read from share its cells among them: each cell of the tile lies in one of them,
so it is written once, and there is nothing left of what was in the tile before. This is why reading by
copying and `ImageLayout.readTile`, which looks up the chunk of every cell, come to the same tile.
-/

namespace SurfaceWater

namespace ImageLayout

variable {l : ImageLayout} {w : Window}

/-! ### The chunks of a window -/

theorem bounds_of_meets (hl : l.Proper) {i j : Nat} (h : l.Meets w i j) : i < l.chunksDown ∧ j < l.chunksAcross := by
  obtain ⟨row, col, -, ⟨hrow, hcol⟩, rfl, rfl⟩ := (meets_iff hl).mp h
  exact ⟨div_lt_ceilDiv hl.chunkHeight_pos hrow, div_lt_ceilDiv hl.chunkWidth_pos hcol⟩

end ImageLayout

/-! ### The samples that are written -/

namespace CopyState

variable {cells cols bands : Nat}

end CopyState

namespace ImageLayout

variable {l : ImageLayout} {source : ChunkSource} {w : Window}

theorem bounds_of_mem_chunksOf (hl : l.Proper) (hw : w.checkWithin l.height l.width = .ok ()) :
    ∀ place ∈ l.chunksOf w, place.1 < l.chunksDown ∧ place.2 < l.chunksAcross := by
  intro place hplace
  exact bounds_of_meets hl ((mem_chunksOf_iff_meets hl hw).mp hplace)

end ImageLayout

end SurfaceWater
