import Mathlib.Algebra.Order.BigOperators.Group.List
import Mathlib.Algebra.Order.Group.Nat
import SurfaceWater.Detection.WaterDetection
import SurfaceWater.Image.Uncompressed
import SurfaceWater.Proofs.Blocks
import SurfaceWater.Proofs.Detection.Plan
import SurfaceWater.Proofs.Tile.Words

/-!
# Plans in words

A plan as a machine makes it and counts its tiles, in words of 64 bits. The sizes of an image and of its
chunks come from fields of 32 bits. A size that was asked for may be as large as it likes, because it is cut
to the image before anything is done with it. So no number in a plan, in its count or in a walk through one
of its strips is as large as the number of pixels, except that the rounding up to whole chunks may go beyond
the image by a chunk.
-/

namespace SurfaceWater

/-- The sizes of an image and of its chunks have 32 bits. -/
structure ImageLayout.InHalfWords (l : ImageLayout) : Prop where
  width : l.width < UInt32.size
  height : l.height < UInt32.size
  chunkWidth : l.chunkWidth < UInt32.size
  chunkHeight : l.chunkHeight < UInt32.size

/-- Words hold any two numbers of 32 bits together. -/
theorem Word.mul_lt {m n : Nat} (hm : m < UInt32.size) (hn : n < UInt32.size) : m * n < Word.count :=
  Nat.mul_lt_mul'' hm hn

theorem roundUp_lt {length size : Nat} (hsize : 0 < size) : roundUp length size < length + size := by
  rcases Nat.eq_zero_or_pos (ceilDiv length size) with hzero | hpos
  · rw [roundUp, hzero, Nat.zero_mul]
    exact Nat.add_pos_right length hsize
  · have hlast : (ceilDiv length size - 1) * size < length := (lt_ceilDiv_iff hsize).mp (Nat.sub_lt hpos Nat.one_pos)
    rw [roundUp]
    rw [Nat.sub_mul, Nat.one_mul] at hlast
    omega

/-- `roundUp` in words. -/
def Word.roundUp? (length size : Nat) : Option Nat := do
  let pieces ← Word.ceilDiv? length size
  Word.mul? pieces size

theorem Word.roundUp?_eq {length size : Nat} (hsize : 0 < size) (hsum : length + size ≤ Word.count) :
    Word.roundUp? length size = some (roundUp length size) := by
  have hlt : roundUp length size < length + size := roundUp_lt hsize
  rw [Word.roundUp?, Word.ceilDiv?_eq hsize (by omega)]
  exact Word.mul?_of_lt (show roundUp length size < Word.count by omega)

namespace DetectionPlan

/-- `ofLayout` in words. A product that is cut off at the largest word has no answer here. -/
def ofLayoutInWords (layout : ImageLayout) (tileSize workers : Nat) : Option DetectionPlan :=
  let stripRows := min tileSize layout.height
  if layout.isStriped then do
    let band ← Word.ceilDiv? stripRows (max workers 1)
    let rows ← Word.roundUp? band layout.chunkHeight
    some ⟨layout.height, layout.width, stripRows, min rows stripRows, layout.width⟩
  else do
    let cols ← Word.roundUp? (min tileSize layout.width) layout.chunkWidth
    some ⟨layout.height, layout.width, stripRows, stripRows, min cols layout.width⟩

/-- How many tiles the strip of a number has, in words. -/
def stripCountInWords (plan : DetectionPlan) (k : Nat) : Option Nat := do
  let row ← Word.mul? k plan.stripRows
  let left ← Word.sub? plan.height row
  (plan.stripTiles row (min plan.stripRows left)).tileCountInWords

/-- `tileCount` in words. -/
def tileCountInWords (plan : DetectionPlan) : Option Nat := do
  let strips ← Word.ceilDiv? plan.height plan.stripRows
  let counts ← (List.range strips).mapM plan.stripCountInWords
  Word.sum? counts

variable {plan : DetectionPlan} {l : ImageLayout}

theorem ofLayoutInWords_eq (hl : l.Proper) (hhalf : l.InHalfWords) (tileSize workers : Nat) :
    ofLayoutInWords l tileSize workers = some (ofLayout l tileSize workers) := by
  have hwords : UInt32.size + UInt32.size ≤ Word.count := by decide
  have hwidth := hhalf.width
  have hheight := hhalf.height
  have hchunkWidth := hhalf.chunkWidth
  have hchunkHeight := hhalf.chunkHeight
  unfold ofLayoutInWords ofLayout
  dsimp only
  split
  · have hworkers : 0 < max workers 1 := by omega
    have hband : ceilDiv (min tileSize l.height) (max workers 1) ≤ min tileSize l.height := ceilDiv_le hworkers
    rw [Word.ceilDiv?_eq hworkers (by omega)]
    simp only [Option.bind_eq_bind, Option.bind_some]
    rw [Word.roundUp?_eq hl.chunkHeight_pos (by omega), Option.bind_some]
  · rw [Word.roundUp?_eq hl.chunkWidth_pos (by omega)]
    rfl

/-! ### Strips and their tiles -/

/-- The strips that are asked for are those of the plan. -/
theorem strips_requested (hplan : plan.Follows l) :
    LabelFile.strips plan.height (min plan.stripRows plan.height) plan.height 0 = plan.strips := by
  rw [Nat.min_eq_left hplan.stripRows_le]
  rfl

variable {rowOffset rows : Nat}

theorem inWords_stripTiles (hplan : plan.Follows l) (hhalf : l.InHalfWords)
    (hstrip : (rowOffset, rows) ∈ plan.strips) : (plan.stripTiles rowOffset rows).InWords := by
  obtain ⟨-, -, hend⟩ := LabelFile.strip_bounds hplan.stripRows_pos hstrip
  have hwords : UInt32.size + UInt32.size < Word.count := by decide
  have hheight : plan.height < UInt32.size := hplan.height_eq ▸ hhalf.height
  have hwidth : plan.width < UInt32.size := hplan.width_eq ▸ hhalf.width
  have hstripRows := hplan.stripRows_le
  have htileRows := hplan.tileRows_le
  have htileCols := hplan.tileCols_le
  refine ⟨?_, ?_, ?_⟩
  · rw [stripTiles_tileRows hplan]
    show rowOffset + rows + plan.tileRows < Word.count
    omega
  · rw [stripTiles_tileCols hplan]
    show 0 + plan.width + plan.tileCols < Word.count
    omega
  · exact Word.mul_lt (show rows < UInt32.size by omega) hwidth

theorem tileCount_eq_sum (plan : DetectionPlan) :
    plan.tileCount = (plan.strips.map fun strip => (plan.stripTiles strip.1 strip.2).tiles.length).sum := by
  simp only [stripTiles, TileCursor.tiles_within, List.length_map, List.length_range]
  rfl

/-- There are no more tiles than pixels. -/
theorem tileCount_le (hplan : plan.Follows l) : plan.tileCount ≤ plan.height * plan.width := by
  have hcells := LabelFile.sum_cells plan.height plan.width plan.stripRows (ceilDiv plan.height plan.stripRows)
  have hcover : plan.height ≤ ceilDiv plan.height plan.stripRows * plan.stripRows := le_ceilDiv_mul hplan.stripRows_pos
  rw [Nat.min_eq_right hcover] at hcells
  rw [← hcells]
  show (plan.strips.map _).sum ≤ _
  rw [strips, LabelFile.strips_eq hplan.stripRows_pos, List.map_map]
  exact List.sum_le_sum fun k _ => TileCursor.tileCount_le _

theorem stripCountInWords_eq (hplan : plan.Follows l) (hhalf : l.InHalfWords) {k : Nat}
    (hk : k < ceilDiv plan.height plan.stripRows) :
    plan.stripCountInWords k =
      some (plan.stripTiles (k * plan.stripRows) (min plan.stripRows (plan.height - k * plan.stripRows))).tileCount := by
  have hwords : UInt32.size < Word.count := by decide
  have hheight : plan.height < UInt32.size := hplan.height_eq ▸ hhalf.height
  have hrow : k * plan.stripRows < plan.height := (lt_ceilDiv_iff hplan.stripRows_pos).mp hk
  have hstrip := (LabelFile.mem_strips_iff hplan.stripRows_pos).mpr ⟨k, rfl, hrow, rfl⟩
  rw [stripCountInWords, Word.mul?_of_lt (by omega)]
  simp only [Option.bind_eq_bind, Option.bind_some]
  rw [Word.sub?_of_le (Nat.le_of_lt hrow), Option.bind_some]
  exact TileCursor.tileCountInWords_eq (inWords_stripTiles hplan hhalf hstrip)

theorem tileCountInWords_eq (hplan : plan.Follows l) (hhalf : l.InHalfWords) :
    plan.tileCountInWords = some plan.tileCount := by
  have hwords : UInt32.size < Word.count := by decide
  have hheight : plan.height < UInt32.size := hplan.height_eq ▸ hhalf.height
  have hwidth : plan.width < UInt32.size := hplan.width_eq ▸ hhalf.width
  have hle := tileCount_le hplan
  have hpixels := Word.mul_lt hheight hwidth
  have hcount : plan.tileCount = ((List.range (ceilDiv plan.height plan.stripRows)).map fun k =>
      (plan.stripTiles (k * plan.stripRows) (min plan.stripRows (plan.height - k * plan.stripRows))).tileCount).sum := by
    rw [tileCount, strips, LabelFile.strips_eq hplan.stripRows_pos, List.map_map]
    rfl
  rw [tileCountInWords, Word.ceilDiv?_eq hplan.stripRows_pos (by omega)]
  simp only [Option.bind_eq_bind, Option.bind_some]
  rw [mapM_eq_some_map fun k hk => stripCountInWords_eq hplan hhalf (List.mem_range.mp hk), Option.bind_some, hcount]
  exact Word.sum?_of_lt (by omega)

/-- The bands of an image in strips are no more than the workers, also those of a strip that is short. Where
nobody works there is one band. -/
theorem length_tiles_le_workers (hl : l.Proper) {tileSize : Nat} (hsize : 0 < tileSize) (workers : Nat)
    (hstriped : l.isStriped = true) (hstrip : (rowOffset, rows) ∈ (ofLayout l tileSize workers).strips) :
    ((ofLayout l tileSize workers).stripTiles rowOffset rows).tiles.length ≤ max workers 1 := by
  have hplan := ofLayout_follows hl hsize workers
  have hworkers : 0 < max workers 1 := Nat.lt_of_lt_of_le Nat.one_pos (Nat.le_max_right ..)
  obtain ⟨-, hrows, -⟩ := LabelFile.strip_bounds hplan.stripRows_pos hstrip
  -- as many bands as there are workers reach over the whole strip
  have hbands : (ofLayout l tileSize workers).stripRows ≤ max workers 1 * (ofLayout l tileSize workers).tileRows := by
    have hband : min tileSize l.height ≤ ceilDiv (min tileSize l.height) (max workers 1) * max workers 1 :=
      le_ceilDiv_mul hworkers
    have hround := le_roundUp (ceilDiv (min tileSize l.height) (max workers 1)) hl.chunkHeight_pos
    simp only [ofLayout, hstriped, if_true]
    rcases Nat.le_total (roundUp (ceilDiv (min tileSize l.height) (max workers 1)) l.chunkHeight)
      (min tileSize l.height) with hle | hge
    · rw [Nat.min_eq_left hle]
      exact Nat.le_trans (by rwa [Nat.mul_comm] at hband) (Nat.mul_le_mul_left (max workers 1) hround)
    · rw [Nat.min_eq_right hge]
      exact Nat.le_mul_of_pos_left _ hworkers
  generalize ofLayout l tileSize workers = plan at hplan hrows hbands ⊢
  have hcount : (plan.stripTiles rowOffset rows).tiles.length = ceilDiv rows plan.tileRows := by
    rw [stripTiles, TileCursor.tiles_within, List.length_map, List.length_range]
    show (plan.stripTiles rowOffset rows).tileCount = _
    rw [TileCursor.tileCount_eq, stripTiles_across rowOffset rows hl hplan hstriped, Nat.one_mul, TileCursor.down,
      stripTiles_tileRows hplan]
    rfl
  rw [hcount]
  refine Nat.le_of_not_lt (mt (lt_ceilDiv_iff hplan.tileRows_pos).mp ?_)
  omega

end DetectionPlan

namespace WaterDetection

/-- A detection can be made for every image of all bands and every size of tiles, on every machine. Its plan,
the count of its tiles and the walk through each strip that is asked for need no larger numbers than words hold.
The tiles are counted without missing any, and on an image in strips no strip has more of them than there are
workers, or more than one where there are none. -/
theorem make_plan {C : Type} [PixelClassifier C] {reader : ImageReader} (hl : reader.layout.Proper)
    (hhalf : reader.layout.InHalfWords) (hbands : reader.layout.bands = bandCount) (metadata : SceneMetadata)
    (classifier : C) {tileSize : Nat} (hsize : 0 < tileSize) (machine : Machine) (mode : ProcessingMode)
    (codec : ImageCodec) :
    ∃ d, make machine reader metadata classifier tileSize mode = .ok d ∧
      DetectionPlan.ofLayoutInWords reader.layout tileSize (mode.workers machine) = some d.plan ∧
      (0 < d.plan.stripRows ∧ d.plan.stripRows ≤ reader.layout.height) ∧
      (0 < d.plan.tileRows ∧ d.plan.tileRows ≤ d.plan.stripRows) ∧
      (0 < d.plan.tileCols ∧ d.plan.tileCols ≤ reader.layout.width) ∧
      d.plan.tileCountInWords = some d.plan.tileCount ∧
      d.plan.tileCount =
        (((d.source codec).requests d.plan.stripRows).map fun strip =>
          (d.plan.stripTiles strip.1 strip.2).tiles.length).sum ∧
      ∀ strip ∈ (d.source codec).requests d.plan.stripRows,
        (∀ n, ∃ last, (d.plan.stripTiles strip.1 strip.2).callsInWords n =
          some ((List.range n).map fun k => (d.plan.stripTiles strip.1 strip.2).tiles[k]?, last)) ∧
        (reader.layout.isStriped = true →
          (d.plan.stripTiles strip.1 strip.2).tiles.length ≤ max (mode.workers machine) 1) := by
  obtain ⟨d, hmake, hd⟩ : ∃ d, make machine reader metadata classifier tileSize mode = .ok d ∧
      d.plan = .ofLayout reader.layout tileSize (mode.workers machine) := by
    rw [make, if_neg (not_not.mpr hbands), if_neg (Nat.ne_of_gt hsize)]
    exact ⟨_, rfl, rfl⟩
  have hplan : d.plan.Follows reader.layout := hd ▸ DetectionPlan.ofLayout_follows hl hsize (mode.workers machine)
  have hrequested : (d.source codec).requests d.plan.stripRows = d.plan.strips := DetectionPlan.strips_requested hplan
  rw [← hplan.height_eq, ← hplan.width_eq]
  refine ⟨d, hmake, ?_, ⟨hplan.stripRows_pos, hplan.stripRows_le⟩, ⟨hplan.tileRows_pos, hplan.tileRows_le⟩,
    ⟨hplan.tileCols_pos, hplan.tileCols_le⟩, DetectionPlan.tileCountInWords_eq hplan hhalf, ?_, ?_⟩
  · rw [hd]
    exact DetectionPlan.ofLayoutInWords_eq hl hhalf tileSize (mode.workers machine)
  · rw [hrequested]
    exact DetectionPlan.tileCount_eq_sum d.plan
  · intro strip hstrip
    rw [hrequested] at hstrip
    constructor
    · intro n
      exact ⟨_, TileCursor.callsInWords_within (DetectionPlan.inWords_stripTiles hplan hhalf hstrip) n⟩
    · intro hstriped
      rw [hd] at hstrip ⊢
      exact DetectionPlan.length_tiles_le_workers hl hsize _ hstriped hstrip

/-- The largest image there can be, in chunks of 256 by 256. -/
def largest : ImageReader := ⟨"largest.tif", ⟨4294967295, 4294967295, 8, 256, 256, none⟩⟩

/-- The largest size of tiles for it. -/
theorem make_plan_largest :
    ∃ d, make .standard largest ⟨Vector.replicate bandCount ⟨1, 1⟩, ⟨45, 1, ""⟩⟩ WaterRule.standard 18446744073709551615
        (.parallelWith 2) = .ok d ∧
      d.plan.tileCountInWords = some d.plan.tileCount := by
  have hproper : largest.layout.Proper := ⟨by decide, by decide, by decide, by decide⟩
  have hhalf : largest.layout.InHalfWords := ⟨by decide, by decide, by decide, by decide⟩
  obtain ⟨d, hmake, -, -, -, -, hcount, -⟩ := make_plan hproper hhalf rfl
    ⟨Vector.replicate bandCount ⟨1, 1⟩, ⟨45, 1, ""⟩⟩ WaterRule.standard (by decide : 0 < 18446744073709551615) .standard
    (.parallelWith 2) .uncompressed
  exact ⟨d, hmake, hcount⟩

end WaterDetection

end SurfaceWater
