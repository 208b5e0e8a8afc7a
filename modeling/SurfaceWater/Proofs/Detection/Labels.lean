import SurfaceWater.Detection.WaterDetection
import SurfaceWater.Proofs.Detection.Plan
import SurfaceWater.Proofs.Image.Reading
import SurfaceWater.Proofs.Image.Requests

/-!
# The labels of a strip

A strip is put together from the labels of its tiles. Every cell of it lies in one of them, so it shows
the label of its pixel, and no cell keeps the value that the strip is filled with at first. A strip can
be made exactly when the chunks of all its pixels can be decoded.
-/

namespace SurfaceWater

/-- The chunk of a pixel can be decoded. -/
def ImageLayout.Decodes (l : ImageLayout) (decode : ChunkDecoder) (row col : Nat) : Prop :=
  ∃ chunk, l.fetch decode (row / l.chunkHeight) (col / l.chunkWidth) = .ok chunk

namespace WaterDetection

variable {C : Type} [PixelClassifier C] {d : WaterDetection C} {decode : ChunkDecoder} {w : Window} {rowOffset rows : Nat}

/-- The label of a pixel of the image, as its samples decide it. -/
def labelAt (d : WaterDetection C) (decode : ChunkDecoder) (row col : Nat) : UInt8 :=
  match RawPixel.ofSamples? (d.reader.layout.pixelAt decode row col)
      (d.reader.layout.isData (d.reader.layout.pixelAt decode row col)) with
  | some pixel => (d.detector.detect pixel).value
  | none => WaterLabel.noData.value

/-! ### Windows -/

theorem labelWindow_eq_ok (hl : d.reader.layout.Proper) {labels : Raster UInt8} (h : d.labelWindow decode w = .ok labels) :
    (∀ row col, (row, col) ∈ w → d.reader.layout.Decodes decode row col) ∧ (labels.rows = w.rows ∧ labels.cols = w.cols) ∧
      ∀ row col, row < w.rows → col < w.cols →
        labels.get? row col = some (d.labelAt decode (w.rowOffset + row) (w.colOffset + col)) := by
  simp only [labelWindow, bind_eq_ok_iff, guard_eq_ok_iff, pure_eq_ok_iff] at h
  obtain ⟨tile, htile, -, rfl⟩ := h
  obtain ⟨hdecodes, -, hpixels⟩ := ImageLayout.readTile_eq_ok hl htile
  refine ⟨hdecodes, ⟨rfl, rfl⟩, ?_⟩
  intro row col hrow hcol
  obtain ⟨hpixel, hvalid⟩ := hpixels row col hrow hcol
  rw [Raster.get?_ofFn _ hrow hcol, label, hpixel, hvalid]
  rfl

theorem exists_labelWindow (hl : d.reader.layout.Proper) (hbands : d.reader.layout.bands = bandCount)
    (hw : w.checkWithin d.reader.layout.height d.reader.layout.width = .ok ())
    (h : ∀ row col, (row, col) ∈ w → d.reader.layout.Decodes decode row col) : ∃ labels, d.labelWindow decode w = .ok labels := by
  obtain ⟨tile, htile⟩ := ImageLayout.exists_readTile hl hw h
  obtain ⟨-, htileBands, -⟩ := ImageLayout.readTile_eq_ok hl htile
  simp only [labelWindow, bind_eq_ok_iff, guard_eq_ok_iff, pure_eq_ok_iff]
  exact ⟨_, tile, htile, fun hne => hne (htileBands.trans hbands), rfl⟩

/-! ### Strips -/

def pasteTiles (rowOffset : Nat) (tiles : List (Tile × Raster UInt8)) (strip : Raster UInt8) : Raster UInt8 :=
  tiles.foldl (fun strip (tile, labels) => strip.paste (tile.rowOffset - rowOffset) tile.colOffset labels) strip

theorem shape_pasteTiles (rowOffset : Nat) (tiles : List (Tile × Raster UInt8)) (strip : Raster UInt8) :
    (pasteTiles rowOffset tiles strip).rows = strip.rows ∧ (pasteTiles rowOffset tiles strip).cols = strip.cols ∧
      (pasteTiles rowOffset tiles strip).order = strip.order := by
  induction tiles generalizing strip with
  | nil => exact ⟨rfl, rfl, rfl⟩
  | cons first tiles ih =>
    obtain ⟨hrows, hcols, horder⟩ := Raster.shape_paste strip first.2 (first.1.rowOffset - rowOffset) first.1.colOffset
    obtain ⟨hrows', hcols', horder'⟩ := ih (strip.paste (first.1.rowOffset - rowOffset) first.1.colOffset first.2)
    exact ⟨hrows'.trans hrows, hcols'.trans hcols, horder'.trans horder⟩

/-- A cell has its label once a tile that it lies in has been put into the strip, and keeps it. -/
theorem get?_pasteTiles {tiles : List (Tile × Raster UInt8)} {strip : Raster UInt8} (label : Nat → Nat → UInt8)
    (htiles : ∀ tile labels, (tile, labels) ∈ tiles → rowOffset ≤ tile.rowOffset ∧
      (labels.rows = tile.rows ∧ labels.cols = tile.cols) ∧
      ∀ row col, row < tile.rows → col < tile.cols →
        labels.get? row col = some (label (tile.rowOffset + row) (tile.colOffset + col)))
    {row col : Nat} (hcell : row < strip.rows ∧ col < strip.cols)
    (hlabel : strip.get? row col = some (label (rowOffset + row) col) ∨
      ∃ tile labels, (tile, labels) ∈ tiles ∧ (rowOffset + row, col) ∈ tile.window) :
    (pasteTiles rowOffset tiles strip).get? row col = some (label (rowOffset + row) col) := by
  induction tiles generalizing strip with
  | nil =>
    rcases hlabel with hlabel | ⟨_, _, hmem, -⟩
    · exact hlabel
    · exact absurd hmem List.not_mem_nil
  | cons first tiles ih =>
    obtain ⟨tile, labels⟩ := first
    obtain ⟨hoffset, ⟨hrows, hcols⟩, hlabels⟩ := htiles tile labels List.mem_cons_self
    obtain ⟨hstripRows, hstripCols, -⟩ := Raster.shape_paste strip labels (tile.rowOffset - rowOffset) tile.colOffset
    apply ih (fun t l hmem => htiles t l (List.mem_cons_of_mem _ hmem)) (by rwa [hstripRows, hstripCols])
    rw [Raster.get?_paste hcell, hrows, hcols]
    by_cases hin : (rowOffset + row, col) ∈ tile.window
    · obtain ⟨hrow₁, hrow₂, hcol₁, hcol₂⟩ := Window.mem_iff.mp hin
      simp only [Tile.window] at hrow₁ hrow₂ hcol₁ hcol₂
      left
      rw [if_pos (by omega), hlabels _ _ (by omega) (by omega),
        show tile.rowOffset + (row - (tile.rowOffset - rowOffset)) = rowOffset + row by omega,
        Nat.add_sub_cancel' hcol₁]
    · have hout : ¬ ((tile.rowOffset - rowOffset ≤ row ∧ row < tile.rowOffset - rowOffset + tile.rows) ∧
          tile.colOffset ≤ col ∧ col < tile.colOffset + tile.cols) := by
        intro h
        apply hin
        rw [Window.mem_iff]
        simp only [Tile.window]
        omega
      rw [if_neg hout]
      rcases hlabel with hlabel | ⟨other, found, hmem, hother⟩
      · exact .inl hlabel
      · rcases List.mem_cons.mp hmem with heq | hmem
        · cases heq
          exact absurd hother hin
        · exact .inr ⟨other, found, hmem, hother⟩

theorem labelStrip_eq_ok (hl : d.reader.layout.Proper) {strip : Raster UInt8}
    (h : d.labelStrip decode rowOffset rows = .ok strip) :
    (∀ row col, rowOffset ≤ row → row < rowOffset + rows → col < d.plan.width → d.reader.layout.Decodes decode row col) ∧
      (strip.rows = rows ∧ strip.cols = d.plan.width ∧ strip.order = .byRow) ∧
      ∀ row col, row < rows → col < d.plan.width → strip.get? row col = some (d.labelAt decode (rowOffset + row) col) := by
  simp only [labelStrip, labelTiles, mapWork, bind_eq_ok_iff, pure_eq_ok_iff] at h
  obtain ⟨labels, hlabels, rfl⟩ := h
  obtain ⟨hzip, hitems⟩ := mapM_ok_zip hlabels
  have hcover (row : Nat) {col : Nat} (hrow : rowOffset ≤ row ∧ row < rowOffset + rows) (hcol : col < d.plan.width) :
      ∃ tile ∈ (d.plan.stripTiles rowOffset rows).tiles, (row, col) ∈ tile.window :=
    TileCursor.exists_tile_of_mem (Window.mem_iff.mpr ⟨hrow.1, hrow.2, Nat.zero_le _, by rwa [Nat.zero_add]⟩)
  have hshape := shape_pasteTiles rowOffset ((d.plan.stripTiles rowOffset rows).tiles.zip labels)
    (blankStrip rows d.plan.width)
  refine ⟨fun row col hrow₁ hrow₂ hcol => ?_, ⟨hshape.1, hshape.2.1, hshape.2.2⟩, fun row col hrow hcol => ?_⟩
  · obtain ⟨tile, htile, hcell⟩ := hcover row ⟨hrow₁, hrow₂⟩ hcol
    obtain ⟨found, hfound⟩ := hitems tile htile
    exact (labelWindow_eq_ok hl (hzip tile found hfound)).1 row col hcell
  · refine get?_pasteTiles (d.labelAt decode) (fun tile found hmem => ?_) ⟨hrow, hcol⟩ (.inr ?_)
    · obtain ⟨-, hlabelShape, hlabelCells⟩ := labelWindow_eq_ok hl (hzip tile found hmem)
      obtain ⟨-, ⟨hoffset, -⟩, -⟩ := TileCursor.window_of_mem_tiles (List.of_mem_zip hmem).1
      exact ⟨hoffset, hlabelShape, hlabelCells⟩
    · obtain ⟨tile, htile, hcell⟩ := hcover (rowOffset + row) ⟨by omega, by omega⟩ hcol
      obtain ⟨found, hfound⟩ := hitems tile htile
      exact ⟨tile, found, hfound, hcell⟩

theorem exists_labelStrip (hl : d.reader.layout.Proper) (hbands : d.reader.layout.bands = bandCount)
    (hplan : d.plan.Follows d.reader.layout) (hend : rowOffset + rows ≤ d.reader.layout.height)
    (h : ∀ row col, row < d.reader.layout.height → col < d.reader.layout.width → d.reader.layout.Decodes decode row col) :
    ∃ strip, d.labelStrip decode rowOffset rows = .ok strip := by
  have hlabels : ∃ labels, (d.plan.stripTiles rowOffset rows).tiles.mapM (fun tile => d.labelWindow decode tile.window) =
      .ok labels := by
    apply exists_mapM_eq_ok_iff.mpr
    intro tile htile
    have hw := DetectionPlan.checkWithin_of_mem_tiles hplan hend htile
    obtain ⟨-, hbottom, hright⟩ := Window.checkWithin_eq_ok_iff.mp hw
    apply exists_labelWindow hl hbands hw
    intro row col hcell
    have := Window.mem_iff.mp hcell
    exact h row col (by omega) (by omega)
  obtain ⟨labels, hlabels⟩ := hlabels
  simp only [labelStrip, labelTiles, mapWork, bind_eq_ok_iff, pure_eq_ok_iff]
  exact ⟨_, labels, hlabels, rfl⟩

/-- The labels of a row of the image. -/
def rowLabels (d : WaterDetection C) (decode : ChunkDecoder) (row : Nat) : List UInt8 :=
  (List.range d.plan.width).map (d.labelAt decode row)

theorem cells_labelStrip (hl : d.reader.layout.Proper) {strip : Raster UInt8}
    (h : d.labelStrip decode rowOffset rows = .ok strip) :
    strip.cells.toList = ((List.range rows).map (rowOffset + ·)).flatMap (d.rowLabels decode) := by
  obtain ⟨-, ⟨hrows, hcols, horder⟩, hlabels⟩ := labelStrip_eq_ok hl h
  have hcells : strip.cells.toList =
      (List.range strip.rows).flatMap fun i => (List.range strip.cols).map fun j => d.labelAt decode (rowOffset + i) j := by
    apply Raster.toList_cells horder
    intro i j hi hj
    exact hlabels i j (hrows ▸ hi) (hcols ▸ hj)
  rw [hcells, hrows, hcols, List.flatMap_map]
  rfl

/-- The cells of a strip are kept row after row. -/
theorem toRows_labelStrip (hl : d.reader.layout.Proper) {strip : Raster UInt8}
    (h : d.labelStrip decode rowOffset rows = .ok strip) :
    strip.toRows.toList = ((List.range rows).map (rowOffset + ·)).flatMap (d.rowLabels decode) := by
  obtain ⟨-, ⟨-, -, horder⟩, -⟩ := labelStrip_eq_ok hl h
  have hmemory : strip.isContiguous = true := by simp [Raster.isContiguous, horder]
  rw [Raster.toRows, if_pos hmemory, cells_labelStrip hl h]

/-! ### Replies -/

/-- The tally after a reply. -/
def tallyAfter (tally : LabelTally) : Except Error (Raster UInt8) → LabelTally
  | .ok strip => tally.add strip
  | .error _ => tally

/-- A strip is counted when it was produced, and what it shows does not depend on the tally. -/
theorem run_readStrip (d : WaterDetection C) (decode : ChunkDecoder) (rowOffset rows : Nat) (tally : LabelTally) :
    (d.readStrip decode rowOffset rows).run.run tally =
      (d.labelStrip decode rowOffset rows, tallyAfter tally (d.labelStrip decode rowOffset rows)) := by
  rw [readStrip, run_bind, run_lift]
  cases d.labelStrip decode rowOffset rows <;> rfl

theorem fst_readStrip (d : WaterDetection C) (decode : ChunkDecoder) (rowOffset rows : Nat) (tally : LabelTally) :
    ((d.readStrip decode rowOffset rows).run.run tally).1 = d.labelStrip decode rowOffset rows := by
  rw [run_readStrip]

theorem reply_source (d : WaterDetection C) (codec : ImageCodec) (storage : Storage) (request : Nat × Nat)
    (tally : LabelTally) : (d.source codec).reply storage request tally =
      (d.labelStrip (d.reader.decoder codec storage) request.1 request.2,
        tallyAfter tally (d.labelStrip (d.reader.decoder codec storage) request.1 request.2)) :=
  d.run_readStrip (d.reader.decoder codec storage) request.1 request.2 tally

end WaterDetection

end SurfaceWater
