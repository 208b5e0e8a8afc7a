import SurfaceWater.Proofs.Detection.Counts
import SurfaceWater.Proofs.Detection.Outcome

/-!
# Strips of any height

A strip may be asked for from any row on and with any number of rows, whatever the plan of the run is. If the
image has all its chunks, it has the strip exactly when the strip is empty or ends inside it; the tiles that
reach beyond the image are the only ones that fail. The labels of a strip are those of its pixels, so the strip
of two heights is the strip of the first with that of the second below it, although the two are cut into other
tiles than the whole.
-/

namespace SurfaceWater

/-- A raster is made of two of its width, one above the other. -/
structure Raster.IsStack {α : Type} (whole upper lower : Raster α) : Prop where
  rows_eq : whole.rows = upper.rows + lower.rows
  upper_cols_eq : upper.cols = whole.cols
  lower_cols_eq : lower.cols = whole.cols
  upper_noData_eq : upper.noData = whole.noData
  lower_noData_eq : lower.noData = whole.noData
  toRows_eq : whole.toRows = upper.toRows ++ lower.toRows

/-- Strips of labels are the same when they have the same labels, row after row. -/
theorem Raster.Labels.eq_of_toList_eq {r s : Raster UInt8} (hr : r.Labels) (hs : s.Labels)
    (hshape : r.rows = s.rows ∧ r.cols = s.cols) (hcells : r.cells.toList = s.cells.toList) : r = s := by
  have horder := hr.order_eq.trans hs.order_eq.symm
  have hnoData := hr.noData_eq.trans hs.noData_eq.symm
  cases r
  cases s
  obtain ⟨rfl, rfl⟩ := hshape
  obtain rfl := horder
  obtain rfl := hnoData
  obtain rfl := Array.toList_inj.mp hcells
  rfl

namespace WaterDetection

variable {C : Type} [PixelClassifier C] {machine : Machine} {reader : ImageReader} {metadata : SceneMetadata}
  {classifier : C} {tileSize : Nat} {mode : ProcessingMode} {d : WaterDetection C} {decode : ChunkDecoder}
  {rowOffset rows : Nat}

/-- The error of a cell that the image of a detection does not have, because it is below its last row. -/
def IsBelowImage (d : WaterDetection C) (error : Error) : Prop :=
  ∃ row col, d.reader.layout.height ≤ row ∧ col < d.reader.layout.width ∧
    error = .outOfBounds row col d.reader.layout.height d.reader.layout.width

/-- A tile that ends below the image is refused before any chunk is read. -/
theorem labelWindow_of_below (decode : ChunkDecoder) (hplan : d.plan.Follows d.reader.layout) {tile : Tile}
    (htile : tile ∈ (d.plan.stripTiles rowOffset rows).tiles)
    (hbelow : d.reader.layout.height < tile.rowOffset + tile.rows) :
    ∃ error, d.labelWindow decode tile.window = .error error ∧ d.IsBelowImage error := by
  obtain ⟨⟨hrows, hcols⟩, -, -, hright⟩ := TileCursor.window_of_mem_tiles htile
  dsimp only at hright
  rw [Nat.zero_add, hplan.width_eq] at hright
  have hcells : tile.window.isEmpty = false := by
    rw [Window.isEmpty, Bool.or_eq_false_iff, decide_eq_false_iff_not, decide_eq_false_iff_not]
    exact ⟨Nat.ne_of_gt hrows, Nat.ne_of_gt hcols⟩
  have hoverhangs : d.reader.layout.height < tile.window.rowEnd ∨ d.reader.layout.width < tile.window.colEnd :=
    .inl hbelow
  have hcheck : tile.window.checkWithin d.reader.layout.height d.reader.layout.width =
      .error (.outOfBounds (tile.rowOffset + tile.rows - 1) (tile.colOffset + tile.cols - 1) d.reader.layout.height
        d.reader.layout.width) := by
    rw [Window.checkWithin, hcells, if_neg Bool.false_ne_true, if_pos hoverhangs]
    rfl
  refine ⟨_, ?_, tile.rowOffset + tile.rows - 1, tile.colOffset + tile.cols - 1, Nat.le_sub_one_of_lt hbelow,
    by omega, rfl⟩
  rw [labelWindow, ImageLayout.readTile, hcheck]
  rfl

section

variable (hl : d.reader.layout.Proper) (hbands : d.reader.layout.bands = bandCount)
  (hplan : d.plan.Follows d.reader.layout)
  (hdecodes : ∀ row col, row < d.reader.layout.height → col < d.reader.layout.width →
    d.reader.layout.Decodes decode row col)

include hl hbands hplan hdecodes

/-- A tile of a strip is labelled, unless it ends below the image. -/
theorem labelWindow_cases {tile : Tile} (htile : tile ∈ (d.plan.stripTiles rowOffset rows).tiles) :
    (∃ labels, d.labelWindow decode tile.window = .ok labels) ∨
      ∃ error, d.labelWindow decode tile.window = .error error ∧ d.IsBelowImage error := by
  rcases Nat.lt_or_ge d.reader.layout.height (tile.rowOffset + tile.rows) with hbelow | hinside
  · exact .inr (labelWindow_of_below decode hplan htile hbelow)
  · obtain ⟨hcells, -, -, hright⟩ := TileCursor.window_of_mem_tiles htile
    dsimp only at hright
    rw [Nat.zero_add, hplan.width_eq] at hright
    refine .inl (exists_labelWindow hl hbands (Window.checkWithin_eq_ok_iff.mpr ⟨hcells, hinside, hright⟩) ?_)
    intro row col hcell
    obtain ⟨-, hrow, -, hcol⟩ := Window.mem_iff.mp hcell
    exact hdecodes row col (hrow.trans_le hinside) (hcol.trans_le hright)

/-- There is a strip of no rows anywhere, and any other strip is there if it ends inside the image. -/
theorem exists_labelStrip_iff :
    (∃ strip, d.labelStrip decode rowOffset rows = .ok strip) ↔ rows = 0 ∨ rowOffset + rows ≤ d.reader.layout.height := by
  constructor
  · intro h
    obtain ⟨strip, hstrip⟩ := h
    by_contra hout
    -- the tile of the first pixel of the last row ends below the image
    have hwidth : 0 < d.plan.width := hplan.width_eq ▸ hl.width_pos
    have hcell : (rowOffset + rows - 1, 0) ∈ (⟨rowOffset, 0, rows, d.plan.width⟩ : Window) :=
      Window.mem_iff.mpr (by dsimp only; omega)
    obtain ⟨tile, htile, hin⟩ : ∃ tile ∈ (d.plan.stripTiles rowOffset rows).tiles, _ ∈ tile.window :=
      TileCursor.exists_tile_of_mem hcell
    obtain ⟨-, hlast, -⟩ := Window.mem_iff.mp hin
    dsimp only [Tile.window] at hlast
    obtain ⟨error, herror, -⟩ := labelWindow_of_below decode hplan htile (by omega)
    simp only [labelStrip, labelTiles, mapWork, bind_eq_ok_iff, pure_eq_ok_iff] at hstrip
    obtain ⟨labels, hlabels, -⟩ := hstrip
    obtain ⟨found, hfound⟩ := exists_mapM_eq_ok_iff.mp ⟨labels, hlabels⟩ tile htile
    rw [herror] at hfound
    cases hfound
  · rintro (rfl | hend)
    · have hempty : (d.plan.stripTiles rowOffset 0).tiles = [] := rfl
      rw [labelStrip, hempty]
      exact ⟨_, rfl⟩
    · exact exists_labelStrip hl hbands hplan hend hdecodes

theorem isBelowImage_of_labelStrip {error : Error} (h : d.labelStrip decode rowOffset rows = .error error) :
    d.IsBelowImage error := by
  rw [labelStrip, labelTiles, mapWork, bind_eq_error_iff] at h
  have hfailed : (d.plan.stripTiles rowOffset rows).tiles.mapM (fun tile => d.labelWindow decode tile.window) =
      .error error := by
    rcases h with hfailed | ⟨labels, -, hpure⟩
    · exact hfailed
    · cases hpure
  obtain ⟨tile, htile, hwindow⟩ := exists_of_mapM_eq_error hfailed
  rcases labelWindow_cases hl hbands hplan hdecodes htile with ⟨labels, hlabels⟩ | ⟨other, hother, hbelow⟩
  · cases hwindow.symm.trans hlabels
  · obtain rfl := Except.error.inj (hwindow.symm.trans hother)
    exact hbelow

/-- A strip of two heights is made of the strips of both. -/
theorem exists_isStack_of_labelStrip {more : Nat} {strip : Raster UInt8}
    (h : d.labelStrip decode rowOffset (rows + more) = .ok strip) :
    ∃ upper lower, d.labelStrip decode rowOffset rows = .ok upper ∧ d.labelStrip decode (rowOffset + rows) more = .ok lower ∧
      strip.IsStack upper lower := by
  have hheight := (exists_labelStrip_iff hl hbands hplan hdecodes).mp ⟨strip, h⟩
  obtain ⟨upper, hupper⟩ : ∃ upper, d.labelStrip decode rowOffset rows = .ok upper :=
    (exists_labelStrip_iff hl hbands hplan hdecodes).mpr (by omega)
  obtain ⟨lower, hlower⟩ : ∃ lower, d.labelStrip decode (rowOffset + rows) more = .ok lower :=
    (exists_labelStrip_iff hl hbands hplan hdecodes).mpr (by omega)
  have hcells {first count : Nat} {part : Raster UInt8} (hpart : d.labelStrip decode first count = .ok part) :
      part.toRows.toList = ((List.range count).map (first + ·)).flatMap (d.rowLabels decode) :=
    toRows_labelStrip hl hpart
  obtain ⟨-, ⟨hrows, hcols, -⟩, -⟩ := labelStrip_eq_ok hl h
  obtain ⟨-, ⟨hupperRows, hupperCols, -⟩, -⟩ := labelStrip_eq_ok hl hupper
  obtain ⟨-, ⟨hlowerRows, hlowerCols, -⟩, -⟩ := labelStrip_eq_ok hl hlower
  have hnoData := (labels_labelTiles h).noData_eq
  refine ⟨upper, lower, hupper, hlower, ?_, hupperCols.trans hcols.symm, hlowerCols.trans hcols.symm,
    (labels_labelTiles hupper).noData_eq.trans hnoData.symm,
    (labels_labelTiles hlower).noData_eq.trans hnoData.symm, ?_⟩
  · rw [hrows, hupperRows, hlowerRows]
  · apply Array.toList_inj.mp
    rw [Array.toList_append, hcells h, hcells hupper, hcells hlower, ← List.flatMap_append, List.range_add,
      List.map_append, List.map_map]
    simp only [Function.comp_def, Nat.add_assoc]

end

/-- What a strip shows does not depend on how it is cut into tiles. -/
theorem labelStrip_unique {e : WaterDetection C} (hl : d.reader.layout.Proper) (he : e.reader.layout.Proper)
    (hwidth : d.plan.width = e.plan.width) (hlabels : d.labelAt decode = e.labelAt decode) {strip other : Raster UInt8}
    (hstrip : d.labelStrip decode rowOffset rows = .ok strip) (hother : e.labelStrip decode rowOffset rows = .ok other) :
    strip = other := by
  have hrowLabels : d.rowLabels decode = e.rowLabels decode := by
    funext row
    rw [rowLabels, rowLabels, hwidth, hlabels]
  obtain ⟨-, ⟨hrows, hcols, -⟩, -⟩ := labelStrip_eq_ok hl hstrip
  obtain ⟨-, ⟨hotherRows, hotherCols, -⟩, -⟩ := labelStrip_eq_ok he hother
  apply (labels_labelTiles hstrip).eq_of_toList_eq (labels_labelTiles hother)
  · rw [hrows, hcols, hotherRows, hotherCols, hwidth]
    exact ⟨rfl, rfl⟩
  · rw [cells_labelStrip hl hstrip, cells_labelStrip he hother, hrowLabels]

/-! ### Detections of one image -/

/-- A detection that asks one image with one detector, by any plan for the image. -/
structure IsFor (d : WaterDetection C) (reader : ImageReader) (detector : WaterDetector C) : Prop where
  reader_eq : d.reader = reader
  detector_eq : d.detector = detector
  follows : d.plan.Follows reader.layout

omit [PixelClassifier C] in
theorem isFor_of_make (hl : reader.layout.Proper)
    (hmake : make machine reader metadata classifier tileSize mode = .ok d) :
    d.IsFor reader (.ofMetadata metadata classifier) := by
  obtain ⟨-, htile, rfl⟩ := make_eq_ok_iff.mp hmake
  exact ⟨rfl, rfl, DetectionPlan.ofLayout_follows hl htile _⟩

section

variable {detector : WaterDetector C} (h : d.IsFor reader detector) (hl : reader.layout.Proper)
  (hbands : reader.layout.bands = bandCount)
  (hdecodes : ∀ row col, row < reader.layout.height → col < reader.layout.width →
    reader.layout.Decodes decode row col)

include h hl hbands hdecodes

/-- The labels of a strip are those of its pixels. -/
theorem IsFor.get?_labelStrip {strip : Raster UInt8} (hstrip : d.labelStrip decode rowOffset rows = .ok strip) :
    (strip.rows = rows ∧ strip.cols = reader.layout.width) ∧
      ∀ row col, row < rows → col < reader.layout.width →
        (∀ band : Fin bandCount, reader.layout.storedSample? decode (rowOffset + row) col band =
          some (Vector.get (reader.layout.rawPixel decode (rowOffset + row) col).dn band)) ∧
        strip.get? row col = some (detector.detect (reader.layout.rawPixel decode (rowOffset + row) col)).value := by
  obtain ⟨rfl, rfl, hplan⟩ := h
  have hend := (exists_labelStrip_iff hl hbands hplan hdecodes).mp ⟨strip, hstrip⟩
  obtain ⟨-, ⟨hrows, hcols, -⟩, hcells⟩ := labelStrip_eq_ok hl hstrip
  rw [hplan.width_eq] at hcols hcells
  refine ⟨⟨hrows, hcols⟩, fun row col hrow hcol => ?_⟩
  have hheight : rowOffset + row < d.reader.layout.height := by omega
  have hpixel := hdecodes (rowOffset + row) col hheight hcol
  rw [hcells row col hrow hcol, labelAt_eq hl hbands hheight hcol hpixel]
  exact ⟨ImageLayout.storedSample?_eq hl hbands hheight hcol hpixel, rfl⟩

/-- Two plans for an image give the same strips. -/
theorem IsFor.labelStrip_iff {e : WaterDetection C} (he : e.IsFor reader detector) {strip : Raster UInt8} :
    e.labelStrip decode rowOffset rows = .ok strip ↔ d.labelStrip decode rowOffset rows = .ok strip := by
  obtain ⟨rfl, rfl, hplan⟩ := h
  obtain ⟨hreader, hdetector, heplan⟩ := he
  have hel : e.reader.layout.Proper := by rwa [hreader]
  have hboth : (∃ found, e.labelStrip decode rowOffset rows = .ok found) ↔
      ∃ found, d.labelStrip decode rowOffset rows = .ok found := by
    have hedecodes : ∀ row col, row < e.reader.layout.height → col < e.reader.layout.width →
        e.reader.layout.Decodes decode row col := by
      rwa [← hreader] at hdecodes
    rw [exists_labelStrip_iff hel (hreader ▸ hbands) (hreader ▸ heplan) hedecodes,
      exists_labelStrip_iff hl hbands hplan hdecodes, hreader]
  have hlabels : e.labelAt decode = d.labelAt decode := by
    funext row col
    rw [labelAt, labelAt, hdetector, hreader]
  have hunique {found expected : Raster UInt8} (hfound : e.labelStrip decode rowOffset rows = .ok found)
      (hexpected : d.labelStrip decode rowOffset rows = .ok expected) : found = expected :=
    labelStrip_unique hel hl (heplan.width_eq.trans hplan.width_eq.symm) hlabels hfound hexpected
  constructor
  · intro hstrip
    obtain ⟨expected, hexpected⟩ := hboth.mp ⟨strip, hstrip⟩
    rwa [hunique hstrip hexpected]
  · intro hstrip
    obtain ⟨found, hfound⟩ := hboth.mpr ⟨strip, hstrip⟩
    rwa [← hunique hfound hstrip]

end

/-- An image with all its chunks has the strip of any rows inside it, and one of no rows anywhere. Every other strip
fails with the cell below the image that it asked for, as each of its tiles does that is not labelled. A strip has
the labels of its pixels. The strip of two heights has that of the first above that of the second, and each strip is
the same for any size of tiles, on any machine and for any number of threads. This is so whatever decodes the chunks
and whatever classifies the pixels. -/
theorem readStrip_stacks (hl : reader.layout.Proper)
    (hchunks : ∀ i j, i < reader.layout.chunksDown → j < reader.layout.chunksAcross →
      ¬ reader.layout.Unreadable decode i j)
    (hmake : make machine reader metadata classifier tileSize mode = .ok d) :
    (∀ rowOffset rows tally,
      ((d.readStrip decode rowOffset rows).run.run tally).1 = d.labelStrip decode rowOffset rows) ∧
    (∀ rowOffset rows,
      ((∃ strip, d.labelStrip decode rowOffset rows = .ok strip) ↔ rows = 0 ∨ rowOffset + rows ≤ reader.layout.height) ∧
      (∀ error, d.labelStrip decode rowOffset rows = .error error → d.IsBelowImage error) ∧
      ∀ tile ∈ (d.plan.stripTiles rowOffset rows).tiles,
        (∃ labels, d.labelWindow decode tile.window = .ok labels) ∨
          ∃ error, d.labelWindow decode tile.window = .error error ∧ d.IsBelowImage error) ∧
    (∀ rowOffset rows strip, d.labelStrip decode rowOffset rows = .ok strip →
      (strip.rows = rows ∧ strip.cols = reader.layout.width) ∧
      ∀ row col, row < rows → col < reader.layout.width →
        (∀ band : Fin bandCount, reader.layout.storedSample? decode (rowOffset + row) col band =
          some (Vector.get (reader.layout.rawPixel decode (rowOffset + row) col).dn band)) ∧
        strip.get? row col = some ((WaterDetector.ofMetadata metadata classifier).detect
          (reader.layout.rawPixel decode (rowOffset + row) col)).value) ∧
    (∀ rowOffset rows more strip, d.labelStrip decode rowOffset (rows + more) = .ok strip →
      ∃ upper lower, d.labelStrip decode rowOffset rows = .ok upper ∧
        d.labelStrip decode (rowOffset + rows) more = .ok lower ∧ strip.IsStack upper lower) ∧
    ∀ otherMachine otherSize otherMode other,
      make otherMachine reader metadata classifier otherSize otherMode = .ok other → ∀ rowOffset rows strip,
        other.labelStrip decode rowOffset rows = .ok strip ↔ d.labelStrip decode rowOffset rows = .ok strip := by
  obtain ⟨hbands, -, -⟩ := make_eq_ok_iff.mp hmake
  have hdecodes (row col : Nat) (hrow : row < reader.layout.height) (hcol : col < reader.layout.width) :
      reader.layout.Decodes decode row col := ImageLayout.decodes_of_readable hl hchunks hrow hcol
  have hfor := isFor_of_make hl hmake
  have hplan := hfor.follows
  obtain rfl := hfor.reader_eq
  refine ⟨d.fst_readStrip decode, fun rowOffset rows => ⟨?_, ?_, ?_⟩, ?_, ?_, ?_⟩
  · exact exists_labelStrip_iff hl hbands hplan hdecodes
  · intro error herror
    exact isBelowImage_of_labelStrip hl hbands hplan hdecodes herror
  · intro tile hmem
    exact labelWindow_cases hl hbands hplan hdecodes hmem
  · intro rowOffset rows strip hstrip
    exact hfor.get?_labelStrip hl hbands hdecodes hstrip
  · intro rowOffset rows more strip hstrip
    exact exists_isStack_of_labelStrip hl hbands hplan hdecodes hstrip
  · intro otherMachine otherSize otherMode other hother rowOffset rows strip
    exact hfor.labelStrip_iff hl hbands hdecodes (isFor_of_make hl hother)

/-- Three columns and five rows in chunks of two by two. -/
def fiveRows : ImageReader := ⟨"five.tif", ⟨3, 5, bandCount, 2, 2, none⟩⟩

/-- Chunks all samples of which are the same, each padded to its full shape. -/
def fiveRowsDecoder : ChunkDecoder := fun _ => .ok (.replicate (2 * 2 * bandCount) 7)

/-- Its rows are those of a strip of three and a strip of two, and it has no sixth. -/
theorem readStrip_stacks_fiveRows : ∃ d : WaterDetection,
    make .standard fiveRows ⟨Vector.replicate bandCount ⟨1, 1⟩, ⟨45, 1, ""⟩⟩ .standard 4 (.parallelWith 2) = .ok d ∧
      (∃ whole upper lower, d.labelStrip fiveRowsDecoder 0 5 = .ok whole ∧ d.labelStrip fiveRowsDecoder 0 3 = .ok upper ∧
        d.labelStrip fiveRowsDecoder 3 2 = .ok lower ∧ whole.IsStack upper lower) ∧
      ∃ error, d.labelStrip fiveRowsDecoder 3 3 = .error error ∧ d.IsBelowImage error := by
  have hproper : fiveRows.layout.Proper := ⟨by decide, by decide, by decide, by decide⟩
  have hchunks : ∀ i j, i < fiveRows.layout.chunksDown → j < fiveRows.layout.chunksAcross →
      ¬ fiveRows.layout.Unreadable fiveRowsDecoder i j := by
    intro i j _ _ hunreadable
    exact hunreadable.2 Array.size_replicate
  obtain ⟨d, hmake⟩ : ∃ d : WaterDetection,
      make .standard fiveRows ⟨Vector.replicate bandCount ⟨1, 1⟩, ⟨45, 1, ""⟩⟩ .standard 4 (.parallelWith 2) = .ok d :=
    ⟨_, make_eq_ok_iff.mpr ⟨rfl, by decide, rfl⟩⟩
  obtain ⟨-, hstrips, -, hstacks, -⟩ := readStrip_stacks hproper hchunks hmake
  refine ⟨d, hmake, ?_, ?_⟩
  · obtain ⟨whole, hwhole⟩ := (hstrips 0 5).1.mpr (.inr (by decide))
    obtain ⟨upper, lower, hupper, hlower, hstack⟩ := hstacks 0 3 2 whole hwhole
    exact ⟨whole, upper, lower, hwhole, hupper, hlower, hstack⟩
  · cases hstrip : d.labelStrip fiveRowsDecoder 3 3 with
    | error error => exact ⟨error, rfl, (hstrips 3 3).2.1 error hstrip⟩
    | ok strip => exact absurd ((hstrips 3 3).1.mp ⟨strip, hstrip⟩) (by decide)

end WaterDetection

end SurfaceWater
