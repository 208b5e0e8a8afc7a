import Mathlib.Data.List.Count
import SurfaceWater.Proofs.Detection.Labels
import SurfaceWater.Proofs.Numeric.Word

/-!
# Counting labels

Strips hold nothing but labels, so the cells of one that was produced are land, water or without data, and land
is what the other two leave. The counters of a tally are words and count modulo their number; the subtraction that
gives the land comes out right all the same, and it does not go below zero as long as no counter has wrapped.
-/

namespace SurfaceWater

/-! ### Counts -/

namespace LabelCounts

instance : Zero LabelCounts := ⟨⟨0, 0, 0⟩⟩

instance : Add LabelCounts := ⟨fun c other => ⟨c.water + other.water, c.land + other.land, c.noData + other.noData⟩⟩

theorem add_assoc (a b c : LabelCounts) : a + b + c = a + (b + c) := by
  show (⟨a.water + b.water + c.water, a.land + b.land + c.land, a.noData + b.noData + c.noData⟩ : LabelCounts) = _
  rw [Nat.add_assoc, Nat.add_assoc, Nat.add_assoc]
  rfl

theorem zero_add (c : LabelCounts) : 0 + c = c := by
  show (⟨0 + c.water, 0 + c.land, 0 + c.noData⟩ : LabelCounts) = c
  rw [Nat.zero_add, Nat.zero_add, Nat.zero_add]

/-- How often each label is among some values. -/
def ofList (values : List UInt8) : LabelCounts :=
  ⟨values.count WaterLabel.water.value, values.count WaterLabel.land.value, values.count WaterLabel.noData.value⟩

theorem ofList_append (values others : List UInt8) : ofList (values ++ others) = ofList values + ofList others := by
  rw [ofList, List.count_append, List.count_append, List.count_append]
  rfl

theorem ofRaster_eq (r : Raster UInt8) : ofRaster r = ofList r.cells.toList := by
  rw [ofList, Array.count_toList, Array.count_toList, Array.count_toList]
  rfl

theorem total_add (a b : LabelCounts) : (a + b).total = a.total + b.total := by
  show a.water + b.water + (a.land + b.land) + (a.noData + b.noData) = a.water + a.land + a.noData + (b.water + b.land + b.noData)
  omega

end LabelCounts

/-- A byte is a label. -/
def IsLabel (value : UInt8) : Prop := ∃ label : WaterLabel, value = label.value

theorem count_labels {values : List UInt8} (h : ∀ value ∈ values, IsLabel value) :
    values.count WaterLabel.water.value + values.count WaterLabel.land.value + values.count WaterLabel.noData.value =
      values.length := by
  induction values with
  | nil => rfl
  | cons value values ih =>
    rw [List.forall_mem_cons] at h
    obtain ⟨label, rfl⟩ := h.1
    have hrest := ih h.2
    cases label <;> simp [WaterLabel.value] at hrest ⊢ <;> omega

theorem LabelCounts.total_ofList {values : List UInt8} (h : ∀ value ∈ values, IsLabel value) :
    (ofList values).total = values.length := count_labels h

theorem LabelCounts.total_ofRaster {r : Raster UInt8} (h : ∀ value ∈ r.cells, IsLabel value) :
    (ofRaster r).total = r.size := by
  rw [ofRaster_eq, total_ofList fun value hvalue => h value (Array.mem_toList_iff.mp hvalue), Array.length_toList, r.size_eq,
    Raster.size]

/-! ### Tallies -/

/-- A tally has counted so much of each label, as far as its words go. -/
structure LabelTally.Counts (tally : LabelTally) (counts : LabelCounts) : Prop where
  water_eq : tally.water = .ofNat counts.water
  noData_eq : tally.noData = .ofNat counts.noData
  labelled_eq : tally.labelled = .ofNat counts.total

/-- What is left of counts in words. -/
def LabelCounts.inWords (c : LabelCounts) : LabelCounts :=
  ⟨c.water % Word.count, c.land % Word.count, c.noData % Word.count⟩

theorem LabelCounts.inWords_eq {c : LabelCounts} (h : c.total < Word.count) : c.inWords = c := by
  rw [total] at h
  rw [inWords, Nat.mod_eq_of_lt (by omega), Nat.mod_eq_of_lt (by omega), Nat.mod_eq_of_lt (by omega)]

namespace LabelTally.Counts

variable {tally : LabelTally} {counts : LabelCounts} (h : tally.Counts counts)

include h

/-- What is neither water nor without data is land, whether or not the counters have wrapped. -/
theorem counts_eq : tally.counts = counts.inWords := by
  have hland : (UInt64.ofNat counts.total - UInt64.ofNat counts.water - UInt64.ofNat counts.noData).toNat =
      counts.land % Word.count := by
    rw [UInt64.toNat_sub, UInt64.toNat_sub, UInt64.toNat_ofNat', UInt64.toNat_ofNat', UInt64.toNat_ofNat',
      LabelCounts.total]
    show _ = counts.land % 2 ^ 64
    omega
  rw [LabelTally.counts, h.water_eq, h.noData_eq, h.labelled_eq, hland]
  rfl

end LabelTally.Counts

/-! ### Strips of labels -/

/-- The cells of a raster are labels, and those without data count as such. -/
structure Raster.Labels (r : Raster UInt8) : Prop where
  order_eq : r.order = .byRow
  noData_eq : r.noData = some WaterLabel.noData.value
  get?_label : ∀ row col value, r.get? row col = some value → IsLabel value

theorem Raster.Labels.isLabel_of_mem {r : Raster UInt8} (h : r.Labels) {value : UInt8} (hvalue : value ∈ r.cells) :
    IsLabel value := by
  have hcells : r.cells.toList = (List.range r.rows).flatMap fun i => (List.range r.cols).map fun j => (r.get? i j).getD 0 := by
    apply Raster.toList_cells h.order_eq
    intro i j hi hj
    rw [Raster.get?, dif_pos ⟨hi, hj⟩, Option.getD_some]
  rw [← Array.mem_toList_iff, hcells, List.mem_flatMap] at hvalue
  obtain ⟨i, hi, hvalue⟩ := hvalue
  obtain ⟨j, hj, rfl⟩ := List.mem_map.mp hvalue
  have hcell : r.get? i j = some _ := dif_pos ⟨List.mem_range.mp hi, List.mem_range.mp hj⟩
  rw [hcell, Option.getD_some]
  exact h.get?_label i j _ hcell

theorem Raster.Labels.paste {r part : Raster UInt8} (h : r.Labels)
    (hpart : ∀ row col value, part.get? row col = some value → IsLabel value) (row col : Nat) :
    (r.paste row col part).Labels := by
  obtain ⟨hrows, hcols, horder⟩ := shape_paste r part row col
  refine ⟨horder.trans h.order_eq, (noData_paste ..).trans h.noData_eq, fun i j value hvalue => ?_⟩
  have hcell := bounds_of_get? hvalue
  rw [hrows, hcols] at hcell
  rw [get?_paste hcell] at hvalue
  split at hvalue
  · exact hpart _ _ value hvalue
  · exact h.get?_label i j value hvalue

/-- A further strip of labels is counted label by label. -/
theorem LabelTally.Counts.add {tally : LabelTally} {counts : LabelCounts} (h : tally.Counts counts)
    {strip : Raster UInt8} (hstrip : strip.Labels) : (tally.add strip).Counts (counts + .ofRaster strip) := by
  have hnoData : strip.isNoData = (· == WaterLabel.noData.value) := by
    funext value
    rw [Raster.isNoData, hstrip.noData_eq, Bool.eq_iff_iff, decide_eq_true_eq, beq_iff_eq, Option.some.injEq, eq_comm]
  have htotal := LabelCounts.total_ofRaster fun _ => hstrip.isLabel_of_mem
  refine ⟨?_, ?_, ?_⟩
  · show tally.water + _ = UInt64.ofNat (counts.water + _)
    rw [h.water_eq, UInt64.ofNat_add]
    rfl
  · show tally.noData + _ = UInt64.ofNat (counts.noData + _)
    rw [h.noData_eq, Raster.noDataCount, hnoData, UInt64.ofNat_add]
    rfl
  · show tally.labelled + _ = _
    rw [LabelCounts.total_add, h.labelled_eq, htotal, UInt64.ofNat_add]

namespace WaterDetection

variable {C : Type} [PixelClassifier C] {d : WaterDetection C} {decode : ChunkDecoder} {rowOffset rows : Nat}

theorem isLabel_label (d : WaterDetection C) (tile : BandTile) (row col : Nat) : IsLabel (d.label tile row col) := by
  unfold label
  split
  · exact ⟨_, rfl⟩
  · exact ⟨.noData, rfl⟩

theorem isLabel_labelWindow {w : Window} {labels : Raster UInt8} (h : d.labelWindow decode w = .ok labels)
    (row col : Nat) (value : UInt8) (hvalue : labels.get? row col = some value) : IsLabel value := by
  simp only [labelWindow, bind_eq_ok_iff, guard_eq_ok_iff, pure_eq_ok_iff] at h
  obtain ⟨tile, -, -, rfl⟩ := h
  have hcell : row < w.rows ∧ col < w.cols := Raster.bounds_of_get? hvalue
  rw [Raster.get?_ofFn _ hcell.1 hcell.2] at hvalue
  obtain rfl := Option.some.inj hvalue
  exact isLabel_label d tile row col

theorem labels_blankStrip (rows cols : Nat) : (blankStrip rows cols).Labels := by
  refine ⟨rfl, rfl, fun row col value hvalue => ⟨.noData, ?_⟩⟩
  have hcell := Raster.bounds_of_get? hvalue
  rw [Raster.get?, dif_pos hcell] at hvalue
  exact (Option.some.inj hvalue).symm.trans (Array.getElem_replicate ..)

theorem labels_pasteTiles {tiles : List (Tile × Raster UInt8)} {strip : Raster UInt8} (hstrip : strip.Labels)
    (htiles : ∀ tile ∈ tiles, ∀ row col value, tile.2.get? row col = some value → IsLabel value) :
    (pasteTiles rowOffset tiles strip).Labels := by
  induction tiles generalizing strip with
  | nil => exact hstrip
  | cons tile tiles ih =>
    rw [List.forall_mem_cons] at htiles
    exact ih (hstrip.paste htiles.1 _ _) htiles.2

/-- Every strip that is produced holds labels, whatever tiles it is put together from. -/
theorem labels_labelTiles {tiles : List Tile} {strip : Raster UInt8}
    (h : d.labelTiles decode rowOffset rows tiles = .ok strip) : strip.Labels := by
  simp only [labelTiles, mapWork, bind_eq_ok_iff, pure_eq_ok_iff] at h
  obtain ⟨labels, hlabels, rfl⟩ := h
  refine labels_pasteTiles (labels_blankStrip rows d.plan.width) fun tile hmem => ?_
  exact isLabel_labelWindow ((mapM_ok_zip hlabels).1 tile.1 tile.2 hmem)

/-- The counts of some strips. -/
def countsOf (strips : List (Raster UInt8)) : LabelCounts := (strips.map LabelCounts.ofRaster).sum

/-- Replies are counted where they are strips. -/
theorem counts_foldl {tally : LabelTally} {counts : LabelCounts} (h : tally.Counts counts)
    {replies : List (Except Error (Raster UInt8))} (hlabels : ∀ strip, .ok strip ∈ replies → strip.Labels) :
    (replies.foldl tallyAfter tally).Counts (counts + countsOf (replies.filterMap Except.toOption)) := by
  induction replies generalizing tally counts with
  | nil => exact h
  | cons reply replies ih =>
    have hrest : ∀ strip, .ok strip ∈ replies → strip.Labels := fun strip hmem =>
      hlabels strip (List.mem_cons_of_mem _ hmem)
    cases reply with
    | error e => exact ih h hrest
    | ok strip =>
      have hcounts := ih (h.add (hlabels strip List.mem_cons_self)) hrest
      rw [LabelCounts.add_assoc] at hcounts
      exact hcounts

end WaterDetection

end SurfaceWater
