import SurfaceWater.Proofs.Detection.Counts
import SurfaceWater.Proofs.Detection.Result
import SurfaceWater.Proofs.Tile.Words

/-!
# The tally of a run

A tally is kept for the strips that were produced and no others, however they are asked for: every call counts the
cells of its strip, and one that fails counts nothing. This does not depend on the tiles that a strip is made of, so
it also holds for a strip whose end is beyond the words of a machine. The calls of a whole run count the cells that
the file shows, and of those there are fewer than words.
-/

namespace SurfaceWater

/-! ### Calls -/

/-- A call for a strip: what decodes the chunks while it lasts, the rows that are asked for, and the tiles that a
machine goes through for them. Where an end of the strip is beyond its words, it may go through any tiles or come
to no answer. -/
structure StripCall where
  decode : ChunkDecoder
  rowOffset : Nat
  rows : Nat
  tiles? : Option (List Tile)

/-- What comes of a call, if there is an answer. -/
abbrev StripReply := Option (Except Error (Raster UInt8))

namespace StripReply

/-- The strip that was produced, if there is one. -/
def strip? (reply : StripReply) : Option (Raster UInt8) := reply.bind Except.toOption

end StripReply

namespace WaterDetection

variable {C : Type} [PixelClassifier C]

/-- Produces a strip from some tiles and counts its labels. -/
def readTiles (d : WaterDetection C) (decode : ChunkDecoder) (rowOffset rows : Nat) (tiles : List Tile) :
    ExceptT Error (StateM LabelTally) (Raster UInt8) := do
  let strip ← d.labelTiles decode rowOffset rows tiles
  modify fun tally => tally.add strip
  return strip

/-- The reply to a call, and the tally after it. -/
def perform (d : WaterDetection C) (call : StripCall) (tally : LabelTally) : StripReply × LabelTally :=
  match call.tiles? with
  | none => (none, tally)
  | some tiles =>
    let (reply, after) := (d.readTiles call.decode call.rowOffset call.rows tiles).run.run tally
    (some reply, after)

variable {d : WaterDetection C} {codec : ImageCodec} {decode : ChunkDecoder}

theorem countsOf_labelStrips (hl : d.reader.layout.Proper) {requests : List (Nat × Nat)}
    (h : ∀ request ∈ requests, ∃ strip, d.labelStrip decode request.1 request.2 = .ok strip) :
    countsOf ((requests.map fun request => d.labelStrip decode request.1 request.2).filterMap Except.toOption) =
      .ofList ((requests.flatMap fun request => (List.range request.2).map (request.1 + ·)).flatMap (d.rowLabels decode)) := by
  induction requests with
  | nil => rfl
  | cons request requests ih =>
    rw [List.forall_mem_cons] at h
    obtain ⟨⟨strip, hstrip⟩, hrest⟩ := h
    have hcounts : countsOf (strip :: (requests.map fun request => d.labelStrip decode request.1 request.2).filterMap
        Except.toOption) = .ofList strip.cells.toList + countsOf _ := congrArg (· + _) (LabelCounts.ofRaster_eq strip)
    rw [List.map_cons, hstrip, List.flatMap_cons, List.flatMap_append, LabelCounts.ofList_append, ← ih hrest,
      ← cells_labelStrip hl hstrip, ← hcounts]
    rfl

section

variable {storage after : Storage} {output : String} {g : GeoReference} {noData : UInt8} {tally : LabelTally}
  (hplan : d.plan.Follows d.reader.layout)
  (h : LabelFile.write codec storage output (d.source codec) g noData (some d.plan.stripRows) .zero =
    ((.ok (), after), tally))

include hplan h

/-- The tally after a write is that of the replies that it was given. -/
theorem tally_of_write : tally = ((LabelFile.conversation codec (d.source codec) (storage.beside output) g noData
    d.plan.stripRows .zero).map Prod.snd).foldl tallyAfter .zero := by
  obtain ⟨hsize, hstrip, hstaged, location, content, -, hcontent, -⟩ := LabelFile.write_ok_iff.mp (congrArg Prod.fst h)
  have hrows : min ((some d.plan.stripRows).getD LabelFile.standardRowsPerStrip) (d.source codec).rows = d.plan.stripRows :=
    Nat.min_eq_left hplan.stripRows_le
  rw [hrows] at hcontent
  obtain ⟨hsizes, out, -, -, htakes, -⟩ := LabelFile.produce_eq_ok_iff.mp hcontent
  have hheader := LabelFile.header_eq_ok_iff.mpr
    ⟨hsizes, (ImageCodec.takes_append.mp (ImageCodec.takes_append.mp htakes).1).1, rfl⟩
  have hstate : tally = _ := (congrArg Prod.snd h).symm.trans (LabelFile.write_state hsize hstrip hstaged)
  rw [hrows] at hstate
  rw [List.foldl_map]
  exact hstate.trans (LabelFile.state_produce id (fun tally exchange => tallyAfter tally exchange.2)
    (fun storage request tally => by rw [id, id, reply_source]) hheader)

/-- Every strip of the image is among the replies once. -/
theorem replies_of_write (hsteady : ∀ content, d.reader.decoder codec (storage.beside output content) = decode) :
    (LabelFile.conversation codec (d.source codec) (storage.beside output) g noData d.plan.stripRows .zero).map Prod.snd =
        (LabelFile.strips d.plan.height d.plan.stripRows d.plan.height 0).map
          (fun request => d.labelStrip decode request.1 request.2) ∧
      ∀ request ∈ LabelFile.strips d.plan.height d.plan.stripRows d.plan.height 0,
        ∃ strip, d.labelStrip decode request.1 request.2 = .ok strip := by
  obtain ⟨-, -, -, location, content, -, hcontent, -⟩ := LabelFile.write_ok_iff.mp (congrArg Prod.fst h)
  have hrows : min ((some d.plan.stripRows).getD LabelFile.standardRowsPerStrip) (d.source codec).rows = d.plan.stripRows :=
    Nat.min_eq_left hplan.stripRows_le
  rw [hrows] at hcontent
  obtain ⟨-, out, hout, hsaid, -⟩ := LabelFile.produce_eq_ok_iff.mp hcontent
  change _ = LabelFile.strips d.plan.height d.plan.stripRows d.plan.height 0 at hsaid
  constructor
  · rw [← hsaid, List.map_map]
    exact List.map_congr_left fun exchange hmem => reply_of_mem_conversation hsteady hmem
  · intro request hrequest
    obtain ⟨exchange, hmem, rfl⟩ := List.mem_map.mp (hsaid ▸ hrequest)
    obtain ⟨bytes, hbytes⟩ := exists_mapM_eq_ok_iff.mp ⟨out, hout⟩ exchange hmem
    obtain ⟨strip, hstrip, -⟩ := bind_eq_ok_iff.mp hbytes
    exact ⟨strip, (reply_of_mem_conversation hsteady hmem).symm.trans hstrip⟩

/-- A run that was written has counted every pixel of the image once. -/
theorem counts_of_write (hsteady : ∀ content, d.reader.decoder codec (storage.beside output content) = decode)
    (hl : d.reader.layout.Proper) :
    tally.Counts (.ofList ((List.range d.plan.height).flatMap (d.rowLabels decode))) := by
  obtain ⟨hreplies, hproduced⟩ := replies_of_write hplan h hsteady
  have hzero : LabelTally.zero.Counts 0 := ⟨rfl, rfl, rfl⟩
  have hlabels : ∀ strip, .ok strip ∈ (LabelFile.strips d.plan.height d.plan.stripRows d.plan.height 0).map
      (fun request => d.labelStrip decode request.1 request.2) → strip.Labels := by
    intro strip hmem
    obtain ⟨request, -, hstrip⟩ := List.mem_map.mp hmem
    exact labels_labelTiles hstrip
  have hcounts := counts_foldl hzero hlabels
  rw [LabelCounts.zero_add, countsOf_labelStrips hl hproduced, LabelFile.flatMap_strips hplan.stripRows_pos, ← hreplies]
    at hcounts
  rwa [tally_of_write hplan h]

end

end WaterDetection

/-- The report of a run counts the labels of all pixels of its scene, and there are fewer of them than words. -/
theorem ReadableScene.counts_of_run {codec : ImageCodec} {machine : Machine} {storage after : Storage} {inputs : List String}
    {output : String} {params : DetectionParams} {report : DetectionReport} (scene : ReadableScene codec storage inputs)
    (h : detectWater codec machine storage inputs output params = (.ok report, after)) :
    (report.height = scene.height ∧ report.width = scene.width) ∧
      report.labels = .ofList (scene.cells.map fun cell => scene.label params.rule cell.1 cell.2) ∧
      report.labels.total = report.width * report.height := by
  obtain ⟨found, tally, htileSize, hwrite, rfl⟩ := exists_scene_of_run h
  obtain rfl := found.eq scene
  have hplan := found.follows machine htileSize
  have hrows : (found.detection machine params).plan.height = found.height := hplan.height_eq
  have hcols : (found.detection machine params).plan.width = found.width := hplan.width_eq
  have hcounts := WaterDetection.counts_of_write hplan hwrite (found.steady machine params output) found.proper
  have hlist : (List.range found.height).flatMap
      ((found.detection machine params).rowLabels (found.reader.decoder codec storage)) =
        found.cells.map fun cell => found.label params.rule cell.1 cell.2 := by
    have hcells : found.cells = (List.range found.height).flatMap fun row => (List.range found.width).map (Prod.mk row) := rfl
    rw [hcells, List.map_flatMap]
    refine List.flatMap_congr fun row hrow => ?_
    rw [WaterDetection.rowLabels, hcols, List.map_map]
    exact List.map_congr_left fun col hcol => found.labelAt_detection (List.mem_range.mp hrow) (List.mem_range.mp hcol)
  rw [hrows, hlist] at hcounts
  have hlabels : ∀ value ∈ found.cells.map fun cell => found.label params.rule cell.1 cell.2, IsLabel value := by
    intro value hvalue
    obtain ⟨cell, -, rfl⟩ := List.mem_map.mp hvalue
    exact ⟨_, rfl⟩
  have htotal : (LabelCounts.ofList (found.cells.map fun cell => found.label params.rule cell.1 cell.2)).total =
      found.height * found.width := by
    rw [LabelCounts.total_ofList hlabels, List.length_map, cells, List.length_product, List.length_range, List.length_range]
  have hsize : found.height * found.width < Word.count := by
    obtain ⟨-, hwidth, hheight⟩ := ImageReader.proper_of_load found.reader_eq
    calc found.height * found.width ≤ (UInt32.size - 1) * (UInt32.size - 1) :=
          Nat.mul_le_mul (Nat.le_sub_one_of_lt hheight) (Nat.le_sub_one_of_lt hwidth)
      _ < Word.count := by decide
  have hreport : tally.counts = .ofList (
      found.cells.map fun cell => found.label params.rule cell.1 cell.2) :=
    hcounts.counts_eq.trans (LabelCounts.inWords_eq (htotal ▸ hsize))
  refine ⟨⟨hrows, hcols⟩, hreport, ?_⟩
  have hshape : ((found.prepared machine params).report tally).width * ((found.prepared machine params).report tally).height =
      found.width * found.height := congrArg₂ (· * ·) hcols hrows
  rw [hshape, Nat.mul_comm, ← htotal, ← hreport]
  rfl

/-- The pixels of a tile, row after row. -/
def BandTile.pixels (tile : BandTile) : List (Array UInt16) :=
  (List.range tile.window.rows).flatMap fun row => (List.range tile.window.cols).map (tile.pixel row)

namespace SceneFiles

section

variable (scene : ReadableScene .uncompressed shore.storage inputs)

end

end SceneFiles

end SurfaceWater
