import SurfaceWater.Proofs.Detection.MadeScenes
import SurfaceWater.Proofs.Image.LabelRoundTrip

/-!
# The outcome of a run

A run finds its image anew for every strip, while its own output is written beside it; the output is moved to its
place only when it is complete, so the image stays as it was, even where it is what the output replaces. A run
either replaces one file or changes nothing. It cannot end well without every chunk of the image: the strips
cover the image and the tiles of a strip cover the strip, so each chunk is read for some tile, however the image
is cut.
-/

namespace SurfaceWater

/-- What is decoded while a file is written beside an image is what was decoded before. -/
theorem ImageReader.decoder_beside {codec : ImageCodec} {storage : Storage} {path : String} {reader : ImageReader}
    (h : ImageReader.load codec storage path = .ok reader) (output : String) (content : Bytes) :
    reader.decoder codec (storage.beside output content) = reader.decoder codec storage := by
  obtain ⟨rfl, image, himage, -⟩ := load_eq_ok_iff.mp h
  obtain ⟨bytes, hentry, -⟩ := ImageCodec.load_eq_ok_iff.mp himage
  exact ImageCodec.decoder_congr ((Storage.entry_beside hentry).trans hentry.symm)

namespace WaterDetection

variable {C : Type} [PixelClassifier C] {d : WaterDetection C} {codec : ImageCodec} {decode : ChunkDecoder}
  {storage after : Storage} {output : String} {g : GeoReference} {noData : UInt8} {tally : LabelTally}

omit [PixelClassifier C] in
theorem make_eq_ok_iff {machine : Machine} {reader : ImageReader} {metadata : SceneMetadata} {classifier : C}
    {tileSize : Nat} {mode : ProcessingMode} :
    make machine reader metadata classifier tileSize mode = .ok d ↔ reader.layout.bands = bandCount ∧ 0 < tileSize ∧
      d = ⟨reader, .ofMetadata metadata classifier, .ofLayout reader.layout tileSize (mode.workers machine),
        mode.workers machine⟩ := by
  simp only [make, guard_eq_ok_iff, pure_eq_ok_iff, ne_eq, Decidable.not_not, Nat.pos_iff_ne_zero]
  constructor
  · intro h
    exact ⟨h.1, h.2.1, h.2.2.symm⟩
  · intro h
    exact ⟨h.1, h.2.1, h.2.2.symm⟩

/-! ### Labels that are written -/

section

variable (hsteady : ∀ content, d.reader.decoder codec (storage.beside output content) = decode)

include hsteady

/-- The replies of a detection are the strips of its image as it is decoded all the time. -/
theorem reply_of_mem_conversation {stripRows : Nat} {exchange : Exchange} (hmem : exchange ∈
      LabelFile.conversation codec (d.source codec) (storage.beside output) g noData stripRows tally) :
    exchange.2 = d.labelStrip decode exchange.1.1 exchange.1.2 := by
  obtain ⟨content, before, hreply⟩ := LabelFile.exists_reply_of_mem hmem
  rw [← hreply, reply_source, hsteady]

/-- A strip shows the labels of its pixels, however it is asked for. -/
theorem holds_labelAt (hl : d.reader.layout.Proper) :
    (d.source codec).Holds (storage.beside output) (d.labelAt decode) := by
  intro content request before strip hstrip row col cell hcell
  rw [reply_source, hsteady] at hstrip
  obtain ⟨-, ⟨hrows, hcols, -⟩, hlabels⟩ := labelStrip_eq_ok hl hstrip
  have hin := Raster.bounds_of_get? hcell
  rw [hrows, hcols] at hin
  exact (Option.some.inj ((hlabels row col hin.1 hin.2).symm.trans hcell)).symm

/-- The bytes that the encoder is told of are the labels, row after row. -/
theorem bytes_of_conversation (hl : d.reader.layout.Proper) {stripRows : Nat} {out : List (List UInt8)}
    (hout : (LabelFile.conversation codec (d.source codec) (storage.beside output) g noData stripRows tally).mapM
      (LabelFile.replyBytes d.plan.width) = .ok out) :
    out = ((LabelFile.conversation codec (d.source codec) (storage.beside output) g noData stripRows tally).map
      Prod.fst).map fun request => ((List.range request.2).map (request.1 + ·)).flatMap (d.rowLabels decode) := by
  rw [List.map_map]
  refine mapM_ok_eq_map hout fun exchange hmem bytes hbytes => ?_
  obtain ⟨strip, hstrip, hgiven⟩ := bind_eq_ok_iff.mp hbytes
  obtain ⟨-, rfl⟩ := LabelFile.stripBytes_eq_ok_iff.mp hgiven
  rw [reply_of_mem_conversation hsteady hmem] at hstrip
  exact toRows_labelStrip hl hstrip

section

variable (hl : d.reader.layout.Proper) (hplan : d.plan.Follows d.reader.layout)

include hl hplan

/-- A file of labels is made of the labels of all rows. -/
theorem publishes_labels
    (hafter : (LabelFile.write codec storage output (d.source codec) g noData (some d.plan.stripRows) tally).1 =
      (.ok (), after)) :
    storage.Published after output (codec.written (LabelFile.session d.plan.height d.plan.width d.plan.stripRows g noData
      ((LabelFile.requests d.plan.height d.plan.stripRows).map fun request =>
        ((List.range request.2).map (request.1 + ·)).flatMap (d.rowLabels decode)))) := by
  obtain ⟨content, hcontent, hpublished⟩ := LabelFile.write_publishes hafter
  obtain ⟨-, out, hout, hsaid, -, rfl⟩ := LabelFile.produce_eq_ok_iff.mp hcontent
  have hrows : min ((some d.plan.stripRows).getD LabelFile.standardRowsPerStrip) (d.source codec).rows = d.plan.stripRows :=
    Nat.min_eq_left hplan.stripRows_le
  have hbytes := bytes_of_conversation hsteady hl hout
  rw [hsaid, hrows, LabelFile.strips_eq_requests hplan.stripRows_pos] at hbytes
  rw [hrows, hbytes] at hpublished
  exact hpublished

/-- Labels are written only when the chunks of all pixels can be decoded. -/
theorem decodes_of_write
    (hafter : (LabelFile.write codec storage output (d.source codec) g noData (some d.plan.stripRows) tally).1 =
      (.ok (), after))
    {row col : Nat} (hrow : row < d.reader.layout.height) (hcol : col < d.reader.layout.width) :
    d.reader.layout.Decodes decode row col := by
  obtain ⟨content, hcontent, -⟩ := LabelFile.write_publishes hafter
  obtain ⟨-, out, hout, hsaid, -⟩ := LabelFile.produce_eq_ok_iff.mp hcontent
  have hrows : min ((some d.plan.stripRows).getD LabelFile.standardRowsPerStrip) (d.source codec).rows = d.plan.stripRows :=
    Nat.min_eq_left hplan.stripRows_le
  rw [hrows] at hsaid hout
  obtain ⟨rowOffset, height, hmem, hrow₁, hrow₂⟩ :=
    LabelFile.exists_strip_of_lt hplan.stripRows_pos (hplan.height_eq ▸ hrow : row < d.plan.height)
  obtain ⟨⟨request, reply⟩, hsaidMem, rfl⟩ := List.mem_map.mp (hsaid ▸ hmem)
  obtain ⟨bytes, hbytes⟩ := exists_mapM_eq_ok_iff.mp ⟨out, hout⟩ _ hsaidMem
  obtain ⟨strip, hstrip, -⟩ := bind_eq_ok_iff.mp hbytes
  rw [reply_of_mem_conversation hsteady hsaidMem] at hstrip
  exact (labelStrip_eq_ok hl hstrip).1 row col hrow₁ hrow₂ (hplan.width_eq ▸ hcol)

/-- Labels are written when there is room for them. -/
theorem exists_write (hbands : d.reader.layout.bands = bandCount)
    (hdecodes : ∀ row col, row < d.reader.layout.height → col < d.reader.layout.width → d.reader.layout.Decodes decode row col)
    (hpath : storage.Writable output)
    (hencodable : LabelFile.Encodable codec d.plan.height d.plan.width d.plan.stripRows g noData) :
    ∃ after, (LabelFile.write codec storage output (d.source codec) g noData (some d.plan.stripRows) tally).1 =
      (.ok (), after) := by
  have hrows : d.plan.stripRows = min ((some d.plan.stripRows).getD LabelFile.standardRowsPerStrip) (d.source codec).rows :=
    (Nat.min_eq_left hplan.stripRows_le).symm
  have hsource : LabelFile.Encodable codec (d.source codec).rows (d.source codec).cols d.plan.stripRows g noData := hencodable
  refine (LabelFile.exists_write_iff hrows hpath hsource).mpr ((LabelFile.exists_produce_iff hsource).mpr ?_)
  intro exchange hmem
  have hrequest : exchange.1 ∈ LabelFile.strips d.plan.height d.plan.stripRows d.plan.height 0 :=
    LabelFile.map_fst_exchanges_isPrefix.subset (List.mem_map_of_mem hmem)
  obtain ⟨-, -, hend⟩ := LabelFile.strip_bounds hplan.stripRows_pos hrequest
  rw [hplan.height_eq] at hend
  obtain ⟨strip, hstrip⟩ := exists_labelStrip hl hbands hplan hend hdecodes
  obtain ⟨-, ⟨hstripRows, hstripCols, -⟩, -⟩ := labelStrip_eq_ok hl hstrip
  have hreply := (reply_of_mem_conversation hsteady hmem).trans hstrip
  refine LabelFile.exists_replyBytes_iff.mp ⟨strip.toRows.toList, bind_eq_ok_iff.mpr ⟨strip, hreply, ?_⟩⟩
  exact LabelFile.stripBytes_eq_ok_iff.mpr ⟨⟨hstripRows, hstripCols⟩, rfl⟩

end

end

/-- A chunk that cannot be decoded makes every run over the image fail. -/
theorem write_fails {machine : Machine} {reader : ImageReader} {path : String} {metadata : SceneMetadata} {classifier : C}
    {tileSize : Nat} {mode : ProcessingMode} (hreader : ImageReader.load codec storage path = .ok reader)
    (hmake : make machine reader metadata classifier tileSize mode = .ok d) {i j : Nat}
    (hi : i < reader.layout.chunksDown) (hj : j < reader.layout.chunksAcross)
    (hchunk : reader.layout.Unreadable (reader.decoder codec storage) i j) :
    ∃ error, (LabelFile.write codec storage output (d.source codec) g noData (some d.plan.stripRows) tally).1 =
      (.error error, storage) := by
  have hl := ImageLayout.proper_of_lt hi hj
  obtain ⟨-, hsize, hd⟩ := make_eq_ok_iff.mp hmake
  obtain rfl : d.reader = reader := by rw [hd]
  have hplan : d.plan.Follows d.reader.layout := hd ▸ DetectionPlan.ofLayout_follows hl hsize (mode.workers machine)
  generalize hwrite : LabelFile.write codec storage output _ g noData _ tally = outcome
  obtain ⟨⟨error | _, after⟩, last⟩ := outcome
  · rw [LabelFile.write_error (congrArg Prod.fst hwrite)]
    exact ⟨error, rfl⟩
  · exfalso
    obtain ⟨hrow, hcol⟩ := ImageLayout.corner_lt hl hi hj
    obtain ⟨chunk, hfetch⟩ := decodes_of_write (ImageReader.decoder_beside hreader output) hl hplan
      (congrArg Prod.fst hwrite) hrow hcol
    rw [Nat.mul_div_cancel _ hl.chunkHeight_pos, Nat.mul_div_cancel _ hl.chunkWidth_pos] at hfetch
    exact ImageLayout.exists_fetch_iff.mp ⟨chunk, hfetch⟩ hchunk

end WaterDetection

/-! ### Runs -/

namespace PreparedRun

variable {codec : ImageCodec} {machine : Machine} {storage : Storage} {inputs : List String} {params : DetectionParams}
  {run : PreparedRun}

theorem ofInputs_eq_ok_iff :
    ofInputs codec machine storage inputs params = .ok run ↔ params.validate = .ok () ∧
      InputFiles.find inputs InputFiles.imageExtension = .ok run.image ∧
      SceneMetadata.load storage inputs = .ok run.metadata ∧
      GeoReference.load codec storage run.image = .ok run.reference ∧
      ∃ reader, ImageReader.load codec storage run.image = .ok reader ∧
        WaterDetection.make machine reader run.metadata params.rule params.tileSize params.mode = .ok run.detection := by
  simp only [ofInputs, bind_eq_ok_iff, pure_eq_ok_iff]
  constructor
  · intro h
    obtain ⟨_, hvalid, image, himage, metadata, hmetadata, reference, hreference, reader, hreader, d, hd, rfl⟩ := h
    exact ⟨hvalid, himage, hmetadata, hreference, reader, hreader, hd⟩
  · intro h
    obtain ⟨hvalid, himage, hmetadata, hreference, reader, hreader, hd⟩ := h
    exact ⟨(), hvalid, _, himage, _, hmetadata, _, hreference, reader, hreader, _, hd, rfl⟩

end PreparedRun

section

variable {codec : ImageCodec} {machine : Machine} {storage after : Storage} {inputs : List String} {output : String}
  {params : DetectionParams} {report : DetectionReport}

theorem detectWater_error {error : Error}
    (h : detectWater codec machine storage inputs output params = (.error error, after)) : after = storage := by
  unfold detectWater at h
  split at h
  · exact (Prod.mk.inj h).2.symm
  · split at h
    · rename_i hwrite
      obtain ⟨-, rfl⟩ := Prod.mk.inj h
      exact LabelFile.write_error (congrArg Prod.fst hwrite)
    · cases (Prod.mk.inj h).1

theorem detectWater_ok_iff : detectWater codec machine storage inputs output params = (.ok report, after) ↔
    ∃ run tally, PreparedRun.ofInputs codec machine storage inputs params = .ok run ∧
      run.write codec storage output = ((.ok (), after), tally) ∧ report = run.report tally := by
  unfold detectWater
  cases PreparedRun.ofInputs codec machine storage inputs params with
  | error e => simp
  | ok run =>
    constructor
    · intro h
      rcases hwrite : run.write codec storage output with ⟨⟨error | _, written⟩, tally⟩
      · simp only [hwrite, Prod.mk.injEq, reduceCtorEq, false_and] at h
      · simp only [hwrite, Prod.mk.injEq, Except.ok.injEq] at h
        obtain ⟨rfl, rfl⟩ := h
        exact ⟨run, tally, rfl, hwrite, rfl⟩
    · intro h
      obtain ⟨_, tally, hrun, hwrite, rfl⟩ := h
      obtain rfl := Except.ok.inj hrun
      simp only [hwrite]

theorem detectWater_unreadable {image : String} {reader : ImageReader} {i j : Nat}
    (himage : InputFiles.find inputs InputFiles.imageExtension = .ok image)
    (hreader : ImageReader.load codec storage image = .ok reader) (hi : i < reader.layout.chunksDown)
    (hj : j < reader.layout.chunksAcross) (hchunk : reader.layout.Unreadable (reader.decoder codec storage) i j) :
    ∃ error, detectWater codec machine storage inputs output params = (.error error, storage) := by
  unfold detectWater
  cases hrun : PreparedRun.ofInputs codec machine storage inputs params with
  | error e => exact ⟨e, rfl⟩
  | ok run =>
    obtain ⟨-, himage', -, -, reader', hreader', hmake⟩ := PreparedRun.ofInputs_eq_ok_iff.mp hrun
    obtain rfl := Except.ok.inj (himage.symm.trans himage')
    obtain rfl := Except.ok.inj (hreader.symm.trans hreader')
    have hfails : ∃ error, (run.write codec storage output).1 = (.error error, storage) :=
      WaterDetection.write_fails hreader hmake hi hj hchunk
    obtain ⟨error, hwrite⟩ := hfails
    rcases houtcome : run.write codec storage output with ⟨outcome, tally⟩
    rw [houtcome] at hwrite
    obtain rfl : outcome = (.error error, storage) := hwrite
    simp only [houtcome]
    exact ⟨error, rfl⟩

namespace ReadableScene

/-- A scene is found in one way only. -/
theorem eq (scene other : ReadableScene codec storage inputs) : scene = other := by
  obtain ⟨image, reader, metadata, reference, himage, hreader, _, _, hmetadata, hreference⟩ := scene
  obtain ⟨image', reader', metadata', reference', himage', hreader', _, _, hmetadata', hreference'⟩ := other
  obtain rfl := Except.ok.inj (himage.symm.trans himage')
  obtain rfl := Except.ok.inj (hreader.symm.trans hreader')
  obtain rfl := Except.ok.inj (hmetadata.symm.trans hmetadata')
  obtain rfl := Except.ok.inj (hreference.symm.trans hreference')
  rfl

/-- The run over a scene. -/
def prepared (scene : ReadableScene codec storage inputs) (machine : Machine) (params : DetectionParams) : PreparedRun :=
  ⟨scene.image, scene.metadata, scene.reference, scene.detection machine params⟩

section

variable (scene : ReadableScene codec storage inputs)

theorem follows (machine : Machine) (htileSize : 0 < params.tileSize) :
    (scene.detection machine params).plan.Follows scene.reader.layout :=
  DetectionPlan.ofLayout_follows scene.proper htileSize (params.mode.workers machine)

theorem stripRows_detection (machine : Machine) :
    (scene.detection machine params).plan.stripRows = scene.stripRows params := DetectionPlan.stripRows_ofLayout ..

theorem stripRows_pos (htileSize : 0 < params.tileSize) : 0 < scene.stripRows params :=
  Nat.lt_min.mpr ⟨htileSize, scene.proper.height_pos⟩

theorem steady (machine : Machine) (params : DetectionParams) (output : String) (content : Bytes) :
    (scene.detection machine params).reader.decoder codec (storage.beside output content) =
      scene.reader.decoder codec storage := ImageReader.decoder_beside scene.reader_eq output content

/-- A run over a scene succeeds when its output can be written. -/
theorem exists_run (machine : Machine) (hroom : scene.HasRoom output params) :
    ∃ report after, detectWater codec machine storage inputs output params = (.ok report, after) := by
  obtain ⟨htileSize, -, -⟩ := DetectionParams.validate_eq_ok_iff.mp hroom.params_valid
  have hplan := scene.follows machine htileSize
  have hencodable : LabelFile.Encodable codec (scene.detection machine params).plan.height
      (scene.detection machine params).plan.width (scene.detection machine params).plan.stripRows scene.reference
      WaterLabel.noData.value := by
    have hrows : (scene.detection machine params).plan.height = scene.height := hplan.height_eq
    have hcols : (scene.detection machine params).plan.width = scene.width := hplan.width_eq
    rw [hrows, hcols, stripRows_detection]
    exact hroom.encodable
  obtain ⟨after, hwrite⟩ : ∃ after, ((scene.prepared machine params).write codec storage output).1 = (.ok (), after) :=
    WaterDetection.exists_write (scene.steady machine params output) scene.proper hplan scene.bands_eq
      (fun row col => scene.decodes) hroom.writable hencodable
  refine ⟨_, after, detectWater_ok_iff.mpr ⟨scene.prepared machine params, _, ?_, Prod.ext hwrite rfl, rfl⟩⟩
  exact PreparedRun.ofInputs_eq_ok_iff.mpr ⟨hroom.params_valid, scene.find_eq, scene.metadata_eq, scene.reference_eq,
    scene.reader, scene.reader_eq, WaterDetection.make_eq_ok_iff.mpr ⟨scene.bands_eq, htileSize, rfl⟩⟩

end

end ReadableScene

/-- A run that ended well was one over a scene. -/
theorem exists_scene_of_run (h : detectWater codec machine storage inputs output params = (.ok report, after)) :
    ∃ (scene : ReadableScene codec storage inputs) (tally : LabelTally), 0 < params.tileSize ∧
      (scene.prepared machine params).write codec storage output = ((.ok (), after), tally) ∧
      report = (scene.prepared machine params).report tally := by
  obtain ⟨⟨image, metadata, reference, d⟩, tally, hrun, hwrite, rfl⟩ := detectWater_ok_iff.mp h
  obtain ⟨-, himage, hmetadata, hreference, reader, hreader, hmake⟩ := PreparedRun.ofInputs_eq_ok_iff.mp hrun
  dsimp only at himage hmetadata hreference hreader hmake
  obtain ⟨hbands, htileSize, rfl⟩ := WaterDetection.make_eq_ok_iff.mp hmake
  have hchunks : ∀ i j, i < reader.layout.chunksDown → j < reader.layout.chunksAcross →
      ¬ reader.layout.Unreadable (reader.decoder codec storage) i j := by
    intro i j hi hj hchunk
    obtain ⟨error, herror⟩ : ∃ error, detectWater codec machine storage inputs output params = (.error error, storage) :=
      detectWater_unreadable himage hreader hi hj hchunk
    cases h.symm.trans herror
  exact ⟨⟨image, reader, metadata, reference, himage, hreader, hbands, hchunks, hmetadata, hreference⟩, tally, htileSize,
    hwrite, rfl⟩

/-- What a run writes are the labels of the pixels, one by one. -/
theorem ReadableScene.labels_of_run (scene : ReadableScene codec storage inputs)
    (h : detectWater codec machine storage inputs output params = (.ok report, after)) :
    storage.Published after output (codec.written (LabelFile.session scene.height scene.width (scene.stripRows params)
        scene.reference WaterLabel.noData.value
        ((LabelFile.requests scene.height (scene.stripRows params)).map (scene.labelBytes params.rule)))) ∧
      (codec.ReturnsStrips → LabelFile.ReadsAs codec after output scene.height scene.width (scene.label params.rule)) := by
  obtain ⟨found, tally, htileSize, hwrite, -⟩ := exists_scene_of_run h
  obtain rfl := found.eq scene
  have hplan := found.follows machine htileSize
  have hsteady := found.steady machine params output
  have hrows : (found.detection machine params).plan.height = found.height := hplan.height_eq
  have hcols : (found.detection machine params).plan.width = found.width := hplan.width_eq
  have hafter := congrArg Prod.fst hwrite
  constructor
  · have hpublished := WaterDetection.publishes_labels hsteady found.proper hplan hafter
    rw [hrows, hcols, stripRows_detection] at hpublished
    have hbytes : (LabelFile.requests found.height (found.stripRows params)).map (found.labelBytes params.rule) =
        (LabelFile.requests found.height (found.stripRows params)).map fun request =>
          ((List.range request.2).map (request.1 + ·)).flatMap
            ((found.detection machine params).rowLabels (found.reader.decoder codec storage)) := by
      refine List.map_congr_left fun request hrequest => List.flatMap_congr fun row hrow => ?_
      have hstrip := found.stripRows_pos htileSize
      rw [← LabelFile.strips_eq_requests hstrip] at hrequest
      obtain ⟨-, -, hend⟩ := LabelFile.strip_bounds hstrip hrequest
      obtain ⟨r, hr, rfl⟩ := List.mem_map.mp hrow
      rw [WaterDetection.rowLabels, hcols]
      refine List.map_congr_left fun col hcol => (found.labelAt_detection ?_ (List.mem_range.mp hcol)).symm
      exact Nat.lt_of_lt_of_le (Nat.add_lt_add_left (List.mem_range.mp hr) _) hend
    rw [hbytes]
    exact hpublished
  · intro hcodec
    have hstripRows : (found.detection machine params).plan.stripRows =
        min ((some (found.detection machine params).plan.stripRows).getD LabelFile.standardRowsPerStrip)
          ((found.detection machine params).source codec).rows := (Nat.min_eq_left hplan.stripRows_le).symm
    have hreads := LabelFile.readsAs_of_write hstripRows hafter hcodec (WaterDetection.holds_labelAt hsteady found.proper)
    change LabelFile.ReadsAs codec after output (found.detection machine params).plan.height
      (found.detection machine params).plan.width _ at hreads
    rw [hrows, hcols] at hreads
    exact hreads.congr fun row col => found.labelAt_detection

/-- A run that fails changes nothing. One that succeeds replaces the file at its output by the labels of a scene that
was in the storage when it began, whose image may have been that very file, and changes nothing else. It fails if a
chunk of the image cannot be decoded, whatever decodes the chunks, whatever classifies the pixels and however the
image is cut up. What is said of the file holds for labels from any source. -/
theorem detectWater_all_or_nothing (codec : ImageCodec) (machine : Machine) (storage : Storage) (inputs : List String)
    (output : String) (params : DetectionParams) :
    (∀ error after, detectWater codec machine storage inputs output params = (.error error, after) → after = storage) ∧
    (∀ report after, detectWater codec machine storage inputs output params = (.ok report, after) →
      ∃ scene : ReadableScene codec storage inputs,
        storage.Published after output (codec.written (LabelFile.session scene.height scene.width
          (scene.stripRows params) scene.reference WaterLabel.noData.value
          ((LabelFile.requests scene.height (scene.stripRows params)).map (scene.labelBytes params.rule)))) ∧
        (codec.ReturnsStrips →
          LabelFile.ReadsAs codec after output scene.height scene.width (scene.label params.rule))) ∧
    (∀ image reader i j, InputFiles.find inputs InputFiles.imageExtension = .ok image →
      ImageReader.load codec storage image = .ok reader → i < reader.layout.chunksDown →
      j < reader.layout.chunksAcross → reader.layout.Unreadable (reader.decoder codec storage) i j →
      ∃ error, detectWater codec machine storage inputs output params = (.error error, storage)) ∧
    (∀ (C : Type) [PixelClassifier C] (d : WaterDetection C) path reader metadata classifier tileSize mode g noData tally
      i j, ImageReader.load codec storage path = .ok reader →
      WaterDetection.make machine reader metadata classifier tileSize mode = .ok d → i < reader.layout.chunksDown →
      j < reader.layout.chunksAcross → reader.layout.Unreadable (reader.decoder codec storage) i j →
      ∃ error, (LabelFile.write codec storage output (d.source codec) g noData (some d.plan.stripRows) tally).1 =
        (.error error, storage)) ∧
    ∀ (σ : Type) (source : StripSource σ) (g : GeoReference) (noData : UInt8) (rowsPerStrip : Option Nat) (state : σ),
      (∀ error after, (LabelFile.write codec storage output source g noData rowsPerStrip state).1 = (.error error, after) →
        after = storage) ∧
      ∀ after, (LabelFile.write codec storage output source g noData rowsPerStrip state).1 = (.ok (), after) →
        ∃ content, ((LabelFile.produce codec source (storage.beside output) g noData
            (min (rowsPerStrip.getD LabelFile.standardRowsPerStrip) source.rows)).run.run state).1 = .ok content ∧
          storage.Published after output content := by
  refine ⟨fun error after => detectWater_error, ?_, ?_, ?_, ?_⟩
  · intro report after h
    obtain ⟨scene, -⟩ := exists_scene_of_run h
    exact ⟨scene, scene.labels_of_run h⟩
  · intro image reader i j himage hreader hi hj hchunk
    exact detectWater_unreadable himage hreader hi hj hchunk
  · intro C _ d path reader metadata classifier tileSize mode g noData tally i j hreader hmake hi hj hchunk
    exact WaterDetection.write_fails hreader hmake hi hj hchunk
  · intro σ source g noData rowsPerStrip state
    exact ⟨fun error after => LabelFile.write_error, fun after => LabelFile.write_publishes⟩

/-- An image of a thousand columns whose file ends after its first sample. -/
def SceneFiles.cutOff : SceneFiles := ⟨{ SceneImage.filled 1000 1 bandCount 0 with samples := #[7] }, .standard⟩

/-- The run over the image that is cut off fails. One that writes the labels of the shore over its own image shows
the labels of what the image was. -/
theorem detectWater_fails_or_replaces_image :
    (∃ error, detectWater .uncompressed .standard SceneFiles.cutOff.storage SceneFiles.inputs "labels.tif" .standard =
      (.error error, SceneFiles.cutOff.storage)) ∧
    ∃ report after, detectWater .uncompressed .standard SceneFiles.shore.storage SceneFiles.inputs SceneFiles.imageName
        SceneFiles.shoreParams = (.ok report, after) ∧
      LabelFile.ReadsAs .uncompressed after SceneFiles.imageName 3 3 (SceneFiles.shoreLabel 2) := by
  constructor
  · have himage : (InputFiles.find SceneFiles.inputs InputFiles.imageExtension).toOption = some SceneFiles.imageName := by
      decide +kernel
    have hreader : ((ImageReader.load .uncompressed SceneFiles.cutOff.storage SceneFiles.imageName).toOption.any
        fun reader => decide (0 < reader.layout.chunksDown ∧ 0 < reader.layout.chunksAcross) &&
          (reader.decoder .uncompressed SceneFiles.cutOff.storage 0).toOption.isNone) = true := by
      decide +kernel
    obtain ⟨reader, hload, hchunk⟩ := (Option.any_eq_true _ _).mp hreader
    simp only [Bool.and_eq_true, decide_eq_true_eq] at hchunk
    obtain ⟨⟨hdown, hacross⟩, hdecode⟩ := hchunk
    have hunreadable : reader.layout.Unreadable (reader.decoder .uncompressed SceneFiles.cutOff.storage) 0 0 := by
      unfold ImageLayout.Unreadable
      rw [Nat.zero_mul, Nat.zero_add]
      cases hsamples : reader.decoder .uncompressed SceneFiles.cutOff.storage 0 with
      | error e => trivial
      | ok samples => simp [hsamples, Except.toOption] at hdecode
    exact (detectWater_all_or_nothing .uncompressed .standard SceneFiles.cutOff.storage SceneFiles.inputs "labels.tif"
      .standard).2.2.1 _ reader 0 0 (toOption_eq_some_iff.mp himage) (toOption_eq_some_iff.mp hload) hdown hacross
        hunreadable
  · obtain ⟨scene, ⟨hheight, hwidth⟩, hlabels⟩ := SceneFiles.exists_scene_shore
    have hroom := SceneFiles.hasRoom_shore scene SceneFiles.writable_shore.2 SceneFiles.validate_shoreParams
    obtain ⟨report, after, hrun⟩ := scene.exists_run .standard hroom
    obtain ⟨found, -, hreads⟩ := (detectWater_all_or_nothing .uncompressed .standard SceneFiles.shore.storage
      SceneFiles.inputs SceneFiles.imageName SceneFiles.shoreParams).2.1 report after hrun
    obtain rfl := found.eq scene
    have hreads := hreads ImageCodec.returnsStrips_uncompressed
    rw [hheight, hwidth] at hreads
    exact ⟨report, after, hrun, hreads.congr fun row col hrow hcol => (hlabels row col hrow hcol).1⟩

end

end SurfaceWater
