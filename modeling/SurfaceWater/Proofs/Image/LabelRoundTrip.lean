import SurfaceWater.Proofs.Image.StripImage
import SurfaceWater.Proofs.Image.Uncompressed
import SurfaceWater.Proofs.Image.Writing

/-!
# From a source to a label file and back

A source is asked for its rows strip by strip. When it meets every request, the file shows what it replied,
row by row, and carries the georeference unchanged; when it does not, nothing is asked for any more and there is
no file. All that is needed of a codec is that it takes the session and returns its strips.
-/

namespace SurfaceWater.LabelFile

variable {σ : Type} {rows cols stripRows : Nat} {g : GeoReference} {noData : UInt8}

/-! ### Requests -/

/-- The requests for strips of so many rows: one after another from the top, the last one for the rows that remain. -/
def requests (rows stripRows : Nat) : List (Nat × Nat) :=
  (List.range (ceilDiv rows stripRows)).map fun k => (k * stripRows, min stripRows (rows - k * stripRows))

theorem strips_eq_requests (hstrip : 0 < stripRows) : strips rows stripRows rows 0 = requests rows stripRows := strips_eq hstrip

theorem requests_cover {row : Nat} (hstrip : 0 < stripRows) (hrow : row < rows) :
    ∃! request, request ∈ requests rows stripRows ∧ request.1 ≤ row ∧ row < request.1 + request.2 := by
  rw [← strips_eq_requests hstrip]
  obtain ⟨rowOffset, height, hmem, hstart, hend⟩ := exists_strip_of_lt hstrip hrow
  refine ⟨(rowOffset, height), ⟨hmem, hstart, hend⟩, ?_⟩
  rintro ⟨other, otherHeight⟩ ⟨hother, hotherStart, hotherEnd⟩
  obtain ⟨k, rfl, -, rfl⟩ := (mem_strips_iff hstrip).mp hmem
  obtain ⟨l, rfl, -, rfl⟩ := (mem_strips_iff hstrip).mp hother
  have hk : row / stripRows = k := by
    rw [Nat.div_eq_iff hstrip]
    omega
  have hl : row / stripRows = l := by
    rw [Nat.div_eq_iff hstrip]
    dsimp only at hotherStart hotherEnd
    omega
  rw [← hk, ← hl]

/-! ### Strips that were delivered -/

/-- The value of a cell in the reply with the strip of its row. -/
def shown (said : List Exchange) (stripRows row col : Nat) : UInt8 :=
  match said[row / stripRows]? with
  | some (_, .ok strip) => (strip.get? (row % stripRows) col).getD 0
  | _ => 0

section

variable {said : List Exchange} {out : List (List UInt8)} (h : said.mapM (replyBytes cols) = .ok out)

include h

/-- The strip of a request that was met. -/
theorem exists_delivered {k : Nat} {request : Nat × Nat} (hk : (said.map Prod.fst)[k]? = some request) :
    ∃ strip, said[k]? = some (request, .ok strip) ∧ (strip.rows = request.2 ∧ strip.cols = cols) ∧
      out[k]? = some strip.toRows.toList := by
  rw [List.getElem?_map] at hk
  obtain ⟨⟨_, reply⟩, hsaid, rfl⟩ := Option.map_eq_some_iff.mp hk
  have hplace := mapM_ok_getElem? h k
  rw [hsaid, Option.map_some] at hplace
  obtain ⟨bytes, hbytes, heq⟩ := Option.map_eq_some_iff.mp hplace.symm
  obtain ⟨strip, hstrip, hgiven⟩ := bind_eq_ok_iff.mp heq.symm
  obtain ⟨hshape, rfl⟩ := stripBytes_eq_ok_iff.mp hgiven
  obtain rfl : reply = .ok strip := hstrip
  exact ⟨strip, hsaid, hshape, hbytes⟩

theorem lengths_delivered : out.map List.length = (said.map Prod.fst).map fun (_, height) => height * cols := by
  apply List.ext_getElem?
  intro k
  rw [List.getElem?_map, List.getElem?_map]
  cases hk : (said.map Prod.fst)[k]? with
  | none =>
    have hplace := mapM_ok_getElem? h k
    rw [List.getElem?_map, Option.map_eq_none_iff] at hk
    rw [hk, Option.map_none] at hplace
    rw [Option.map_eq_none_iff.mp hplace.symm]
    rfl
  | some request =>
    obtain ⟨strip, -, ⟨hrows, hcols⟩, hout⟩ := exists_delivered h hk
    rw [hout, Option.map_some, Option.map_some, Array.length_toList, Raster.size_toRows, hrows, hcols]

variable (hsaid : said.map Prod.fst = strips rows stripRows rows 0)

include hsaid

/-- A cell stands in the strip of its row. -/
theorem exists_cell (hstrip : 0 < stripRows) {row col : Nat} (hrow : row < rows) (hcol : col < cols) :
    ∃ strip value, said[row / stripRows]? = some (stripAt rows stripRows (row / stripRows), .ok strip) ∧
      strip.get? (row % stripRows) col = some value ∧
      ∀ bytes, out[row / stripRows]? = some bytes → bytes[row % stripRows * cols + col]? = some value := by
  have hdiv := Nat.div_add_mod' row stripRows
  have hmod := Nat.mod_lt row hstrip
  have hrequest : (said.map Prod.fst)[row / stripRows]? = some (stripAt rows stripRows (row / stripRows)) := by
    rw [hsaid]
    exact getElem?_strips hstrip hrow
  obtain ⟨strip, hreply, ⟨hrows, hcols⟩, hout⟩ := exists_delivered h hrequest
  have hplace : row % stripRows < strip.rows := by
    rw [hrows, stripAt]
    dsimp only
    omega
  have hcell : strip.get? (row % stripRows) col = some _ := dif_pos ⟨hplace, hcols ▸ hcol⟩
  refine ⟨strip, _, hreply, hcell, ?_⟩
  intro bytes hbytes
  obtain rfl := Option.some.inj (hout.symm.trans hbytes)
  rw [← hcell, ← Raster.getElem?_toRows hplace (hcols ▸ hcol), Array.getElem?_toList, hcols]

theorem getElem?_shown (hstrip : 0 < stripRows) {row col : Nat} (hrow : row < rows) (hcol : col < cols)
    {bytes : List UInt8} (hbytes : out[row / stripRows]? = some bytes) :
    bytes[row % stripRows * cols + col]? = some (shown said stripRows row col) := by
  obtain ⟨strip, value, hreply, hget, hplace⟩ := exists_cell h hsaid hstrip hrow hcol
  simp only [hplace bytes hbytes, shown, hreply, hget, Option.getD_some]

end

/-! ### Sessions that are taken -/

/-- The encoder takes what comes before the strips. -/
theorem Encodable.header_eq {codec : ImageCodec} (h : Encodable codec rows cols stripRows g noData) :
    header codec rows cols stripRows g noData = .ok (headerCalls rows cols stripRows g noData) := by
  have hsizes : ((stripSizes rows cols stripRows).map fun n => List.replicate n (0 : UInt8)).map List.length =
      stripSizes rows cols stripRows := by
    rw [List.map_map]
    exact (List.map_congr_left fun _ _ => List.length_replicate).trans (List.map_id _)
  have htakes := h.takes _ hsizes
  rw [session, ImageCodec.takes_append, ImageCodec.takes_append] at htakes
  exact header_eq_ok_iff.mpr ⟨⟨h.cols_lt, h.rows_lt, h.stripRows_lt⟩, htakes.1.1, rfl⟩

section

variable {codec : ImageCodec} (h : Encodable codec rows cols stripRows g noData) {said : List Exchange}
  {out : List (List UInt8)} (hout : said.mapM (replyBytes cols) = .ok out)

include h hout

/-- The strips that were delivered are taken, however many they are. -/
theorem Encodable.takes_delivered (hsaid : said.map Prod.fst <+: strips rows stripRows rows 0) :
    codec.takes (headerCalls rows cols stripRows g noData) (out.map .strip) = true := by
  obtain ⟨rest, hrest⟩ := hsaid
  have hblank : (rest.map fun request => List.replicate (request.2 * cols) (0 : UInt8)).map List.length =
      rest.map fun request => request.2 * cols := by
    rw [List.map_map]
    exact List.map_congr_left fun _ _ => List.length_replicate
  have hsizes : (out ++ rest.map fun request => List.replicate (request.2 * cols) (0 : UInt8)).map List.length =
      stripSizes rows cols stripRows := by
    rw [stripSizes, ← hrest, List.map_append, List.map_append, lengths_delivered hout, hblank]
  have htakes := h.takes _ hsizes
  rw [session, ImageCodec.takes_append, ImageCodec.takes_append, List.map_append, ImageCodec.takes_append] at htakes
  exact htakes.1.2.1

theorem Encodable.takes_session (hsaid : said.map Prod.fst = strips rows stripRows rows 0) :
    codec.takes [] (session rows cols stripRows g noData out) = true := by
  refine h.takes out ?_
  rw [lengths_delivered hout, hsaid, stripSizes]

end

section

variable {codec : ImageCodec} {source : StripSource σ} {during : Bytes → Storage} {state : σ}
  (h : Encodable codec source.rows source.cols stripRows g noData)

include h

/-- A source that meets all requests is asked for all its strips. -/
theorem map_fst_conversation
    (hmet : ∀ exchange ∈ conversation codec source during g noData stripRows state, source.delivers exchange = true) :
    (conversation codec source during g noData stripRows state).map Prod.fst = strips source.rows stripRows source.rows 0 := by
  obtain ⟨out, hout⟩ := exists_mapM_eq_ok_iff.mpr fun exchange hmem => exists_replyBytes_iff.mpr (hmet exchange hmem)
  exact map_fst_exchanges_of_ok (foldlM_hand_eq_ok_iff.mpr
    ⟨out, hout, h.takes_delivered hout map_fst_exchanges_isPrefix, rfl⟩)

/-- A content is produced exactly when every request is met. -/
theorem exists_produce_iff :
    (∃ content, ((produce codec source during g noData stripRows).run.run state).1 = .ok content) ↔
      ∀ exchange ∈ conversation codec source during g noData stripRows state, source.delivers exchange = true := by
  have hmapM : (∃ out, (conversation codec source during g noData stripRows state).mapM (replyBytes source.cols) = .ok out) ↔
      ∀ exchange ∈ conversation codec source during g noData stripRows state, source.delivers exchange = true := by
    rw [exists_mapM_eq_ok_iff]
    exact forall₂_congr fun _ _ => exists_replyBytes_iff
  constructor
  · intro hproduced
    obtain ⟨content, hcontent⟩ := hproduced
    obtain ⟨-, out, hout, -⟩ := produce_eq_ok_iff.mp hcontent
    exact hmapM.mp ⟨out, hout⟩
  · intro hmet
    obtain ⟨out, hout⟩ := hmapM.mpr hmet
    have hsaid := map_fst_conversation h hmet
    exact ⟨_, produce_eq_ok_iff.mpr
      ⟨⟨h.cols_lt, h.rows_lt, h.stripRows_lt⟩, out, hout, hsaid, h.takes_session hout hsaid, rfl⟩⟩

/-- Requests are made up to the end, or up to one that is not met. -/
theorem conversation_ends :
    (conversation codec source during g noData stripRows state).map Prod.fst = strips source.rows stripRows source.rows 0 ∨
      ∃ last ∈ (conversation codec source during g noData stripRows state).getLast?, source.delivers last = false := by
  by_cases hmet : ∀ exchange ∈ conversation codec source during g noData stripRows state, source.delivers exchange = true
  · exact .inl (map_fst_conversation h hmet)
  right
  simp only [not_forall, Bool.not_eq_true] at hmet
  obtain ⟨exchange, hmem, hfails⟩ := hmet
  have hne : conversation codec source during g noData stripRows state ≠ [] := List.ne_nil_of_mem hmem
  rw [← List.dropLast_concat_getLast hne, List.mem_append, List.mem_singleton] at hmem
  rcases hmem with hmem | rfl
  · rw [delivers_of_mem_dropLast hmem] at hfails
    cases hfails
  · exact ⟨_, List.getLast?_eq_some_getLast hne, hfails⟩

end

/-! ### Files that were written -/

section

variable {codec : ImageCodec} {storage after : Storage} {path : String} {source : StripSource σ}
  {rowsPerStrip : Option Nat} {state : σ}
  (hstripRows : stripRows = min (rowsPerStrip.getD standardRowsPerStrip) source.rows)

include hstripRows

theorem exists_write_iff (hpath : storage.Writable path) (h : Encodable codec source.rows source.cols stripRows g noData) :
    (∃ after, (write codec storage path source g noData rowsPerStrip state).1 = (.ok (), after)) ↔
      ∃ content, ((produce codec source (storage.beside path) g noData stripRows).run.run state).1 = .ok content := by
  obtain ⟨location, hlocation⟩ := hpath.destination
  have hstrip := h.stripRows_pos
  simp only [write_ok_iff, ← hstripRows]
  constructor
  · intro hwritten
    obtain ⟨_, -, -, -, _, content, -, hcontent, -⟩ := hwritten
    exact ⟨content, hcontent⟩
  · intro hproduced
    obtain ⟨content, hcontent⟩ := hproduced
    exact ⟨_, ⟨Nat.ne_of_gt h.rows_pos, Nat.ne_of_gt h.cols_pos⟩, by omega, hpath.staged, location, content, hlocation,
      hcontent, rfl⟩

theorem log_of_write (hpath : storage.Writable path) (h : Encodable codec source.rows source.cols stripRows g noData) :
    (write codec storage path source.logged g noData rowsPerStrip (state, [])).2.2 =
      (conversation codec source (storage.beside path) g noData stripRows state).map Prod.fst := by
  have hstrip := h.stripRows_pos
  have hsize : source.logged.rows ≠ 0 ∧ source.logged.cols ≠ 0 := ⟨Nat.ne_of_gt h.rows_pos, Nat.ne_of_gt h.cols_pos⟩
  have hheader : header codec source.logged.rows source.logged.cols stripRows g noData = .ok _ := h.header_eq
  have hrows : min (rowsPerStrip.getD standardRowsPerStrip) source.logged.rows = stripRows := hstripRows.symm
  rw [write_state hsize (by omega) hpath.staged, hrows,
    state_produce Prod.snd (fun log exchange => log ++ [exchange.1]) (fun _ _ _ => rfl) hheader, List.foldl_append_eq_append, List.nil_append,
    conversation, exchanges_logged, ← List.flatMap_def]
  exact List.flatMap_pure_eq_map ..

variable (hafter : (write codec storage path source g noData rowsPerStrip state).1 = (.ok (), after))

include hafter

/-- What was written has sizes of 32 bits. -/
theorem sizes_of_write : Sizes source.rows source.cols stripRows := by
  obtain ⟨⟨hrows, hcols⟩, hpos, -, -, content, -, hcontent, -⟩ := write_ok_iff.mp hafter
  rw [← hstripRows] at hcontent
  obtain ⟨⟨hcolsLt, hrowsLt, -⟩, -⟩ := produce_eq_ok_iff.mp hcontent
  exact ⟨Nat.pos_of_ne_zero hrows, Nat.pos_of_ne_zero hcols, by omega, by omega, hrowsLt, hcolsLt⟩

/-- What was written is an image of the strips that were delivered. -/
theorem exists_image_of_write (hcodec : codec.ReturnsStrips) : ∃ image out, codec.load after path = .ok image ∧
    (conversation codec source (storage.beside path) g noData stripRows state).mapM (replyBytes source.cols) = .ok out ∧
    (conversation codec source (storage.beside path) g noData stripRows state).map Prod.fst =
      strips source.rows stripRows source.rows 0 ∧
    image.ShowsStrips source.rows source.cols stripRows noData out ∧ (g.Storable → image.Carries g) := by
  have hsizes := sizes_of_write hstripRows hafter
  obtain ⟨-, -, -, location, content, hlocation, hcontent, rfl⟩ := write_ok_iff.mp hafter
  rw [← hstripRows] at hcontent
  obtain ⟨-, out, hout, hsaid, htakes, rfl⟩ := produce_eq_ok_iff.mp hcontent
  have hlengths : out.map List.length = stripSizes source.rows source.cols stripRows := by
    rw [lengths_delivered hout, hsaid, stripSizes]
  obtain ⟨image, himage, hshows, hcarries⟩ := hcodec.exists_image _ _ _ g noData out hsizes hlengths htakes
  exact ⟨image, out, ImageCodec.load_eq_ok_iff.mpr ⟨_, Storage.entry_insert_destination hlocation, himage⟩, hout, hsaid,
    hshows, hcarries⟩

theorem exists_reader_of_write (hcodec : codec.ReturnsStrips) : ∃ reader tile,
    ImageReader.load codec after path = .ok reader ∧ reader.layout = layout source.rows source.cols stripRows noData ∧
    reader.readTile codec after reader.layout.fullWindow = .ok tile ∧
    ∀ row col, row < source.rows → col < source.cols → ∃ request strip value,
      (conversation codec source (storage.beside path) g noData stripRows state)[row / stripRows]? =
        some (request, .ok strip) ∧ request.1 + row % stripRows = row ∧
      strip.get? (row % stripRows) col = some value ∧ tile.pixel row col = #[value.toUInt16] := by
  have hsizes := sizes_of_write hstripRows hafter
  obtain ⟨image, out, himage, hout, hsaid, hshows, -⟩ := exists_image_of_write hstripRows hafter hcodec
  have hlengths : out.map List.length = stripSizes source.rows source.cols stripRows := by
    rw [lengths_delivered hout, hsaid, stripSizes]
  obtain ⟨reader, tile, hload, hlayout, htile, hpixel⟩ := hshows.exists_reader hsizes hlengths himage
    fun _ _ _ hrow hcol => getElem?_shown hout hsaid hsizes.stripRows_pos hrow hcol
  refine ⟨reader, tile, hload, hlayout, htile, fun row col hrow hcol => ?_⟩
  obtain ⟨strip, value, hreply, hget, -⟩ := exists_cell hout hsaid hsizes.stripRows_pos hrow hcol
  refine ⟨_, strip, value, hreply, Nat.div_add_mod' row stripRows, hget, ?_⟩
  simp only [hpixel row col hrow hcol, shown, hreply, hget, Option.getD_some]

/-- The height of the strips does not show in the cells. -/
theorem readsAs_of_write (hcodec : codec.ReturnsStrips) {value : Nat → Nat → UInt8}
    (hvalue : source.Holds (storage.beside path) value) : ReadsAs codec after path source.rows source.cols value := by
  obtain ⟨reader, tile, hload, hlayout, htile, hpixel⟩ := exists_reader_of_write hstripRows hafter hcodec
  refine ⟨reader, tile, hload, hlayout ▸ ⟨rfl, rfl, rfl⟩, htile, ?_⟩
  intro row col hrow hcol
  obtain ⟨request, strip, cell, hreply, hplace, hget, hcell⟩ := hpixel row col hrow hcol
  obtain ⟨content, before, hbefore⟩ := exists_reply_of_mem (List.mem_of_getElem? hreply)
  rw [hcell, hvalue content request before strip hbefore _ _ cell hget, hplace]

theorem load_georeference_of_write (hcodec : codec.ReturnsStrips) (hstorable : g.Storable)
    (hplaced : g.geoTransform?.isSome = true) : GeoReference.load codec after path = .ok g := by
  obtain ⟨image, out, himage, -, -, -, hcarries⟩ := exists_image_of_write hstripRows hafter hcodec
  obtain ⟨transform, htransform⟩ := Option.isSome_iff_exists.mp hplaced
  rw [GeoReference.load_eq himage, (hcarries hstorable).geoReference?_eq, htransform, Option.map_some, Option.elim_some]

end

/-! ### The whole file -/

section

variable {codec : ImageCodec} {storage : Storage} {path : String} {source : StripSource σ} {rowsPerStrip : Option Nat}

/-- A source is asked for every row once, from the top down, and for nothing more after the first request that it
does not meet. The file is written exactly when it meets them all. Then, if the codec returns strips, the file has
the shape of the source, declares the given value for missing data, shows the cells of the strips and carries the
georeference; and the cells of a source that always shows the same ones are the same for every height of strips. -/
theorem write_round_trip (hpath : storage.Writable path)
    (hstripRows : stripRows = min (rowsPerStrip.getD standardRowsPerStrip) source.rows)
    (h : Encodable codec source.rows source.cols stripRows g noData) {state : σ} {said : List Exchange}
    (hsaid : said = conversation codec source (storage.beside path) g noData stripRows state) :
    ((∀ row, row < source.rows → ∃! request, request ∈ requests source.rows stripRows ∧ request.1 ≤ row ∧
        row < request.1 + request.2) ∧
      ∀ request ∈ requests source.rows stripRows, request.1 + request.2 ≤ source.rows) ∧
    ((write codec storage path source.logged g noData rowsPerStrip (state, [])).1 =
        (write codec storage path source g noData rowsPerStrip state).1 ∧
      (write codec storage path source.logged g noData rowsPerStrip (state, [])).2.2 = said.map Prod.fst) ∧
    (said.map Prod.fst <+: requests source.rows stripRows ∧
      (∀ exchange ∈ said.dropLast, source.delivers exchange = true) ∧
      (said.map Prod.fst = requests source.rows stripRows ∨ ∃ last ∈ said.getLast?, source.delivers last = false)) ∧
    ((∃ after, (write codec storage path source g noData rowsPerStrip state).1 = (.ok (), after)) ↔
      said.map Prod.fst = requests source.rows stripRows ∧ ∀ exchange ∈ said, source.delivers exchange = true) ∧
    ∀ after, (write codec storage path source g noData rowsPerStrip state).1 = (.ok (), after) → codec.ReturnsStrips →
      (∃ reader tile, ImageReader.load codec after path = .ok reader ∧
        reader.layout = layout source.rows source.cols stripRows noData ∧
        reader.readTile codec after reader.layout.fullWindow = .ok tile ∧
        ∀ row col, row < source.rows → col < source.cols → ∃ request strip value,
          said[row / stripRows]? = some (request, .ok strip) ∧ request.1 + row % stripRows = row ∧
            strip.get? (row % stripRows) col = some value ∧ tile.pixel row col = #[value.toUInt16]) ∧
      (g.Storable → g.geoTransform?.isSome = true → GeoReference.load codec after path = .ok g) ∧
      ∀ value, source.Holds (storage.beside path) value → ReadsAs codec after path source.rows source.cols value := by
  have hstrips : strips source.rows stripRows source.rows 0 = requests source.rows stripRows :=
    strips_eq_requests h.stripRows_pos
  subst hsaid
  refine ⟨⟨fun row hrow => requests_cover h.stripRows_pos hrow, fun request hmem => ?_⟩,
    ⟨write_logged state [], log_of_write hstripRows hpath h⟩, ?_, ?_, fun after hafter hcodec => ?_⟩
  · rw [← hstrips] at hmem
    exact (strip_bounds h.stripRows_pos hmem).2.2
  · rw [← hstrips]
    exact ⟨map_fst_exchanges_isPrefix, fun _ hmem => delivers_of_mem_dropLast hmem, conversation_ends h⟩
  · rw [exists_write_iff hstripRows hpath h, exists_produce_iff h, ← hstrips]
    exact ⟨fun hmet => ⟨map_fst_conversation h hmet, hmet⟩, fun hall => hall.2⟩
  · exact ⟨exists_reader_of_write hstripRows hafter hcodec, load_georeference_of_write hstripRows hafter hcodec,
      fun _ => readsAs_of_write hstripRows hafter hcodec⟩

/-- Five rows of three cells, numbered from the upper left, whose source counts the requests. -/
def numbered : StripSource Nat where
  rows := 5
  cols := 3
  strip _ rowOffset rows := do
    modify (· + 1)
    return Raster.ofFn rows 3 fun row col => UInt8.ofNat (3 * (rowOffset + row) + col)

def utmGrid : GeoReference where
  pixelScale := some [2, 2, 0]
  tiepoints := some [0, 0, 0, 552000, 4182000, 0]
  transformation := none
  geoKeys := some [1, 1, 0, 0]
  geoDoubles := none
  geoAscii := some "UTM"

theorem write_round_trip_numbered : ImageCodec.uncompressed.ReturnsStrips ∧ ∃ after,
    (write .uncompressed (Storage.empty []) "labels.tif" numbered utmGrid 255 (some 2) 0).1 = (.ok (), after) ∧
      (write .uncompressed (Storage.empty []) "labels.tif" numbered.logged utmGrid 255 (some 2) (0, [])).2.2 =
        [(0, 2), (2, 2), (4, 1)] ∧
      GeoReference.load .uncompressed after "labels.tif" = .ok utmGrid ∧
      ReadsAs .uncompressed after "labels.tif" 5 3 fun row col => UInt8.ofNat (3 * row + col) := by
  have hstaged : ((Storage.empty []).stage "labels.tif").toOption.isSome = true := by decide +kernel
  have hdestination : (Storage.empty []).destination "labels.tif" = .ok ["labels.tif"] := by decide +kernel
  obtain ⟨staged, hstaged⟩ := Option.isSome_iff_exists.mp hstaged
  have hpath : (Storage.empty []).Writable "labels.tif" := ⟨⟨staged, toOption_eq_some_iff.mp hstaged⟩, _, hdestination⟩
  have hencodable : Encodable .uncompressed numbered.rows numbered.cols 2 utmGrid 255 :=
    ImageCodec.encodable_uncompressed ⟨by decide, by decide, by decide, by decide, by decide, by decide⟩ (by decide +kernel)
      (by decide +kernel)
  have hstripRows : 2 = min ((some 2).getD standardRowsPerStrip) numbered.rows := rfl
  have hstorable : utmGrid.Storable := ⟨by decide, by decide, by decide, by decide, by decide, by decide +kernel⟩
  obtain ⟨said, hsaid⟩ : ∃ said, said =
      conversation .uncompressed numbered ((Storage.empty []).beside "labels.tif") utmGrid 255 2 0 := ⟨_, rfl⟩
  obtain ⟨-, ⟨-, hlog⟩, ⟨-, -, hends⟩, hwritten, hread⟩ := write_round_trip hpath hstripRows hencodable hsaid
  have hmet : ∀ exchange ∈ said, numbered.delivers exchange = true := by
    intro exchange hmem
    obtain ⟨content, before, hreply⟩ := exists_reply_of_mem (hsaid ▸ hmem)
    obtain ⟨⟨rowOffset, rows⟩, reply⟩ := exchange
    obtain rfl : .ok (Raster.ofFn rows 3 fun row col => UInt8.ofNat (3 * (rowOffset + row) + col)) = reply := hreply
    have hshape : ∀ value, (Raster.ofFn rows 3 value : Raster UInt8).rows = rows ∧ (Raster.ofFn rows 3 value).cols = 3 :=
      fun _ => ⟨rfl, rfl⟩
    rw [StripSource.delivers, Bool.and_eq_true, decide_eq_true_eq, decide_eq_true_eq]
    exact hshape _
  have hall : said.map Prod.fst = requests numbered.rows 2 := by
    rcases hends with hall | ⟨last, hlast, hfails⟩
    · exact hall
    · rw [hmet last (List.mem_of_getLast? hlast)] at hfails
      cases hfails
  obtain ⟨after, hafter⟩ := hwritten.mpr ⟨hall, hmet⟩
  obtain ⟨-, hplaced, hcells⟩ := hread after hafter ImageCodec.returnsStrips_uncompressed
  refine ⟨ImageCodec.returnsStrips_uncompressed, after, hafter, hlog.trans (hall.trans (by decide +kernel)),
    hplaced hstorable rfl, hcells _ ?_⟩
  intro content request state strip hstrip row col cell hcell
  obtain rfl : Raster.ofFn request.2 3 (fun row col => UInt8.ofNat (3 * (request.1 + row) + col)) = strip :=
    Except.ok.inj hstrip
  have hin : row < request.2 ∧ col < 3 := Raster.bounds_of_get? hcell
  rw [Raster.get?_ofFn _ hin.1 hin.2] at hcell
  exact (Option.some.inj hcell).symm

end

end SurfaceWater.LabelFile
