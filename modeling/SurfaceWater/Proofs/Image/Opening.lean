import SurfaceWater.Image.File
import SurfaceWater.Proofs.Except

/-!
# Opening images

A file is opened as the image that its directory records, with an offset for every strip or tile.
-/

namespace SurfaceWater

namespace ImageFile

variable {d : ImageDirectory} {f : ImageFile}

theorem positive?_eq_some {tag n : Nat} (hlong : d.long? tag = some (some n)) (hn : 0 < n) :
    positive? d tag = some n := by
  simp only [positive?, hlong, Option.bind_eq_bind, Option.bind_some, Nat.ne_of_gt hn, if_false]

theorem uniform?_replicate {n count : Nat} (hcount : 0 < count) : uniform? (List.replicate count n) = some n := by
  obtain ⟨rest, rfl⟩ : ∃ rest, count = rest + 1 := ⟨count - 1, by omega⟩
  rw [List.replicate_succ, uniform?, if_pos]
  rw [List.all_eq_true]
  intro m hm
  exact decide_eq_true (List.eq_of_mem_replicate hm)

theorem isSome_of_numbers? {tag : Nat} {values : List Nat} (h : d.numbers? tag = some (some values)) :
    (d.field? tag).isSome = true := by
  rw [ImageDirectory.numbers?] at h
  cases hfield : d.field? tag with
  | none =>
    rw [hfield] at h
    cases h
  | some field => rfl

/-- A directory of strips and no tiles has an offset for every strip. -/
theorem chunks?_of_strips {width height rows : Nat} {offsets sizes : List Nat}
    (hoffsets : d.numbers? stripOffsetsTag = some (some offsets)) (hsizes : d.numbers? stripSizesTag = some (some sizes))
    (hrows : d.long? rowsPerStripTag = some (some rows)) (htileOffsets : d.field? tileOffsetsTag = none)
    (htileSizes : d.field? tileSizesTag = none) (hpos : 0 < rows) (hoffsetCount : offsets.length = ceilDiv height rows)
    (hsizeCount : sizes.length = ceilDiv height rows) : chunks? d width height 1 = some (width, rows, offsets) := by
  have hrowsPos : ¬ rows = 0 := Nat.ne_of_gt hpos
  simp only [chunks?, isSome_of_numbers? hoffsets, isSome_of_numbers? hsizes, htileOffsets, htileSizes, Option.isSome_none,
    requiredList?, hoffsets, hsizes, hrows, Option.bind_eq_bind, Option.bind_some, Option.getD_some, hoffsetCount, hsizeCount,
    Nat.mul_one, hrowsPos, decide_false, ne_eq, not_true_eq_false, Bool.or_self, Bool.false_eq_true, if_false]

theorem chunks?_of_tiles {width height tileWidth tileHeight : Nat} {offsets sizes : List Nat}
    (hoffsets : d.numbers? tileOffsetsTag = some (some offsets)) (hsizes : d.numbers? tileSizesTag = some (some sizes))
    (hwidth : d.long? tileWidthTag = some (some tileWidth)) (hheight : d.long? tileHeightTag = some (some tileHeight))
    (hstripOffsets : d.field? stripOffsetsTag = none) (hstripSizes : d.field? stripSizesTag = none)
    (hwidthPos : 0 < tileWidth) (hheightPos : 0 < tileHeight)
    (hoffsetCount : offsets.length = ceilDiv width tileWidth * ceilDiv height tileHeight)
    (hsizeCount : sizes.length = ceilDiv width tileWidth * ceilDiv height tileHeight) :
    chunks? d width height 1 = some (tileWidth, tileHeight, offsets) := by
  simp only [chunks?, isSome_of_numbers? hoffsets, isSome_of_numbers? hsizes, hstripOffsets, hstripSizes, Option.isSome_none,
    requiredList?, hoffsets, hsizes, positive?_eq_some hwidth hwidthPos, positive?_eq_some hheight hheightPos,
    Option.bind_eq_bind, Option.bind_some, hoffsetCount, hsizeCount, Nat.mul_one, decide_false, ne_eq, not_true_eq_false,
    Bool.or_self, Bool.false_eq_true, if_false]

/-- The directory of an image says what the image is: its samples are all of one kind, and those of a pixel stand
together. -/
structure Recorded (f : ImageFile) : Prop where
  width_eq : f.directory.long? widthTag = some (some f.width)
  height_eq : f.directory.long? heightTag = some (some f.height)
  photometric_eq : f.directory.short? photometricTag = some (some f.photometric)
  compression_eq : f.directory.short? compressionTag = some (some f.compression)
  samples_eq : f.directory.short? samplesTag = some (some f.samples)
  sampleFormat_eq : f.directory.numbers? sampleFormatTag = some (some (List.replicate f.samples f.sampleFormat))
  bits_eq : f.directory.numbers? bitsTag = some (some (List.replicate f.samples f.bits))
  planar_eq : ∃ planarity, f.directory.short? planarTag = some planarity ∧ planarity.getD 1 = 1 ∧ f.planar = false
  chunks_eq : ∃ offsets, chunks? f.directory f.width f.height 1 = some (f.chunkWidth, f.chunkHeight, offsets) ∧
    f.offsets = offsets.toArray
  width_pos : 0 < f.width
  height_pos : 0 < f.height
  samples_pos : 0 < f.samples
  photometric_mem : f.photometric ∈ photometrics
  sampleFormat_lt : f.sampleFormat < UInt16.size
  bits_pos : 0 < f.bits
  bits_lt : f.bits < 256

theorem Recorded.open?_eq {bytes : Bytes} (h : f.Recorded) (hread : ImageDirectory.read? bytes = some f.directory) :
    open? bytes = some f := by
  have hformat := h.sampleFormat_lt
  have hbits := h.bits_pos
  have hbitsLt := h.bits_lt
  have hformats : uniform? (List.replicate f.samples f.sampleFormat) = some f.sampleFormat := uniform?_replicate h.samples_pos
  have hbitCounts : uniform? (List.replicate f.samples f.bits) = some f.bits := uniform?_replicate h.samples_pos
  obtain ⟨planarity, hplanarity, hone, hplanar⟩ := h.planar_eq
  obtain ⟨offsets, hchunks, hoffsets⟩ := h.chunks_eq
  unfold open?
  refine Option.bind_eq_some_iff.mpr ⟨f.directory, hread, ?_⟩
  refine Option.bind_eq_some_iff.mpr ⟨f.width, positive?_eq_some h.width_eq h.width_pos, ?_⟩
  refine Option.bind_eq_some_iff.mpr ⟨f.height, positive?_eq_some h.height_eq h.height_pos, ?_⟩
  refine Option.bind_eq_some_iff.mpr ⟨_, h.photometric_eq, Option.bind_eq_some_iff.mpr ⟨f.photometric, rfl, ?_⟩⟩
  refine guard_eq_some_iff.mpr ⟨by simp [h.photometric_mem], ?_⟩
  refine Option.bind_eq_some_iff.mpr ⟨_, h.compression_eq, ?_⟩
  refine Option.bind_eq_some_iff.mpr ⟨_, h.samples_eq, guard_eq_some_iff.mpr ⟨Nat.ne_of_gt h.samples_pos, ?_⟩⟩
  refine Option.bind_eq_some_iff.mpr ⟨_, h.sampleFormat_eq, Option.bind_eq_some_iff.mpr ⟨f.sampleFormat, hformats, ?_⟩⟩
  refine guard_eq_some_iff.mpr ⟨Nat.not_le.mpr hformat, ?_⟩
  refine Option.bind_eq_some_iff.mpr ⟨_, h.bits_eq, guard_eq_some_iff.mpr ⟨by simp, ?_⟩⟩
  refine Option.bind_eq_some_iff.mpr ⟨f.bits, hbitCounts, guard_eq_some_iff.mpr ⟨by simp; omega, ?_⟩⟩
  refine Option.bind_eq_some_iff.mpr ⟨planarity, hplanarity, guard_eq_some_iff.mpr ⟨by simp [hone], ?_⟩⟩
  simp only [hone]
  refine Option.bind_eq_some_iff.mpr ⟨_, hchunks, ?_⟩
  rw [← hoffsets]
  cases f
  cases hplanar
  rfl

end ImageFile

end SurfaceWater
