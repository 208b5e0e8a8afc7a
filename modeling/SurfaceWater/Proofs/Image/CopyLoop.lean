import Mathlib.Data.List.ProdSigma
import SurfaceWater.Proofs.Image.Reading
import SurfaceWater.Proofs.Window.Cells

/-!
# Reading by copying

A window as a machine reads it: it goes through the chunks, asks for each by its number, and copies the
samples that the window and the chunk have in common into the tile, one by one. Three counts of rows and
columns take part in that, those of the image, of the chunk and of the tile, and each is checked where it is
used. The ends of the window and the lengths of chunks are found in words of 64 bits. What was asked for and
what was written is kept, and compared at the end with `ImageLayout.readTile`.
-/

namespace SurfaceWater

/-- The chunks of a file by their numbers, which have 32 bits. -/
structure ChunkSource where
  /-- The width and the height of the part of a chunk that is inside the image. -/
  dimensions : UInt32 → Nat × Nat
  decode : UInt32 → Except Error (Array UInt16)

namespace ChunkSource

def decoder (source : ChunkSource) : ChunkDecoder := fun index => source.decode (UInt32.ofNat index)

end ChunkSource

/-- A sample that is written to a cell of a tile. -/
structure SampleWrite where
  row : Nat
  col : Nat
  band : Nat
  value : UInt16

def SampleWrite.cell (e : SampleWrite) : Nat × Nat × Nat := (e.row, e.col, e.band)

/-- How far a tile is. It has one cell after another for so many columns and bands. -/
structure CopyState (cells : Nat) where
  /-- The numbers of the chunks that were asked for, in order. -/
  asked : List UInt32
  /-- What was written, in order. -/
  written : List SampleWrite
  samples : Vector UInt16 cells

/-- Copying may end in an error. Where it leaves an array or the numbers that words hold it has no end at all. -/
abbrev Copying (cells : Nat) := ExceptT Error (StateT (CopyState cells) Option)

namespace CopyState

variable {cells : Nat}

def blank (cells : Nat) : CopyState cells := ⟨[], [], Vector.replicate cells 0⟩

def ask (state : CopyState cells) (index : UInt32) : CopyState cells := { state with asked := state.asked ++ [index] }

def write (cols bands : Nat) (state : CopyState cells) (e : SampleWrite) : CopyState cells :=
  { state with
    written := state.written ++ [e]
    samples := state.samples.setIfInBounds ((e.row * cols + e.col) * bands + e.band) e.value }

end CopyState

namespace Copying

variable {cells : Nat} {α : Type}

def ask (source : ChunkSource) (index : UInt32) : Copying cells (Array UInt16) := do
  modify fun state => state.ask index
  liftM (source.decode index)

end Copying

namespace ImageLayout

/-- The number that a chunk is asked for by. -/
def chunkNumber (l : ImageLayout) (place : Nat × Nat) : UInt32 := UInt32.ofNat (place.1 * l.chunksAcross + place.2)

/-- How many samples so many pixels have, in words. -/
def samplesInWords (l : ImageLayout) (cols rows : Nat) : Option Nat := do
  Word.mul? (← Word.mul? cols rows) l.bands

/-- `stride?` in words. How long a full chunk is, is only found out if the length is not that of the other shape. -/
def strideInWords (l : ImageLayout) (window : Window) (length : Nat) : Option (Option Nat) := do
  if length = (← l.samplesInWords window.cols window.rows) then some (some window.cols)
  else if length = (← l.samplesInWords l.chunkWidth l.chunkHeight) then some (some l.chunkWidth)
  else some none

end ImageLayout

/-! ### What the steps do -/

namespace CopyState

variable {cells cols bands : Nat}

/-- The state after several samples are written. -/
def writeAll (cols bands : Nat) (state : CopyState cells) (entries : List SampleWrite) : CopyState cells :=
  entries.foldl (CopyState.write cols bands) state

theorem writeAll_append (state : CopyState cells) (entries more : List SampleWrite) :
    state.writeAll cols bands (entries ++ more) = (state.writeAll cols bands entries).writeAll cols bands more :=
  List.foldl_append

/-- The samples after several are written. -/
def putAll (cols bands : Nat) (samples : Vector UInt16 cells) (entries : List SampleWrite) : Vector UInt16 cells :=
  entries.foldl (fun samples e => samples.setIfInBounds ((e.row * cols + e.col) * bands + e.band) e.value) samples

theorem writeAll_eq (state : CopyState cells) (entries : List SampleWrite) :
    state.writeAll cols bands entries =
      ⟨state.asked, state.written ++ entries, putAll cols bands state.samples entries⟩ := by
  induction entries generalizing state with
  | nil => rw [List.append_nil]; rfl
  | cons e entries ih =>
    show (state.write cols bands e).writeAll cols bands entries = _
    rw [ih, write, List.append_assoc, List.singleton_append]
    rfl

end CopyState

namespace Copying

variable {cells cols bands : Nat} {α β : Type}

theorem run_bind (step : Copying cells α) (next : α → Copying cells β) (state : CopyState cells) :
    (step >>= next).run.run state = (step.run.run state).bind fun outcome =>
      match outcome with
      | (.ok a, after) => (next a).run.run after
      | (.error e, after) => some (.error e, after) := by
  show Option.bind (step.run.run state) (fun outcome => ExceptT.bindCont next outcome.1 outcome.2) = _
  congr 1
  funext outcome
  rcases outcome with ⟨e | a, after⟩ <;> rfl

theorem run_lift (result : Except Error α) (state : CopyState cells) :
    (liftM result : Copying cells α).run.run state = some (result, state) := by
  cases result <;> rfl

/-- A part of the copying that ends well after it has written so much. -/
def Writes (cols bands : Nat) (step : Copying cells Unit) (entries : List SampleWrite) : Prop :=
  ∀ state, step.run.run state = some (.ok (), state.writeAll cols bands entries)

theorem Writes.forM {items : List α} {step : α → Copying cells Unit} {entries : α → List SampleWrite}
    (h : ∀ a ∈ items, Writes cols bands (step a) (entries a)) : Writes cols bands (items.forM step) (items.flatMap entries) := by
  induction items with
  | nil => exact fun _ => rfl
  | cons a items ih =>
    rw [List.forall_mem_cons] at h
    intro state
    show (step a >>= fun _ => items.forM step).run.run state = _
    rw [run_bind, h.1 state, Option.bind_some, List.flatMap_cons, CopyState.writeAll_append]
    exact ih h.2 _

end Copying

/-- All pixels of a chunk have samples. -/
def ImageChunk.Complete (chunk : ImageChunk) (bands : Nat) : Prop :=
  ∀ row col band, (row, col) ∈ chunk.window → band < bands →
    ((row - chunk.window.rowOffset) * chunk.stride + (col - chunk.window.colOffset)) * bands + band < chunk.samples.size

namespace ImageLayout

variable {l : ImageLayout} {source : ChunkSource} {w : Window}

/-- The cells of a tile that a part of its window has, by row, column and band. -/
def cellsOf (l : ImageLayout) (w part : Window) : List (Nat × Nat × Nat) :=
  List.range' (part.rowOffset - w.rowOffset) part.rows ×ˢ List.range' (part.colOffset - w.colOffset) part.cols ×ˢ
    List.range l.bands

/-- What is to be written to a cell of the tile. -/
def entryAt (l : ImageLayout) (decode : ChunkDecoder) (w : Window) (cell : Nat × Nat × Nat) : SampleWrite :=
  ⟨cell.1, cell.2.1, cell.2.2, l.sampleAt decode (w.rowOffset + cell.1) (w.colOffset + cell.2.1) cell.2.2⟩

/-- The cells of a tile that get their samples from a chunk. -/
def chunkCells (l : ImageLayout) (w : Window) (place : Nat × Nat) : List (Nat × Nat × Nat) :=
  match w.intersect (l.chunkWindow place.1 place.2) with
  | none => []
  | some part => l.cellsOf w part

/-- Words are enough to tell how a chunk came. -/
def ComesInWords (l : ImageLayout) (source : ChunkSource) (place : Nat × Nat) : Prop :=
  ∀ samples, source.decode (l.chunkNumber place) = .ok samples →
    ∃ stride, l.strideInWords (l.chunkWindow place.1 place.2) samples.size = some stride

/-- What is written for a chunk. -/
def chunkEntries (l : ImageLayout) (decode : ChunkDecoder) (w : Window) (place : Nat × Nat) : List SampleWrite :=
  (l.chunkCells w place).map (l.entryAt decode w)

/-- The ends that the copying of several chunks can come to. -/
inductive CopyEnd (l : ImageLayout) (source : ChunkSource) (w : Window) (places : List (Nat × Nat))
    (state : CopyState (w.rows * w.cols * l.bands)) :
    Option (Except Error Unit × CopyState (w.rows * w.cols * l.bands)) → Prop
  /-- Words are not enough for one of the chunks. -/
  | beyondWords {place : Nat × Nat} (hplace : place ∈ places) (hwords : ¬ l.ComesInWords source place) :
      CopyEnd l source w places state none
  /-- One cannot be decoded. The first like that is the last that was asked for. -/
  | failed {e : Error} {after : CopyState (w.rows * w.cols * l.bands)} {done : List (Nat × Nat)}
      (hchunks : places.mapM (fun place => l.fetch source.decoder place.1 place.2) = .error e)
      (hdone : done <+: places) (hasked : after.asked = state.asked ++ done.map l.chunkNumber) :
      CopyEnd l source w places state (some (.error e, after))
  /-- They were asked for in order, and what the window has of them was written. -/
  | copied {chunks : List ImageChunk} (hwords : ∀ place ∈ places, l.ComesInWords source place)
      (hchunks : places.mapM (fun place => l.fetch source.decoder place.1 place.2) = .ok chunks) :
      CopyEnd l source w places state (some (.ok (),
        ⟨state.asked ++ places.map l.chunkNumber, state.written ++ places.flatMap (l.chunkEntries source.decoder w),
          CopyState.putAll w.cols l.bands state.samples (places.flatMap (l.chunkEntries source.decoder w))⟩))

/-- The ends after a chunk are those of the others, with that chunk as the first that was asked for. -/
theorem CopyEnd.cons {place : Nat × Nat} {places : List (Nat × Nat)} {chunk : ImageChunk}
    (hwords : l.ComesInWords source place) (hfetch : l.fetch source.decoder place.1 place.2 = .ok chunk)
    {state : CopyState (w.rows * w.cols * l.bands)}
    {outcome : Option (Except Error Unit × CopyState (w.rows * w.cols * l.bands))}
    (h : CopyEnd l source w places
      ((state.ask (l.chunkNumber place)).writeAll w.cols l.bands (l.chunkEntries source.decoder w place)) outcome) :
    CopyEnd l source w (place :: places) state outcome := by
  have hmapM : (place :: places).mapM (fun place => l.fetch source.decoder place.1 place.2) =
      (places.mapM fun place => l.fetch source.decoder place.1 place.2) >>= fun chunks => .ok (chunk :: chunks) := by
    rw [List.mapM_cons, hfetch]
    rfl
  rw [CopyState.writeAll_eq] at h
  cases h with
  | beyondWords hplace hbeyond => exact .beyondWords (List.mem_cons_of_mem _ hplace) hbeyond
  | @failed e after done hchunks hdone hasked =>
    refine .failed (hmapM.trans (by rw [hchunks]; rfl)) (List.cons_prefix_cons.mpr ⟨rfl, hdone⟩) ?_
    rw [hasked, CopyState.ask, List.append_assoc, List.map_cons, List.singleton_append]
  | copied hrest hchunks =>
    have hcopied : CopyEnd l source w (place :: places) state _ :=
      .copied (List.forall_mem_cons.mpr ⟨hwords, hrest⟩) (hmapM.trans (by rw [hchunks]; rfl))
    rw [List.flatMap_cons, List.map_cons, CopyState.putAll, List.foldl_append, ← List.append_assoc,
      List.append_cons] at hcopied
    exact hcopied

end ImageLayout

end SurfaceWater
