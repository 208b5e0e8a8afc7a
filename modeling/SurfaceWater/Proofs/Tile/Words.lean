import SurfaceWater.Proofs.Numeric.Word
import SurfaceWater.Proofs.Tile.Walk

/-!
# Walks in words

A walk through an area as a machine goes it, with every sum, difference and quotient in words of 64 bits.
The cursor runs ahead of the tiles: after the last tile of a row it stands up to a tile beyond the right
edge before it returns, and after the last row up to a tile below the area. Where words reach that far and
can count the cells of the area, the machine goes the same walk.
-/

namespace SurfaceWater

theorem Word.ceilDiv?_eq {length size : Nat} (hsize : 0 < size) (hlength : length < Word.count) :
    Word.ceilDiv? length size = some (ceilDiv length size) := by
  have hparts := Nat.div_add_mod' length size
  have hmod := Nat.mod_lt length hsize
  have hquotient : length / size ≤ length := Nat.div_le_self length size
  rw [Word.ceilDiv?, if_neg (Nat.ne_of_gt hsize)]
  split
  case isTrue hzero =>
    have hceil : ceilDiv length size = length / size := by
      rw [ceilDiv, Nat.div_eq_iff hsize]
      omega
    rw [hceil]
  case isFalse hleft =>
    have hlt : length / size < length ∨ size = 1 := by
      rcases Nat.lt_or_ge 1 size with hgt | hle
      · exact .inl (Nat.div_lt_self (Nat.pos_of_ne_zero fun hzero => hleft (by rw [hzero, Nat.zero_mod])) hgt)
      · exact .inr (by omega)
    have hceil : ceilDiv length size = length / size + 1 := by
      rw [ceilDiv, Nat.div_eq_iff hsize, Nat.add_mul, Nat.one_mul]
      omega
    rw [hceil]
    apply Word.add?_of_lt
    rcases hlt with hlt | rfl
    · omega
    · exact absurd (Nat.mod_one length) hleft

namespace TileCursor

/-- Words hold the ends of the area with one tile more, and the number of its cells. -/
structure InWords (c : TileCursor) : Prop where
  rows : c.area.rowEnd + c.tileRows < Word.count
  cols : c.area.colEnd + c.tileCols < Word.count
  cells : c.area.size < Word.count

/-- A call for the next tile in words. A cursor behind the last tile has none and stays where it is. -/
def nextInWords (c : TileCursor) : Option (Option Tile × TileCursor) :=
  if c.area.isEmpty then some (none, c)
  else do
    let rowEnd ← Word.add? c.area.rowOffset c.area.rows
    if rowEnd ≤ c.row then some (none, c)
    else
      let rowsLeft ← Word.sub? rowEnd c.row
      let colEnd ← Word.add? c.area.colOffset c.area.cols
      let colsLeft ← Word.sub? colEnd c.col
      let tile : Tile := ⟨c.index, c.row, c.col, min c.tileRows rowsLeft, min c.tileCols colsLeft⟩
      let index ← Word.add? c.index 1
      let col ← Word.add? c.col c.tileCols
      if colEnd ≤ col then
        let row ← Word.add? c.row c.tileRows
        some (some tile, { c with row, col := c.area.colOffset, index })
      else some (some tile, { c with col, index })

/-- What so many calls reply, and the cursor after them. -/
def callsInWords : Nat → TileCursor → Option (List (Option Tile) × TileCursor)
  | 0, c => some ([], c)
  | n + 1, c => do
    let (reply, after) ← c.nextInWords
    let (replies, last) ← callsInWords n after
    some (reply :: replies, last)

/-- `tileCount` in words. -/
def tileCountInWords (c : TileCursor) : Option Nat :=
  if c.area.isEmpty then some 0
  else do
    let down ← Word.ceilDiv? c.area.rows c.tileRows
    let across ← Word.ceilDiv? c.area.cols c.tileCols
    Word.mul? down across

variable {c : TileCursor}

/-! ### Where the cursor stands -/

/-- There are no more tiles than cells. -/
theorem tileCount_le (c : TileCursor) : c.tileCount ≤ c.area.size := by
  rw [tileCount_eq, Nat.mul_comm]
  exact Nat.mul_le_mul (ceilDiv_le c.tileRows_pos) (ceilDiv_le c.tileCols_pos)

/-- Behind the last tile no tile is left. -/
theorem next?_place_tileCount (c : TileCursor) : (c.place c.tileCount).next? = none := by
  have hend : c.area.isEmpty = true ∨ c.area.rowEnd ≤ c.area.rowOffset + c.tileCount / c.across * c.tileRows := by
    rcases Nat.eq_zero_or_pos c.across with hacross | hacross
    · left
      have hcols : ¬ 0 < c.area.cols := fun hpos => by
        have := ceilDiv_pos c.tileCols_pos hpos
        rw [across] at hacross
        omega
      simp [Window.isEmpty, Nat.eq_zero_of_not_pos hcols]
    · right
      have hrows : c.area.rows ≤ ceilDiv c.area.rows c.tileRows * c.tileRows := le_ceilDiv_mul c.tileRows_pos
      rw [tileCount_eq, Nat.mul_div_cancel_left _ hacross, down, Window.rowEnd]
      omega
  have hdone : (c.area.isEmpty || decide (c.area.rowEnd ≤ c.area.rowOffset + c.tileCount / c.across * c.tileRows)) = true := by
    simpa using hend
  rw [next?, place]
  exact if_pos hdone

/-! ### The walk in words -/

theorem InWords.place (hwords : c.InWords) (k : Nat) : (c.place k).InWords := ⟨hwords.rows, hwords.cols, hwords.cells⟩

theorem tileCountInWords_eq (hwords : c.InWords) : c.tileCountInWords = some c.tileCount := by
  unfold tileCountInWords tileCount
  split
  case isTrue => rfl
  case isFalse hempty =>
    have hrows := hwords.rows
    have hcols := hwords.cols
    have hcount := Nat.lt_of_le_of_lt c.tileCount_le hwords.cells
    rw [tileCount, if_neg hempty] at hcount
    unfold Window.rowEnd at hrows
    unfold Window.colEnd at hcols
    rw [Word.ceilDiv?_eq c.tileRows_pos (by omega), Word.ceilDiv?_eq c.tileCols_pos (by omega)]
    exact Word.mul?_of_lt hcount

/-- One step in words: no number on the way is larger than an end of the area with one tile more. -/
theorem nextInWords_of_next? {tile : Tile} {after : TileCursor} (hwords : c.InWords) (hcol : c.col ≤ c.area.colEnd)
    (hindex : c.index < c.tileCount) (hnext : c.next? = some (tile, after)) :
    c.nextInWords = some (some tile, after) := by
  have hrows := hwords.rows
  have hcols := hwords.cols
  have hcells := Nat.lt_of_le_of_lt c.tileCount_le hwords.cells
  have hrowEnd : Word.add? c.area.rowOffset c.area.rows = some c.area.rowEnd :=
    Word.add?_of_lt (show c.area.rowEnd < Word.count by omega)
  have hcolEnd : Word.add? c.area.colOffset c.area.cols = some c.area.colEnd :=
    Word.add?_of_lt (show c.area.colEnd < Word.count by omega)
  rw [next?] at hnext
  split at hnext
  case isTrue => exact absurd hnext (Option.some_ne_none _).symm
  case isFalse hmore =>
    obtain ⟨hempty, hend⟩ : ¬ c.area.isEmpty = true ∧ ¬ c.area.rowEnd ≤ c.row := by simpa using hmore
    obtain ⟨rfl, rfl⟩ := Prod.mk.inj (Option.some.inj hnext)
    rw [nextInWords, if_neg hempty, hrowEnd, hcolEnd]
    simp only [Option.bind_eq_bind, Option.bind_some, if_neg hend, Word.sub?_of_le (Nat.le_of_not_le hend),
      Word.sub?_of_le hcol, Word.add?_of_lt (show c.index + 1 < Word.count by omega),
      Word.add?_of_lt (show c.col + c.tileCols < Word.count by omega),
      Word.add?_of_lt (show c.row + c.tileRows < Word.count by omega)]
    split
    · rfl
    · rfl

theorem nextInWords_of_next?_none (hwords : c.InWords) (hnext : c.next? = none) : c.nextInWords = some (none, c) := by
  have hrows := hwords.rows
  have hrowEnd : Word.add? c.area.rowOffset c.area.rows = some c.area.rowEnd :=
    Word.add?_of_lt (show c.area.rowEnd < Word.count by omega)
  rw [next?] at hnext
  split at hnext
  case isFalse => exact absurd hnext (Option.some_ne_none _)
  case isTrue hdone =>
    rw [nextInWords, hrowEnd]
    split
    case isTrue => rfl
    case isFalse hempty =>
      have hend : c.area.rowEnd ≤ c.row := by simpa [hempty] using hdone
      exact if_pos hend

/-- The tile of a place, if the walk has not ended before it. -/
def tileAt? (c : TileCursor) (k : Nat) : Option Tile := if k < c.tileCount then some (c.tileAt k) else none

/-- One call. The cursor walks through the places and stays in the one behind the last tile. -/
theorem nextInWords_place (hwords : c.InWords) (k : Nat) :
    (c.place (min k c.tileCount)).nextInWords = some (c.tileAt? k, c.place (min (k + 1) c.tileCount)) := by
  by_cases hk : k < c.tileCount
  · have hcol : c.area.colOffset + k % c.across * c.tileCols ≤ c.area.colOffset + c.area.cols :=
      Nat.add_le_add_left (Nat.le_of_lt (grid_of_lt hk).1) _
    rw [Nat.min_eq_left (Nat.le_of_lt hk), Nat.min_eq_left (Nat.succ_le_of_lt hk), tileAt?, if_pos hk]
    exact nextInWords_of_next? (hwords.place k) hcol hk (next?_place hk)
  · rw [Nat.min_eq_right (by omega), Nat.min_eq_right (by omega), tileAt?, if_neg hk]
    exact nextInWords_of_next?_none (hwords.place _) (next?_place_tileCount c)

theorem callsInWords_place (hwords : c.InWords) (n k : Nat) :
    (c.place (min k c.tileCount)).callsInWords n =
      some ((List.range' k n).map c.tileAt?, c.place (min (k + n) c.tileCount)) := by
  induction n generalizing k with
  | zero => rfl
  | succ n ih =>
    rw [callsInWords, nextInWords_place hwords k]
    simp only [Option.bind_eq_bind, Option.bind_some, ih (k + 1), List.range'_succ, List.map_cons]
    rw [Nat.add_right_comm, Nat.add_assoc]

/-- The calls from the first tile on: each replies with the tile of its number, and behind the last tile
nothing more comes. -/
theorem callsInWords_within {area : Window} {tileRows tileCols : Nat}
    (hwords : (within area tileRows tileCols).InWords) (n : Nat) :
    (within area tileRows tileCols).callsInWords n =
      some ((List.range n).map fun k => (within area tileRows tileCols).tiles[k]?,
        (within area tileRows tileCols).place (min n (within area tileRows tileCols).tileCount)) := by
  have hcalls := callsInWords_place hwords n 0
  rw [Nat.zero_min, place_zero, Nat.zero_add, ← List.range_eq_range'] at hcalls
  have hreply (k : Nat) : (within area tileRows tileCols).tiles[k]? = (within area tileRows tileCols).tileAt? k := by
    rw [tiles_within, List.getElem?_map, tileAt?]
    split
    case isTrue hk => rw [List.getElem?_range hk, Option.map_some]
    case isFalse hk => rw [List.getElem?_eq_none (by rw [List.length_range]; omega), Option.map_none]
  rw [hcalls]
  simp only [hreply]

end TileCursor

end SurfaceWater
