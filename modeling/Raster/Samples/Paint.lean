import Raster.Samples.Basic

/-!
# Writing samples

A buffer is cut into the rows of a shape, and a grid is written row by row. The
bytes between samples, between rows and after the last row keep their values.

* `Shape.mapRows` — a buffer with a function run on each of its rows.
* `Shape.paint`, `Shape.paintFrom` — a buffer with the samples of a grid replaced.
* `Shape.locate` — the sample that a byte belongs to, the inverse of `Shape.address`.

Results, for a shape that fits the buffer:

* `Shape.join_rows` — the rows and what follows them make up the buffer.
* `Shape.paint_eq_mapIdx` — painting replaces each byte by the value of its sample.
* `Shape.read_paint` — a painted grid reads back as it was painted.
-/

namespace Raster.Shape

/-! ## Rows -/

/-- Row `y` of a buffer: a piece of one pitch, or what is left of the buffer. -/
def row (s : Shape) (bytes : Bytes) (y : Nat) : Bytes :=
  bytes.extract (y * s.pitch) ((y + 1) * s.pitch)

/-- The rows of a buffer, as many as the grid is high. -/
def rows (s : Shape) (bytes : Bytes) : List Bytes := (List.range s.height).map (s.row bytes)

/-- The bytes after the last row. -/
def afterRows (s : Shape) (bytes : Bytes) : Bytes := bytes.extract (s.height * s.pitch) bytes.size

/-- The buffer with a function run on each row. -/
def mapRows (s : Shape) (f : (y : Nat) → (row : Bytes) → Bytes) (bytes : Bytes) : Bytes :=
  join ((List.range s.height).map fun y => f y (s.row bytes y)) ++ s.afterRows bytes

/-! ## Painting -/

/-- A row with the bytes of its samples replaced and those between them kept. -/
def paintRow (s : Shape) (value : (x channel : Nat) → UInt8) (row : Bytes) : Bytes :=
  row.mapIdx fun i old =>
    if i / s.pixelStride < s.width ∧ i % s.pixelStride < s.channels then
      value (i / s.pixelStride) (i % s.pixelStride)
    else old

/-- The buffer with the bytes of all samples replaced. -/
def paint (s : Shape) (value : (x y channel : Nat) → UInt8) (bytes : Bytes) : Bytes :=
  s.mapRows (fun y row => s.paintRow (fun x c => value x y c) row) bytes

/-- `paint` from byte `offset` on. -/
def paintFrom (s : Shape) (value : (x y channel : Nat) → UInt8) (bytes : Bytes) (offset : Nat) :
    Bytes :=
  bytes.extract 0 offset ++ s.paint value (bytes.extract offset bytes.size)

/-- The sample and the channel that byte `i` belongs to, if it belongs to one. -/
def locate (s : Shape) (i : Nat) : Option (Nat × Nat × Nat) :=
  let y := i / s.pitch
  let x := i % s.pitch / s.pixelStride
  let c := i % s.pitch % s.pixelStride
  if x < s.width ∧ y < s.height ∧ c < s.channels then some (x, y, c) else none

/-- The new value of byte `i`. -/
def repaint (s : Shape) (value : (x y channel : Nat) → UInt8) (i : Nat) (old : UInt8) : UInt8 :=
  match s.locate i with
  | some (x, y, c) => value x y c
  | none => old

/-! ## The rows make up the buffer -/

theorem join_append (a b : List Bytes) : join (a ++ b) = join a ++ join b := by
  induction a with
  | nil => simp
  | cons piece rest ih => rw [List.cons_append, join_cons, join_cons, ih, Array.append_assoc]

theorem join_rows_upTo (s : Shape) (bytes : Bytes) (n : Nat) :
    join ((List.range n).map (s.row bytes)) = bytes.extract 0 (n * s.pitch) := by
  induction n with
  | zero => simp
  | succ n ih =>
    have grows : n * s.pitch ≤ (n + 1) * s.pitch := Nat.mul_le_mul_right _ (by omega)
    rw [List.range_succ, List.map_append, join_append, ih]
    simp only [List.map_cons, List.map_nil, join_cons, join_nil, Array.append_empty, row]
    rw [Array.extract_append_extract]
    congr 1
    omega

theorem join_rows (s : Shape) (bytes : Bytes) :
    join (s.rows bytes) ++ s.afterRows bytes = bytes := by
  rw [rows, join_rows_upTo, afterRows, Array.extract_append_extract]
  simp only [Nat.zero_min]
  rw [Array.extract_eq_self_of_le (by omega)]

theorem extract_mapIdx (bytes : Bytes) (f : Nat → UInt8 → UInt8) (a b : Nat) :
    (bytes.extract a b).mapIdx (fun i old => f (a + i) old) = (bytes.mapIdx f).extract a b := by
  apply Array.ext
  · simp
  · intro i h1 h2
    simp

/-! ## Addresses and rows -/

theorem pitch_pos {s : Shape} {length : Nat} (fits : s.Fits length) : 0 < s.pitch := by
  have := fits.channels_pos
  unfold pitch rowSpan
  omega

theorem mul_pitch {s : Shape} {length y : Nat} (fits : s.Fits length) (hy : y < s.height) :
    y * s.pitch = y * s.rowStride := by
  by_cases single : s.height = 1
  · obtain rfl : y = 0 := by omega
    simp
  · have := fits.row_le (by omega)
    rw [pitch, Nat.max_eq_left this]

theorem locate_address {s : Shape} {length x y c : Nat} (fits : s.Fits length)
    (hx : x < s.width) (hy : y < s.height) (hc : c < s.channels) :
    s.locate (s.address x y c) = some (x, y, c) := by
  have off := rowOffset_lt hx hc
  have inPitch : x * s.pixelStride + c < s.pitch := by unfold pitch; omega
  have inPixel : c < s.pixelStride := by have := fits.channels_le; omega
  have split : s.address x y c = s.pitch * y + (x * s.pixelStride + c) := by
    rw [address, Nat.mul_comm s.pitch, mul_pitch fits hy]
    omega
  have hdiv : s.address x y c / s.pitch = y := by
    rw [split, Nat.mul_add_div (pitch_pos fits), Nat.div_eq_of_lt inPitch, Nat.add_zero]
  have hmod : s.address x y c % s.pitch = s.pixelStride * x + c := by
    rw [split, Nat.mul_add_mod, Nat.mod_eq_of_lt inPitch, Nat.mul_comm]
  have hpos : 0 < s.pixelStride := by omega
  unfold locate
  simp only [hdiv, hmod, Nat.mul_add_div hpos, Nat.div_eq_of_lt inPixel, Nat.mul_add_mod,
    Nat.mod_eq_of_lt inPixel, Nat.add_zero]
  rw [if_pos ⟨hx, hy, hc⟩]

theorem address_of_locate {s : Shape} {length i x y c : Nat} (fits : s.Fits length)
    (h : s.locate i = some (x, y, c)) :
    (x < s.width ∧ y < s.height ∧ c < s.channels) ∧ s.address x y c = i := by
  unfold locate at h
  dsimp only at h
  split at h
  · next inside =>
    simp only [Option.some.injEq, Prod.mk.injEq] at h
    obtain ⟨rfl, rfl, rfl⟩ := h
    refine ⟨inside, ?_⟩
    rw [address, ← mul_pitch fits inside.2.1, Nat.add_assoc, Nat.div_add_mod',
      Nat.div_add_mod']
  · cases h

/-! ## Painting byte by byte -/

theorem repaint_address {s : Shape} {length x y c : Nat} (fits : s.Fits length) (hx : x < s.width)
    (hy : y < s.height) (hc : c < s.channels) (value : (x y channel : Nat) → UInt8) (old : UInt8) :
    s.repaint value (s.address x y c) old = value x y c := by
  rw [repaint, locate_address fits hx hy hc]

theorem repaint_of_ne {s : Shape} {length i : Nat} (fits : s.Fits length)
    (apart : ∀ x y c, x < s.width → y < s.height → c < s.channels → s.address x y c ≠ i)
    (value : (x y channel : Nat) → UInt8) (old : UInt8) : s.repaint value i old = old := by
  unfold repaint
  split
  · next x y c found =>
    obtain ⟨⟨hx, hy, hc⟩, at_i⟩ := address_of_locate fits found
    exact absurd at_i (apart x y c hx hy hc)
  · rfl

/-- Painting replaces each byte that belongs to a sample and keeps every other. -/
theorem paint_eq_mapIdx {s : Shape} {bytes : Bytes} (fits : s.Fits bytes.size)
    (value : (x y channel : Nat) → UInt8) :
    s.paint value bytes = bytes.mapIdx (s.repaint value) := by
  have pos := pitch_pos fits
  have row_eq : ∀ y, y < s.height → s.paintRow (fun x c => value x y c) (s.row bytes y) =
      s.row (bytes.mapIdx (s.repaint value)) y := by
    intro y hy
    rw [row, row, ← extract_mapIdx, paintRow]
    apply Array.ext
    · simp
    · intro j h1 h2
      have hj : j < s.pitch := by
        have next : (y + 1) * s.pitch = y * s.pitch + s.pitch := Nat.succ_mul y s.pitch
        simp only [Array.size_mapIdx, Array.size_extract] at h1
        omega
      have hdiv : (y * s.pitch + j) / s.pitch = y := by
        rw [Nat.mul_comm, Nat.mul_add_div pos, Nat.div_eq_of_lt hj, Nat.add_zero]
      have hmod : (y * s.pitch + j) % s.pitch = j := by
        rw [Nat.mul_comm, Nat.mul_add_mod, Nat.mod_eq_of_lt hj]
      simp only [Array.getElem_mapIdx, repaint, locate, hdiv, hmod, hy, true_and]
      split <;> rfl
  have after_eq : s.afterRows bytes = s.afterRows (bytes.mapIdx (s.repaint value)) := by
    rw [afterRows, afterRows, ← extract_mapIdx]
    apply Array.ext
    · simp
    · intro j h1 h2
      have below : s.height ≤ (s.height * s.pitch + j) / s.pitch := by
        rw [Nat.mul_comm, Nat.mul_add_div pos]
        exact Nat.le_add_right _ _
      have outside : s.locate (s.height * s.pitch + j) = none := by
        unfold locate
        rw [if_neg (by omega)]
      simp [repaint, outside]
  rw [paint, mapRows, after_eq]
  conv => rhs; rw [← join_rows s (bytes.mapIdx (s.repaint value))]
  congr 2
  apply List.map_congr_left
  intro y hy
  exact row_eq y (List.mem_range.1 hy)

theorem size_paint {s : Shape} {bytes : Bytes} (fits : s.Fits bytes.size)
    (value : (x y channel : Nat) → UInt8) : (s.paint value bytes).size = bytes.size := by
  rw [paint_eq_mapIdx fits, Array.size_mapIdx]

/-- A painted grid reads back as it was painted. -/
theorem read_paint {s : Shape} {bytes : Bytes} {x y c : Nat} (fits : s.Fits bytes.size)
    (value : (x y channel : Nat) → UInt8) (hx : x < s.width) (hy : y < s.height)
    (hc : c < s.channels) : (s.read (s.paint value bytes) 0).value x y c = value x y c := by
  have inside := address_lt fits hx hy hc
  simp only [read, Nat.zero_add, paint_eq_mapIdx fits]
  rw [Array.getD_eq_getD_getElem?, Array.getElem?_eq_getElem (by simpa using inside),
    Option.getD_some, Array.getElem_mapIdx, repaint_address fits hx hy hc]

end Raster.Shape
