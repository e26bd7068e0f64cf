import Raster.Samples.Paint

/-!
# Rows of a buffer

A loop over the rows of a buffer cuts off one piece after the other, each a pitch long, until it has
as many as the grid is high or the buffer ends. A shape that fits has its last row before the end,
though perhaps not a whole pitch before it, and a pitch is the distance of the rows wherever there
is more than one. So each row is visited once, in the place where its samples are.

* `Shape.visitRows` — the loop, for steps with effects.

Results, for a shape that fits the buffer:

* `Shape.visitRows_eq` — the calls that the loop makes.
* `Shape.row_place`, `Shape.rowSpan_le_size_row` — where a row starts and how far it reaches.
* `Shape.getD_row` — the samples of a row, by their offset in it.
-/

namespace Raster.Shape

/-! ## Visiting rows -/

section

variable {m : Type → Type} [Monad m]

/-- Runs `f` on up to `n` pieces of one pitch, the first of them row `y`, and puts back what it
leaves. The last piece of the buffer may be short; what follows the pieces is kept. -/
def visitFrom (s : Shape) (f : (y : Nat) → (row : Bytes) → m Bytes) :
    (n y : Nat) → (rest : Bytes) → m Bytes
  | 0, _, rest => pure rest
  | n + 1, y, rest =>
    if rest.isEmpty then pure rest
    else do
      let row ← f y (rest.extract 0 s.pitch)
      let after ← s.visitFrom f n (y + 1) (rest.extract s.pitch rest.size)
      return row ++ after

/-- Runs `f` on the rows of a buffer, in order and at most as many as the grid is high. -/
def visitRows (s : Shape) (f : (y : Nat) → (row : Bytes) → m Bytes) (bytes : Bytes) : m Bytes :=
  s.visitFrom f s.height 0 bytes

end

variable {s : Shape} {bytes : Bytes} {y : Nat}

/-! ## The places of rows -/

/-- A stop after the end of the buffer is as good as the end. -/
theorem extract_min_size (bytes : Bytes) (start stop : Nat) :
    bytes.extract start (min stop bytes.size) = bytes.extract start stop := by
  apply Array.ext
  · simp only [Array.size_extract]
    omega
  · intro i h1 h2
    rw [Array.getElem_extract, Array.getElem_extract]

/-- The samples of a row lie before the end of the buffer, counted in pitches. -/
theorem mul_pitch_add_le (fits : s.Fits bytes.size) (hy : y < s.height) :
    y * s.pitch + s.rowSpan ≤ bytes.size := by
  have before : y * s.rowStride ≤ (s.height - 1) * s.rowStride := Nat.mul_le_mul_right _ (by omega)
  have span := fits.span_le
  unfold Shape.span at span
  rw [mul_pitch fits hy]
  omega

theorem size_row (bytes : Bytes) (y : Nat) :
    (s.row bytes y).size = min (y * s.pitch + s.pitch) bytes.size - y * s.pitch := by
  rw [row, Array.size_extract, Nat.add_mul, Nat.one_mul]

/-- A row holds all of its samples, the last one too. -/
theorem rowSpan_le_size_row (fits : s.Fits bytes.size) (hy : y < s.height) :
    s.rowSpan ≤ (s.row bytes y).size := by
  have inside := mul_pitch_add_le fits hy
  have pitch : s.rowSpan ≤ s.pitch := Nat.le_max_right _ _
  rw [size_row]
  omega

/-- A row starts at its stride and ends where the next row starts, or in the buffer. -/
theorem row_place (fits : s.Fits bytes.size) (hy : y < s.height) :
    let stop := y * s.rowStride + (s.row bytes y).size
    s.row bytes y = bytes.extract (y * s.rowStride) stop ∧ stop ≤ bytes.size ∧
      (y + 1 < s.height → stop = (y + 1) * s.rowStride) := by
  have inside := mul_pitch_add_le fits hy
  have stop_eq : y * s.rowStride + (s.row bytes y).size =
      min (y * s.pitch + s.pitch) bytes.size := by
    rw [size_row, ← mul_pitch fits hy]
    omega
  refine ⟨?_, ?_, fun next => ?_⟩
  · rw [stop_eq, extract_min_size, ← mul_pitch fits hy, row, Nat.add_mul, Nat.one_mul]
  · rw [stop_eq]
    exact Nat.min_le_right _ _
  · have later := mul_pitch_add_le fits next
    rw [Nat.add_mul, Nat.one_mul] at later
    rw [stop_eq, ← mul_pitch fits next, Nat.add_mul, Nat.one_mul]
    omega

/-- The bytes of a row by their offset in it. -/
theorem getD_row (fits : s.Fits bytes.size) (hy : y < s.height) {i : Nat}
    (hi : i < (s.row bytes y).size) :
    (s.row bytes y).getD i 0 = bytes.getD (y * s.rowStride + i) 0 := by
  obtain ⟨place, stop, -⟩ := row_place fits hy
  have inside : y * s.rowStride + i < bytes.size := by omega
  rw [Array.getD_eq_getD_getElem?, Array.getD_eq_getD_getElem?, place, Array.getElem?_extract,
    if_pos (by omega)]

/-! ## The calls of the loop -/

variable {m : Type → Type} [Monad m] [LawfulMonad m]

/-- What the loop still has to do once it has come to row `y`. -/
theorem visitFrom_eq (fits : s.Fits bytes.size) (f : (y : Nat) → (row : Bytes) → m Bytes)
    {n y : Nat} (total : y + n = s.height) :
    s.visitFrom f n y (bytes.extract (y * s.pitch) bytes.size) = do
      let rows ← (List.range' y n).mapM fun y => f y (s.row bytes y)
      return join rows ++ s.afterRows bytes := by
  induction n generalizing y with
  | zero =>
    obtain rfl : y = s.height := by omega
    simp [visitFrom, afterRows]
  | succ n ih =>
    have inside := mul_pitch_add_le fits (y := y) (by omega)
    have span : 0 < s.rowSpan := by
      have := fits.channels_pos
      unfold rowSpan
      omega
    have next : (y + 1) * s.pitch = y * s.pitch + s.pitch := Nat.succ_mul y s.pitch
    have nonempty : (bytes.extract (y * s.pitch) bytes.size).isEmpty = false := by
      rw [← Bool.not_eq_true, Array.isEmpty_iff_size_eq_zero, Array.size_extract]
      omega
    -- what is left starts at row `y`: the first pitch of it is the row, the rest starts at the next
    have head : (bytes.extract (y * s.pitch) bytes.size).extract 0 s.pitch = s.row bytes y := by
      rw [Array.extract_extract, extract_min_size, row, next, Nat.add_zero]
    have tail : (bytes.extract (y * s.pitch) bytes.size).extract s.pitch
        (bytes.extract (y * s.pitch) bytes.size).size =
          bytes.extract ((y + 1) * s.pitch) bytes.size := by
      rw [Array.extract_extract, next, Array.size_extract]
      congr 1
      omega
    rw [visitFrom, nonempty, if_neg (by simp), head, tail, ih (by omega), List.range'_succ,
      List.mapM_cons]
    simp [Array.append_assoc]

/-- The loop calls `f` once for each row of the grid, in order, on the bytes of that row. -/
theorem visitRows_eq (fits : s.Fits bytes.size) (f : (y : Nat) → (row : Bytes) → m Bytes) :
    s.visitRows f bytes = do
      let rows ← (List.range s.height).mapM fun y => f y (s.row bytes y)
      return join rows ++ s.afterRows bytes := by
  have all := visitFrom_eq fits f (y := 0) (Nat.zero_add s.height)
  rw [Nat.zero_mul, Array.extract_eq_self_of_le (Nat.le_refl _)] at all
  rw [visitRows, all, List.range_eq_range']

/-- Where `f` has no effect on the rows, the loop replaces them. -/
theorem visitRows_eq_pure (fits : s.Fits bytes.size) {f : (y : Nat) → (row : Bytes) → m Bytes}
    {g : (y : Nat) → (row : Bytes) → Bytes}
    (each : ∀ y, y < s.height → f y (s.row bytes y) = pure (g y (s.row bytes y))) :
    s.visitRows f bytes = pure (s.mapRows g bytes) := by
  rw [visitRows_eq fits, mapM_eq_pure fun y hy => each y (List.mem_range.1 hy), pure_bind]
  rfl

end Raster.Shape
