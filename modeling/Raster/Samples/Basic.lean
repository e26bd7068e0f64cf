import Raster.Layout

/-!
# Samples and their place in memory

A grid of samples has an extent and a value for each channel of each sample. A
shape says where the samples of a grid lie in a buffer: sample `(x, y)` starts at
`y * rowStride + x * pixelStride`, its channels side by side.

* `Shape.check` — the shapes whose samples lie apart from each other and in the
  buffer.
* `Samples.ofBytes` — reading a grid, once its shape is known to fit the buffer.

Results: `Shape.address_lt` (every sample of a shape that fits lies in the
buffer) and `Shape.address_inj` (no two of them share a byte).
-/

namespace Raster

/-! ## Grids -/

/-- Width, height and channels of a grid of samples. -/
structure Extent where
  width : Nat
  height : Nat
  channels : Nat
  deriving DecidableEq

/-- The pixels of an extent. -/
def Extent.size (e : Extent) : Size := ⟨e.width, e.height⟩

/-- A grid of samples. Only the values inside of the extent mean anything. -/
structure Samples extends Extent where
  value : (x y channel : Nat) → UInt8

namespace Samples

/-- The channels of a sample, with opaque alpha for a channel that it lacks. -/
def opaqueValue (s : Samples) (x y channel : Nat) : UInt8 :=
  if channel < s.channels then s.value x y channel else 255

/-- All channels of a sample. -/
def pixel (s : Samples) (x y : Nat) : List UInt8 := (List.range s.channels).map (s.value x y)

/-- The first channels of a grid. -/
def take (s : Samples) (channels : Nat) : Samples := { s with channels }

/-- The first channels of a grid; there has to be at least one and no more than it has. -/
def narrow (s : Samples) (channels : Nat) : Except Error Samples :=
  if channels = 0 ∨ s.channels < channels then
    .error (.invalidArgument (.viewChannels channels s.channels))
  else .ok (s.take channels)

end Samples

/-! ## Shapes -/

/-- Where the samples of a grid lie in a buffer. -/
structure Shape extends Extent where
  rowStride : Nat
  pixelStride : Nat
  deriving DecidableEq

namespace Shape

/-- The first byte of channel `c` of sample `(x, y)`. -/
def address (s : Shape) (x y c : Nat) : Nat := y * s.rowStride + x * s.pixelStride + c

/-- The bytes from the first to the last sample of a row. -/
def rowSpan (s : Shape) : Nat := (s.width - 1) * s.pixelStride + s.channels

/-- The bytes from the first to the last sample of the grid. -/
def span (s : Shape) : Nat := (s.height - 1) * s.rowStride + s.rowSpan

/-- The distance between rows: a single row may be given a stride shorter than
itself. -/
def pitch (s : Shape) : Nat := max s.rowStride s.rowSpan

/-- Widths in stride errors are shown in 32 bits. -/
def shownWidth (s : Shape) : Nat := s.width % UInt32.size

/-- Checks that the grid is not empty, that no two samples overlap, and that a
buffer of `length` bytes holds all of them. -/
def check (s : Shape) (length : Nat) : Except Error Unit :=
  if s.width = 0 ∨ s.height = 0 ∨ s.channels = 0 then
    .error (.invalidArgument (.emptyView s.width s.height s.channels))
  else if s.pixelStride < s.channels then
    .error (.frame (.invalidStride s.pixelStride s.channels s.shownWidth))
  else if s.rowStride < s.rowSpan ∧ 1 < s.height then
    .error (.frame (.invalidStride s.rowStride s.rowSpan s.shownWidth))
  else if length < s.span then .error (.frame (.bufferTooSmall s.span length))
  else .ok ()

/-- What `check` accepts. -/
structure Fits (s : Shape) (length : Nat) : Prop where
  width_pos : 0 < s.width
  height_pos : 0 < s.height
  channels_pos : 0 < s.channels
  channels_le : s.channels ≤ s.pixelStride
  row_le : 1 < s.height → s.rowSpan ≤ s.rowStride
  span_le : s.span ≤ length

theorem check_eq_ok {s : Shape} {length : Nat} : s.check length = .ok () ↔ s.Fits length := by
  simp only [check, ite_error_eq_ok]
  constructor
  · rintro ⟨nonempty, pixel, row, long, -⟩
    constructor <;> omega
  · rintro ⟨width, height, channels, pixel, row, long⟩
    exact ⟨by omega, by omega, by omega, by omega, trivial⟩

/-! ## Addresses -/

theorem rowOffset_lt {s : Shape} {x c : Nat} (hx : x < s.width) (hc : c < s.channels) :
    x * s.pixelStride + c < s.rowSpan := by
  have : x * s.pixelStride ≤ (s.width - 1) * s.pixelStride := Nat.mul_le_mul_right _ (by omega)
  unfold rowSpan
  omega

/-- Every sample of a shape that fits lies in the buffer. -/
theorem address_lt {s : Shape} {length x y c : Nat} (fits : s.Fits length) (hx : x < s.width)
    (hy : y < s.height) (hc : c < s.channels) : s.address x y c < length := by
  have := rowOffset_lt hx hc
  have : y * s.rowStride ≤ (s.height - 1) * s.rowStride := Nat.mul_le_mul_right _ (by omega)
  have := fits.span_le
  unfold span at this
  unfold address
  omega

theorem eq_of_mul_add_eq {stride a b r t : Nat} (hr : r < stride) (ht : t < stride)
    (h : a * stride + r = b * stride + t) : a = b ∧ r = t := by
  have hs : 0 < stride := by omega
  have hdiv : (a * stride + r) / stride = (b * stride + t) / stride := by rw [h]
  rw [Nat.mul_comm a, Nat.mul_comm b, Nat.mul_add_div hs, Nat.mul_add_div hs,
    Nat.div_eq_of_lt hr, Nat.div_eq_of_lt ht] at hdiv
  have : a = b := by omega
  subst this
  exact ⟨rfl, by omega⟩

/-- No two samples of a shape that fits share a byte. -/
theorem address_inj {s : Shape} {length x y c x' y' c' : Nat} (fits : s.Fits length)
    (hx : x < s.width) (hy : y < s.height) (hc : c < s.channels)
    (hx' : x' < s.width) (hy' : y' < s.height) (hc' : c' < s.channels)
    (h : s.address x y c = s.address x' y' c') : x = x' ∧ y = y' ∧ c = c' := by
  have off := rowOffset_lt hx hc
  have off' := rowOffset_lt hx' hc'
  have channels := fits.channels_le
  unfold address at h
  have rows : y = y' ∧ x * s.pixelStride + c = x' * s.pixelStride + c' := by
    by_cases single : s.height = 1
    · obtain rfl : y = 0 := by omega
      obtain rfl : y' = 0 := by omega
      exact ⟨rfl, by omega⟩
    · have := fits.row_le (by omega)
      exact eq_of_mul_add_eq (by omega) (by omega) (by omega : y * s.rowStride +
        (x * s.pixelStride + c) = y' * s.rowStride + (x' * s.pixelStride + c'))
  obtain ⟨rfl, hrow⟩ := rows
  obtain ⟨rfl, rfl⟩ := eq_of_mul_add_eq (by omega) (by omega) hrow
  exact ⟨rfl, rfl, rfl⟩

end Shape

/-! ## Reading -/

/-- The grid of a shape, from byte `offset` of a buffer on. -/
def Shape.read (s : Shape) (bytes : Bytes) (offset : Nat) : Samples where
  toExtent := s.toExtent
  value x y c := bytes.getD (offset + s.address x y c) 0

/-- The grid of a shape that fits the buffer. -/
def Samples.ofBytes (bytes : Bytes) (s : Shape) : Except Error Samples := do
  s.check bytes.size
  return s.read bytes 0

end Raster
