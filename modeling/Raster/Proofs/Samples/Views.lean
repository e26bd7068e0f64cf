import Mathlib.Data.Set.Function
import Mathlib.Order.Interval.Set.Basic
import Raster.Proofs.Samples.Rows
import Raster.Word

/-!
# Samples as slices of bytes

A shape that was checked against its bytes is a view. Whoever runs over a view has bytes in front of
them: a sample is read as a slice of the view, and written over a slice of a row. Here every slice is
asked for, and there is none if it leaves its buffer or its row.

The length of the bytes is a word. So the shape that the check accepts has its sums in words, and so
has every address of a sample. The sum that leads to some other address may not fit in a word, but
then the address is past the end as well.

* `View` — bytes, and a shape that was checked against them.
* `View.byte?`, `View.pixel?`, `overwrite?` — reading and writing by slices.
* `View.fill?` — the view with a sample made and written at each place, row by row.

Results: `View.byte?_eq` and `View.pixel?_eq` (what is read inside of a view is in range),
`View.fill?_eq` (so is what is written, if there is a sample for each place) and `View.fill?_eq_none`
(no view is filled if there is none for some place).
-/

namespace Raster

/-! ## Places -/

/-- Column, row and channel of everything that an extent holds. -/
def Extent.places (e : Extent) : Set (Nat × Nat × Nat) :=
  { p | p.1 < e.width ∧ p.2.1 < e.height ∧ p.2.2 < e.channels }

namespace Shape

variable {s : Shape} {length : Nat}

theorem mapsTo_address (fits : s.Fits length) :
    Set.MapsTo (fun p => s.address p.1 p.2.1 p.2.2) s.toExtent.places (Set.Iio length) :=
  fun _ ⟨hx, hy, hc⟩ => address_lt fits hx hy hc

theorem injOn_address (fits : s.Fits length) :
    Set.InjOn (fun p => s.address p.1 p.2.1 p.2.2) s.toExtent.places := by
  rintro ⟨x, y, c⟩ ⟨hx, hy, hc⟩ ⟨x', y', c'⟩ ⟨hx', hy', hc'⟩ same
  obtain ⟨rfl, rfl, rfl⟩ := address_inj fits hx hy hc hx' hy' hc' same
  rfl

end Shape

/-! ## Views -/

namespace Shape.Fits

variable {s : Shape} {length : Nat}

/-- A row is as long as it has samples, or longer. -/
theorem width_le_rowSpan (fits : s.Fits length) : s.width ≤ s.rowSpan := by
  have channels := fits.channels_pos
  have columns : s.width - 1 ≤ (s.width - 1) * s.pixelStride :=
    Nat.le_mul_of_pos_right _ (Nat.lt_of_lt_of_le channels fits.channels_le)
  unfold rowSpan
  omega

theorem width_le (fits : s.Fits length) : s.width ≤ length := by
  have row := fits.width_le_rowSpan
  have span := fits.span_le
  unfold Shape.span at span
  omega

theorem height_le (fits : s.Fits length) : s.height ≤ length := by
  have width := fits.width_pos
  have row := fits.width_le_rowSpan
  have span := fits.span_le
  unfold Shape.span at span
  by_cases single : s.height ≤ 1
  · omega
  · have stride := fits.row_le (by omega)
    have rows : s.height - 1 ≤ (s.height - 1) * s.rowStride :=
      Nat.le_mul_of_pos_right _ (by omega)
    omega

end Shape.Fits

/-- Bytes that a word can count, and a shape that passed the check for them. So the sums that the
check makes are words, and none of them wraps. -/
structure View where
  bytes : Bytes
  shape : Shape
  sized : FitsWord bytes.size
  accepted : shape.check bytes.size = .ok ()

namespace View

theorem fits (v : View) : v.shape.Fits v.bytes.size := Shape.check_eq_ok.1 v.accepted

/-- The extent of the grid. -/
def extent (v : View) : Extent := v.shape.toExtent

/-- The grid that is read from the view. -/
def samples (v : View) : Samples := v.shape.read v.bytes 0

theorem width_inWord (v : View) : FitsWord v.extent.width := v.sized.of_le v.fits.width_le

theorem height_inWord (v : View) : FitsWord v.extent.height := v.sized.of_le v.fits.height_le

/-- What becomes of a grid that is drawn into the view: the verdict, and the bytes after it. -/
def receive (v : View) (drawn : Except Error Samples) : Except Error Unit × Bytes :=
  match drawn with
  | .ok result => (.ok (), v.shape.paint result.value v.bytes)
  | .error e => (.error e, v.bytes)

end View

/-! ## Slices -/

/-- The bytes from `start` up to `stop`, if the buffer reaches that far. -/
def slice? (bytes : Bytes) (start stop : Nat) : Option Bytes :=
  if start ≤ stop ∧ stop ≤ bytes.size then some (bytes.extract start stop) else none

/-- A row with a sample written from `start` up to `stop`, if the row reaches that far. Channels
beyond the stop are left out, and channels that the sample lacks become opaque. -/
def overwrite? (row sample : Bytes) (start stop : Nat) : Option Bytes :=
  if start ≤ stop ∧ stop ≤ row.size then
    some (row.mapIdx fun i old =>
      if start ≤ i ∧ i < stop then sample.getD (i - start) 255 else old)
  else none

theorem slice?_eq {bytes : Bytes} {start stop : Nat} (ordered : start ≤ stop)
    (inside : stop ≤ bytes.size) : slice? bytes start stop = some (bytes.extract start stop) :=
  if_pos ⟨ordered, inside⟩

/-- There is a sample, and it is written with these values in its first channels. -/
def Shows (found : Option Bytes) (channels : Nat) (value : (channel : Nat) → UInt8) : Prop :=
  ∃ sample, found = some sample ∧ ∀ c, c < channels → sample.getD c 255 = value c

theorem Shows.congr {found : Option Bytes} {channels : Nat} {value value' : (channel : Nat) → UInt8}
    (shown : Shows found channels value) (same : ∀ c, c < channels → value c = value' c) :
    Shows found channels value' := by
  obtain ⟨sample, rfl, values⟩ := shown
  exact ⟨sample, rfl, fun c hc => (values c hc).trans (same c hc)⟩

namespace View

/-- Channel `c` of the sample at `(x, y)`, if there is a byte for it. -/
def byte? (v : View) (x y c : Nat) : Option UInt8 := v.bytes[v.shape.address x y c]?

/-- All channels of the sample at `(x, y)`. -/
def pixel? (v : View) (x y : Nat) : Option Bytes :=
  slice? v.bytes (v.shape.address x y 0) (v.shape.address x y 0 + v.shape.channels)

variable (v : View) {x y : Nat}

theorem byte?_eq {c : Nat} (hx : x < v.extent.width) (hy : y < v.extent.height)
    (hc : c < v.extent.channels) : v.byte? x y c = some (v.samples.value x y c) := by
  have inside := Shape.address_lt v.fits hx hy hc
  show _ = some (v.bytes.getD (0 + v.shape.address x y c) 0)
  rw [byte?, Nat.zero_add, Array.getD_eq_getD_getElem?, Array.getElem?_eq_getElem inside,
    Option.getD_some]

/-- A sample inside of the view is in range, with all of its channels. -/
theorem pixel?_eq (hx : x < v.extent.width) (hy : y < v.extent.height) :
    ∃ sample, v.pixel? x y = some sample ∧ sample.size = v.extent.channels ∧
      ∀ c, c < v.extent.channels → sample[c]? = some (v.samples.value x y c) := by
  have place (c : Nat) : v.shape.address x y c = v.shape.address x y 0 + c := rfl
  have positive := v.fits.channels_pos
  have inside : v.shape.address x y 0 + v.shape.channels ≤ v.bytes.size := by
    have last := Shape.address_lt (c := v.shape.channels - 1) v.fits hx hy (by omega)
    rw [place] at last
    omega
  refine ⟨_, slice?_eq (Nat.le_add_right _ _) inside, ?_, fun c hc => ?_⟩
  · rw [Array.size_extract]
    show _ = v.shape.channels
    omega
  · have hc : c < v.shape.channels := hc
    rw [← v.byte?_eq hx hy hc, byte?, Array.getElem?_extract, if_pos (by omega), ← place]

/-- With opaque alpha for the channels that the sample lacks. -/
theorem pixel?_shows (hx : x < v.extent.width) (hy : y < v.extent.height) (channels : Nat) :
    Shows (v.pixel? x y) channels (v.samples.opaqueValue x y) := by
  obtain ⟨sample, found, size, values⟩ := v.pixel?_eq hx hy
  refine ⟨sample, found, fun c _ => ?_⟩
  rw [Samples.opaqueValue, Array.getD_eq_getD_getElem?]
  split
  · next held => rw [values c held, Option.getD_some]
  · next lacking =>
    have lacking : ¬c < v.extent.channels := lacking
    rw [Array.getElem?_eq_none (by omega), Option.getD_none]

end View

/-! ## Rows -/

namespace Shape

/-- A row with its samples made and written, one after the other. -/
def fillRow? (s : Shape) (sample? : (x : Nat) → Option Bytes) (row : Bytes) : Option Bytes :=
  (List.range s.width).foldlM (fun row x => do
    let sample ← sample? x
    overwrite? row sample (x * s.pixelStride) (x * s.pixelStride + s.channels)) row

variable {s : Shape} {length : Nat} {row : Bytes} {value : (x channel : Nat) → UInt8}

/-- One more sample: a row painted up to column `n` becomes one painted up to the next column. -/
theorem overwrite?_paintRow {n : Nat} {sample : Bytes} (channels : s.channels ≤ s.pixelStride)
    (inside : n * s.pixelStride + s.channels ≤ row.size)
    (made : ∀ c, c < s.channels → sample.getD c 255 = value n c) :
    overwrite? ({ s with width := n }.paintRow value row) sample (n * s.pixelStride)
        (n * s.pixelStride + s.channels) =
      some ({ s with width := n + 1 }.paintRow value row) := by
  have size : ({ s with width := n }.paintRow value row).size = row.size := Array.size_mapIdx
  rw [overwrite?, if_pos ⟨Nat.le_add_right _ _, by omega⟩]
  refine congrArg some (Array.ext ?_ fun i h1 h2 => ?_)
  · simp only [paintRow, Array.size_mapIdx]
  · simp only [paintRow, Array.getElem_mapIdx]
    by_cases column : i / s.pixelStride = n
    · have split : n * s.pixelStride + i % s.pixelStride = i := by
        rw [← column]
        exact Nat.div_add_mod' i s.pixelStride
      by_cases channel : i % s.pixelStride < s.channels
      · have offset : i - n * s.pixelStride = i % s.pixelStride := by omega
        rw [if_pos (by omega), if_pos ⟨by omega, channel⟩, offset, made _ channel, column]
      · rw [if_neg (by omega), if_neg (by omega), if_neg (by omega)]
    · have outside : ¬(n * s.pixelStride ≤ i ∧ i < n * s.pixelStride + s.channels) := by
        rintro ⟨low, high⟩
        refine column (Nat.div_eq_of_lt_le low ?_)
        rw [Nat.add_mul, Nat.one_mul]
        omega
      have columns : i / s.pixelStride < n + 1 ↔ i / s.pixelStride < n := by omega
      rw [if_neg outside]
      simp only [columns]

/-- A row is painted if it holds its samples and there is one for each column. -/
theorem fillRow?_eq {sample? : (x : Nat) → Option Bytes} (fits : s.Fits length)
    (inside : s.rowSpan ≤ row.size)
    (made : ∀ x, x < s.width → Shows (sample? x) s.channels (value x)) :
    s.fillRow? sample? row = some (s.paintRow value row) := by
  -- after `n` columns the row is painted as far as a grid of width `n` goes
  have columns (n : Nat) (hn : n ≤ s.width) : (List.range n).foldlM (fun row x => do
      let sample ← sample? x
      overwrite? row sample (x * s.pixelStride) (x * s.pixelStride + s.channels)) row =
        some ({ s with width := n }.paintRow value row) := by
    induction n with
    | zero =>
      refine congrArg some (Array.ext Array.size_mapIdx.symm fun i h1 h2 => ?_)
      simp only [paintRow, Array.getElem_mapIdx, Nat.not_lt_zero, false_and, if_false]
    | succ n ih =>
      obtain ⟨sample, made, values⟩ := made n (by omega)
      have positive := fits.channels_pos
      have last := rowOffset_lt (s := s) (x := n) (c := s.channels - 1) (by omega) (by omega)
      rw [List.range_succ, List.foldlM_append, ih (by omega)]
      simp only [List.foldlM_cons, List.foldlM_nil, Option.bind_eq_bind, Option.bind_some, made]
      rw [overwrite?_paintRow fits.channels_le (by omega) values]
      rfl
  exact columns s.width (Nat.le_refl _)

end Shape

/-- A loop stops at the first step that has no result. -/
theorem foldlM_eq_none {α β : Type} {step : β → α → Option β} {l : List α} {a : α} (member : a ∈ l)
    (missing : ∀ b, step b a = none) (b : β) : l.foldlM step b = none := by
  induction l generalizing b with
  | nil => cases member
  | cons head rest ih =>
    rw [List.foldlM_cons]
    rcases List.mem_cons.1 member with rfl | later
    · rw [missing]
      rfl
    · cases step b head with
      | none => rfl
      | some next => exact ih later next

theorem mapM_eq_none {α β : Type} {step : α → Option β} {l : List α} {a : α} (member : a ∈ l)
    (missing : step a = none) : l.mapM step = none := by
  induction l with
  | nil => cases member
  | cons head rest ih =>
    rw [List.mapM_cons]
    rcases List.mem_cons.1 member with rfl | later
    · rw [missing]
      rfl
    · rw [ih later]
      cases step head <;> rfl

/-- The bytes of the view after its samples are made and written, row by row. -/
def View.fill? (v : View) (sample? : (x y : Nat) → Option Bytes) : Option Bytes :=
  v.shape.visitRows (fun y => v.shape.fillRow? fun x => sample? x y) v.bytes

/-- No write leaves its row, so the view is painted if there is a sample for each place. -/
theorem View.fill?_eq (v : View) {sample? : (x y : Nat) → Option Bytes}
    {value : (x y channel : Nat) → UInt8}
    (made : ∀ x y, x < v.extent.width → y < v.extent.height →
      Shows (sample? x y) v.extent.channels (value x y)) :
    v.fill? sample? = some (v.shape.paint value v.bytes) :=
  Shape.visitRows_eq_pure (m := Option) v.fits fun y hy =>
    Shape.fillRow?_eq v.fits (Shape.rowSpan_le_size_row v.fits hy) fun x hx => made x y hx hy

/-- A view is not filled if there is a place without a sample. -/
theorem View.fill?_eq_none (v : View) {sample? : (x y : Nat) → Option Bytes} {x y : Nat}
    (hx : x < v.shape.width) (hy : y < v.shape.height) (missing : sample? x y = none) :
    v.fill? sample? = none := by
  have row : v.shape.fillRow? (fun x => sample? x y) (v.shape.row v.bytes y) = none :=
    foldlM_eq_none (List.mem_range.2 hx) (fun row => congrArg (· >>= _) missing) _
  rw [fill?, Shape.visitRows_eq v.fits, mapM_eq_none (List.mem_range.2 hy) row]
  rfl

end Raster
