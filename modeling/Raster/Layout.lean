import Raster.Error

/-!
# Layouts of contiguous frames

A frame held in one buffer stores its planes back to back:

```text
gray, rgb, rgba   pixels
nv12, nv21        luma | interleaved chroma
yv12              luma | V | U
yv21              luma | U | V
```

Chroma grids have both sides halved and rounded up.

* `Stride` — the bytes between rows and between the pixels of a row.
* `byteSize` — the bytes of a frame without gaps.
* `planeLayout` — offset and stride of its planes.
* `yuvLayout` — the same for YUV rows that lie some stride apart.
* `cut` — a buffer cut at given offsets, nothing lost (`join_of_cut`).
-/

namespace Raster

/-- Bytes of pixel memory. -/
abbrev Bytes := Array UInt8

/-! ## Strides -/

/-- Distances in bytes: `row` between the first samples of two consecutive rows,
`pixel` between two neighbouring samples of one channel in a row. -/
structure Stride where
  row : Nat
  pixel : Nat
  deriving DecidableEq

namespace Stride

instance : Inhabited Stride := ⟨0, 0⟩

/-- The stride of rows of `width` pixels stored without gaps. -/
def packed (width pixel : Nat) : Stride := ⟨width * pixel, pixel⟩

/-- A stride with a zero distance describes no plane. -/
def hasZero (s : Stride) : Bool := s.row == 0 || s.pixel == 0

theorem hasZero_eq_false {s : Stride} : s.hasZero = false ↔ 0 < s.row ∧ 0 < s.pixel := by
  simp [hasZero, Nat.pos_iff_ne_zero]

end Stride

/-- Offset and stride of one plane in a buffer. -/
structure PlaneLayout where
  offset : Nat
  stride : Stride
  deriving DecidableEq

/-! ## Sizes -/

/-- The bytes a frame takes when it is stored without gaps. -/
def byteSize (size : Size) : Format → Nat
  | .nv12 | .nv21 | .yv12 | .yv21 => size.area + 2 * size.halved.width * size.halved.height
  | .rgba => size.area * 4
  | .rgb => size.area * 3
  | .gray => size.area
  | .unknown => 0

/-- The bytes from one pixel to the next in a packed format. -/
def Format.pixelStride (format : Format) : Except Error Nat :=
  match format.channels with
  | some channels => .ok channels
  | none => .error (.frame (.unsupportedFormat (.noPixelStride format)))

/-- The reason why frames without pixels are refused. -/
def emptyFrameReason : String := "frame must not be empty"

/-- The size of the chroma grids of a YUV frame. -/
def chromaSize (size : Size) (format : Format) : Except Error Size :=
  if size.isEmpty then .error (.frame (.invalidSize size emptyFrameReason))
  else if format.isYuv then .ok size.halved
  else .error (.frame (.unsupportedFormat (.noChroma format)))

/-- The size of the crop that two inclusive corners span. -/
def cropSize (x0 x1 y0 y1 : Nat) : Except Error Size :=
  if x0 ≤ x1 ∧ y0 ≤ y1 then .ok ⟨x1 - x0 + 1, y1 - y0 + 1⟩
  else .error (.frame (.invalidArgument (.reversedCorners x0 y0 x1 y1)))

/-! ## Layouts -/

/-- The planes of a YUV frame in one buffer whose luma rows are `row` bytes
apart. Interleaved chroma keeps that distance, rounded up to an even number;
separate chroma planes halve it, rounding up. -/
def yuvPlanes (size : Size) (format : Format) (row : Nat) : List PlaneLayout :=
  let luma := row * size.height
  let chromaRow := if format.isSemiPlanar then (row + 1) / 2 * 2 else (row + 1) / 2
  if format.isSemiPlanar then [⟨0, ⟨row, 1⟩⟩, ⟨luma, ⟨chromaRow, 2⟩⟩]
  else
    [⟨0, ⟨row, 1⟩⟩, ⟨luma, ⟨chromaRow, 1⟩⟩,
      ⟨luma + chromaRow * size.halved.height, ⟨chromaRow, 1⟩⟩]

/-- `yuvPlanes` for frames that have chroma. -/
def yuvLayout (size : Size) (format : Format) (row : Nat) : Except Error (List PlaneLayout) := do
  let _ ← chromaSize size format
  return yuvPlanes size format row

/-- The planes of a frame stored without gaps. -/
def planeLayout (size : Size) (format : Format) : Except Error (List PlaneLayout) :=
  match format.channels with
  | some channels => .ok [⟨0, .packed size.width channels⟩]
  | none =>
    if format.isYuv then yuvLayout size format size.width
    else .error (.frame (.unsupportedFormat (.format .unknown)))

/-! ## Cutting a buffer -/

/-- The pieces from `start` on, cut at the given offsets; the last piece keeps
the rest of the buffer. -/
def cutFrom (bytes : Bytes) (start : Nat) : List Nat → Except Error (List Bytes)
  | [] => .ok [bytes.extract start bytes.size]
  | stop :: rest =>
    if bytes.size < stop then .error (.frame (.bufferTooSmall stop bytes.size))
    else do
      let pieces ← cutFrom bytes stop rest
      return bytes.extract start stop :: pieces

/-- A buffer cut into the planes of a layout. -/
def cut (bytes : Bytes) (layout : List PlaneLayout) : Except Error (List Bytes) :=
  cutFrom bytes 0 (layout.tail.map (·.offset))

/-- Pieces put together again. -/
def join : List Bytes → Bytes
  | [] => #[]
  | piece :: rest => piece ++ join rest

@[simp] theorem join_nil : join [] = #[] := rfl

@[simp] theorem join_cons (piece : Bytes) (rest : List Bytes) :
    join (piece :: rest) = piece ++ join rest := rfl

theorem cutFrom_cons_of_ok {bytes : Bytes} {start stop : Nat} {rest : List Nat}
    {pieces : List Bytes} (h : cutFrom bytes start (stop :: rest) = .ok pieces) :
    stop ≤ bytes.size ∧
      ∃ tail, cutFrom bytes stop rest = .ok tail ∧ pieces = bytes.extract start stop :: tail := by
  obtain ⟨fits, h⟩ := ite_error_eq_ok.1 h
  obtain ⟨tail, htail, heq⟩ := bind_eq_ok.1 h
  cases heq
  exact ⟨Nat.not_lt.1 fits, tail, htail, rfl⟩

theorem join_of_cutFrom {bytes : Bytes} {start : Nat} {stops : List Nat} {pieces : List Bytes}
    (increasing : (start :: stops).Pairwise (· ≤ ·))
    (h : cutFrom bytes start stops = .ok pieces) :
    join pieces = bytes.extract start bytes.size := by
  induction stops generalizing start pieces with
  | nil =>
    cases h
    simp
  | cons stop rest ih =>
    obtain ⟨fits, tail, htail, rfl⟩ := cutFrom_cons_of_ok h
    have hstop : start ≤ stop := List.rel_of_pairwise_cons increasing (by simp)
    rw [join_cons, ih (List.pairwise_cons.1 increasing).2 htail, Array.extract_append_extract]
    congr 1 <;> omega

theorem length_of_cutFrom {bytes : Bytes} {start : Nat} {stops : List Nat} {pieces : List Bytes}
    (h : cutFrom bytes start stops = .ok pieces) : pieces.length = stops.length + 1 := by
  induction stops generalizing start pieces with
  | nil =>
    cases h
    rfl
  | cons stop rest ih =>
    obtain ⟨-, tail, htail, rfl⟩ := cutFrom_cons_of_ok h
    rw [List.length_cons, List.length_cons, ih htail]

/-- A cut loses nothing: the pieces of a layout with increasing offsets make up
the buffer. -/
theorem join_of_cut {bytes : Bytes} {layout : List PlaneLayout} {pieces : List Bytes}
    (increasing : (layout.tail.map (·.offset)).Pairwise (· ≤ ·))
    (h : cut bytes layout = .ok pieces) : join pieces = bytes := by
  rw [join_of_cutFrom (by simpa using increasing) h]
  simp

end Raster
