import Raster.Layout

/-!
# Frames

A frame is one to three planes of bytes together with the size, the format and
the orientation of the picture in them. Every frame has a plane count that its
format accepts and no zero stride; `Frame.ofPlanes` refuses anything else.

A YUV frame may keep all of its samples in one plane. Its *expanded* planes are
that plane cut into luma and chroma; any other frame is its own expansion.

* `Frame.ofPlanes` — a frame from planes.
* `Frame.expandedPlanes`, `Frame.withParts` — the expansion, and the frame with
  the bytes of its expanded planes replaced.
* `Frame.topLeft`, `Frame.withRegion` — the frame of the top-left pixels, and the
  frame with those replaced.
-/

namespace Raster

/-- Bytes and the strides of the rows in them. -/
structure Plane where
  bytes : Bytes
  stride : Stride
  deriving DecidableEq

instance : Inhabited Plane := ⟨#[], default⟩

/-- A buffer cut into the planes of a layout. -/
def cutPlanes (bytes : Bytes) (layout : List PlaneLayout) : Except Error (List Plane) := do
  let pieces ← cut bytes layout
  return pieces.zipWith (fun piece place => ⟨piece, place.stride⟩) layout

theorem cutPlanes_of_ok {bytes : Bytes} {layout : List PlaneLayout} {planes : List Plane}
    (nonempty : layout ≠ []) (h : cutPlanes bytes layout = .ok planes) :
    cut bytes layout = .ok (planes.map (·.bytes)) ∧
      planes.map (·.stride) = layout.map (·.stride) := by
  obtain ⟨pieces, hpieces, heq⟩ := bind_eq_ok.1 h
  cases heq
  have hl : pieces.length = layout.length := by
    have counted := length_of_cutFrom hpieces
    have := List.length_pos_iff.2 nonempty
    simp only [List.length_map, List.length_tail] at counted
    omega
  constructor
  · rw [hpieces]
    congr 1
    apply List.ext_getElem
    · simp [hl]
    · intro i h1 h2
      simp
  · apply List.ext_getElem
    · simp [hl]
    · intro i h1 h2
      simp

/-- A picture in memory. -/
structure Frame where
  planes : List Plane
  size : Size
  format : Format
  orientation : Orientation
  /-- Capture time in seconds, where it is known. -/
  timestamp : Option Nat
  accepts_count : format.acceptsPlaneCount planes.length = true
  strides_positive : ∀ plane ∈ planes, plane.stride.hasZero = false

namespace Frame

/-! ## Making frames -/

/-- A frame from its planes. -/
def ofPlanes (planes : List Plane) (size : Size) (format : Format) (orientation : Orientation) :
    Except Error Frame :=
  if format = .unknown then .error (.frame (.unsupportedFormat (.format .unknown)))
  else if count : format.acceptsPlaneCount planes.length then
    match strides : planes.find? (·.stride.hasZero) with
    | some plane =>
      let stride := plane.stride
      .error (.frame (.invalidArgument (.zeroStride format stride.row stride.pixel)))
    | none =>
      .ok ⟨planes, size, format, orientation, none, count, by simpa using strides⟩
  else .error (.frame (.planeCount format.name planes.length))

/-- The same frame with another capture time. -/
def stamped (f : Frame) (timestamp : Option Nat) : Frame := { f with timestamp }

/-- What is known of the frame without its pixels. -/
def metadata (f : Frame) : Metadata := ⟨f.size, f.orientation, f.format⟩

/-- The bytes of each plane. -/
def buffers (f : Frame) : List Bytes := f.planes.map (·.bytes)

/-- The bytes of all planes, in their order. -/
def memory (f : Frame) : Bytes := join f.buffers

theorem format_ne_unknown (f : Frame) : f.format ≠ .unknown :=
  Format.ne_unknown_of_acceptsPlaneCount f.accepts_count

@[simp] theorem metadata_stamped (f : Frame) (t : Option Nat) :
    (f.stamped t).metadata = f.metadata := rfl

theorem planes_of_ofPlanes {planes : List Plane} {size : Size} {format : Format}
    {orientation : Orientation} {f : Frame} (h : ofPlanes planes size format orientation = .ok f) :
    f.planes = planes ∧ f.metadata = ⟨size, orientation, format⟩ ∧ f.timestamp = none := by
  unfold ofPlanes at h
  split at h
  · cases h
  · split at h
    · split at h
      · cases h
      · cases h
        exact ⟨rfl, rfl, rfl⟩
    · cases h

/-! ## Expansion -/

/-- The frame keeps luma and chroma in one plane. -/
def isContiguousYuv (f : Frame) : Bool := f.format.isYuv && f.planes.length == 1

/-- The planes, with a single YUV plane cut into luma and chroma. -/
def expandedPlanes (f : Frame) : Except Error (List Plane) :=
  match f.format.isYuv, f.planes with
  | true, [plane] => do
    let layout ← yuvLayout f.size f.format plane.stride.row
    cutPlanes plane.bytes layout
  | _, planes => .ok planes

/-- The frame with new bytes in its planes, one buffer for each. -/
def withBuffers (f : Frame) (buffers : List Bytes) : Frame :=
  { f with
    planes := f.planes.mapIdx fun k plane => { plane with bytes := buffers.getD k plane.bytes }
    accepts_count := by simpa using f.accepts_count
    strides_positive := by
      intro plane h
      obtain ⟨k, hk, rfl⟩ := List.mem_mapIdx.1 h
      exact f.strides_positive f.planes[k] (List.getElem_mem hk) }

/-- The frame with new bytes in its expanded planes: of a YUV frame in one plane
the parts are put together again. -/
def withParts (f : Frame) (parts : List Bytes) : Frame :=
  f.withBuffers (if f.isContiguousYuv then [join parts] else parts)

@[simp] theorem metadata_withBuffers (f : Frame) (buffers : List Bytes) :
    (f.withBuffers buffers).metadata = f.metadata := rfl

@[simp] theorem metadata_withParts (f : Frame) (parts : List Bytes) :
    (f.withParts parts).metadata = f.metadata := rfl

theorem yuvPlanes_accepted {format : Format} (yuv : format.isYuv = true) (size : Size) (row : Nat) :
    format.acceptsPlaneCount (yuvPlanes size format row).length = true := by
  unfold yuvPlanes
  cases format <;> first | rfl | exact absurd yuv (by decide)

theorem yuvPlanes_strides_positive {size : Size} {format : Format} {row : Nat} (h : 0 < row) :
    ∀ place ∈ yuvPlanes size format row, place.stride.hasZero = false := by
  have half : 0 < (row + 1) / 2 := by omega
  have even : 0 < (row + 1) / 2 * 2 := by omega
  intro place hp
  rw [Stride.hasZero_eq_false]
  unfold yuvPlanes at hp
  split at hp
  · simp only [List.mem_cons, List.not_mem_nil, or_false] at hp
    rcases hp with rfl | rfl <;> exact ⟨by assumption, by simp⟩
  · simp only [List.mem_cons, List.not_mem_nil, or_false] at hp
    rcases hp with rfl | rfl | rfl <;> exact ⟨by assumption, by simp⟩

theorem chromaSize_of_ok {size half : Size} {format : Format}
    (h : chromaSize size format = .ok half) :
    size.isEmpty = false ∧ format.isYuv = true ∧ half = size.halved := by
  obtain ⟨nonempty, h⟩ := ite_error_eq_ok.1 h
  obtain ⟨yuv, rfl⟩ := ite_ok_eq_ok.1 h
  exact ⟨by simpa using nonempty, yuv, rfl⟩

theorem yuvLayout_of_ok {size : Size} {format : Format} {row : Nat} {layout : List PlaneLayout}
    (h : yuvLayout size format row = .ok layout) :
    size.isEmpty = false ∧ format.isYuv = true ∧ layout = yuvPlanes size format row := by
  obtain ⟨half, hhalf, heq⟩ := bind_eq_ok.1 h
  cases heq
  exact ⟨(chromaSize_of_ok hhalf).1, (chromaSize_of_ok hhalf).2.1, rfl⟩

/-- An expansion again fits the format and has no zero stride. -/
theorem expandedPlanes_valid {f : Frame} {planes : List Plane}
    (h : f.expandedPlanes = .ok planes) :
    f.format.acceptsPlaneCount planes.length = true ∧
      ∀ plane ∈ planes, plane.stride.hasZero = false := by
  unfold expandedPlanes at h
  split at h
  · next plane yuv hplanes =>
    obtain ⟨layout, hlayout, hcut⟩ := bind_eq_ok.1 h
    obtain ⟨-, -, rfl⟩ := yuvLayout_of_ok hlayout
    have nonempty : yuvPlanes f.size f.format plane.stride.row ≠ [] := by
      unfold yuvPlanes
      split <;> simp
    have strides := (cutPlanes_of_ok nonempty hcut).2
    have row : 0 < plane.stride.row :=
      (Stride.hasZero_eq_false.1 (f.strides_positive plane (by simp [hplanes]))).1
    constructor
    · have counted := congrArg List.length strides
      simp only [List.length_map] at counted
      rw [counted]
      exact yuvPlanes_accepted yuv f.size plane.stride.row
    · intro p hp
      have hstride : p.stride ∈ planes.map (·.stride) := List.mem_map_of_mem hp
      rw [strides] at hstride
      obtain ⟨place, hplace, heq⟩ := List.mem_map.1 hstride
      rw [← heq]
      exact yuvPlanes_strides_positive row place hplace
  · cases h
    exact ⟨f.accepts_count, f.strides_positive⟩

/-! ## Regions -/

/-- The frame of the top-left pixels. It shares the strides of the whole frame,
and its chroma stays where the whole frame keeps it. -/
def topLeft (f : Frame) (size : Size) : Except Error Frame :=
  if size.isEmpty ∨ f.size.width < size.width ∨ f.size.height < size.height then
    .error (.frame (.invalidRegion (.ofSize size) f.size))
  else
    match valid : f.expandedPlanes with
    | .error e => .error e
    | .ok planes =>
      .ok ⟨planes, size, f.format, f.orientation, f.timestamp, (expandedPlanes_valid valid).1,
        (expandedPlanes_valid valid).2⟩

/-- The frame with the bytes of a region of it put back. -/
def withRegion (f region : Frame) : Frame := f.withParts region.buffers

end Frame

end Raster
