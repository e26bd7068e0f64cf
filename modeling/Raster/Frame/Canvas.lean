import Raster.Frame.Basic
import Raster.Samples.Paint

/-!
# The samples of a frame

A packed frame is one grid of samples with several channels. A YUV frame is a
luma grid and two chroma grids of one channel each, wherever they are stored: in
one plane, interleaved in a second one, or in planes of their own.

* `Picture` — the values of a frame's grids.
* `Canvas` — the expanded planes of a frame, and where its grids lie in them.
* `Frame.readable`, `Frame.writable` — the canvas of a frame, once every sample
  is known to lie in its plane. They accept the same frames up to the order in
  which faults are found.
-/

namespace Raster

/-! ## Grids and their places -/

/-- The values of the grids of a frame. -/
inductive Picture where
  | packed (pixels : Samples)
  | yuv (y u v : Samples)

/-- The place of one grid: a plane, the byte of it where the grid starts, and the
shape of the grid. -/
structure Component where
  plane : Nat
  offset : Nat
  shape : Shape
  deriving DecidableEq

namespace Component

/-- The extent of the grid. -/
def extent (c : Component) : Extent := c.shape.toExtent

/-- The bytes of the plane that holds the grid. -/
def bytes (c : Component) (planes : List Plane) : Bytes := (planes.getD c.plane default).bytes

/-- The grid, read from expanded planes. -/
def read (c : Component) (planes : List Plane) : Samples := c.shape.read (c.bytes planes) c.offset

/-- The expanded planes with the grid replaced. -/
def paint (c : Component) (s : Samples) (planes : List Plane) : List Plane :=
  planes.modify c.plane fun plane =>
    { plane with bytes := c.shape.paintFrom s.value plane.bytes c.offset }

/-- Checks that the plane reaches the start of the grid and holds all of it. -/
def checkRead (c : Component) (planes : List Plane) : Except Error Unit :=
  let length := (c.bytes planes).size
  if length < c.offset then .error (.frame (.bufferTooSmall c.offset length))
  else c.shape.check (length - c.offset)

/-- Checks that the plane holds the grid from its start on. -/
def checkWrite (c : Component) (planes : List Plane) : Except Error Unit :=
  c.shape.check ((c.bytes planes).size - c.offset)

end Component

/-- The places of the grids of a frame. -/
inductive Components where
  | packed (pixels : Component)
  | yuv (y u v : Component)
  deriving DecidableEq

/-- Expanded planes and the places of the grids in them. -/
structure Canvas where
  planes : List Plane
  components : Components
  deriving DecidableEq

namespace Canvas

/-- A grid of extent `size` in one plane, with the strides of that plane. -/
def component (planes : List Plane) (size : Size) (channels plane offset : Nat) : Component :=
  let stride := (planes.getD plane default).stride
  { plane, offset
    shape :=
      { width := size.width, height := size.height, channels
        rowStride := stride.row, pixelStride := stride.pixel } }

/-- The grids of a frame in its expanded planes. In a second plane U and V take
turns, V first in one format; in planes of their own their order is the format's. -/
def ofPlanes (planes : List Plane) (size : Size) (format : Format) : Canvas where
  planes
  components :=
    match format.channels with
    | some channels => .packed (component planes size channels 0 0)
    | none =>
      let y := component planes size 1 0 0
      let chroma := component planes size.halved 1
      if planes.length = 2 then
        if format = .nv21 then .yuv y (chroma 1 1) (chroma 1 0)
        else .yuv y (chroma 1 0) (chroma 1 1)
      else if format.uPlaneFirst then .yuv y (chroma 1 0) (chroma 2 0)
      else .yuv y (chroma 2 0) (chroma 1 0)

/-- The values of the grids. -/
def picture (c : Canvas) : Picture :=
  match c.components with
  | .packed pixels => .packed (pixels.read c.planes)
  | .yuv y u v => .yuv (y.read c.planes) (u.read c.planes) (v.read c.planes)

/-- Checks every grid for reading: luma, then chroma, planes of their own in the
order of storage. -/
def checkRead (c : Canvas) : Except Error Unit :=
  match c.components with
  | .packed pixels => pixels.checkRead c.planes
  | .yuv y u v => do
    y.checkRead c.planes
    if v.plane < u.plane then
      v.checkRead c.planes
      u.checkRead c.planes
    else
      u.checkRead c.planes
      v.checkRead c.planes

/-- Checks every grid for writing: luma, then U, then V. -/
def checkWrite (c : Canvas) : Except Error Unit :=
  match c.components with
  | .packed pixels => pixels.checkWrite c.planes
  | .yuv y u v => do
    y.checkWrite c.planes
    u.checkWrite c.planes
    v.checkWrite c.planes

end Canvas

/-! ## Resolving a frame -/

namespace Frame

/-- The canvas of a frame, unchecked but for the size of a YUV frame. -/
def canvas (f : Frame) : Except Error Canvas := do
  let planes ← f.expandedPlanes
  if f.format.isYuv && f.size.isEmpty then .error (.frame (.invalidSize f.size emptyFrameReason))
  else .ok (.ofPlanes planes f.size f.format)

/-- The canvas of a frame that can be read. -/
def readable (f : Frame) : Except Error Canvas := do
  let canvas ← f.canvas
  canvas.checkRead
  return canvas

/-- The canvas of a frame that can be written. -/
def writable (f : Frame) : Except Error Canvas := do
  let canvas ← f.canvas
  canvas.checkWrite
  return canvas

/-- The values of the grids of a frame. -/
def picture (f : Frame) : Except Error Picture := do
  let canvas ← f.readable
  return canvas.picture

end Frame

end Raster
