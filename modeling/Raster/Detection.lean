import Raster.Orientation.Transport
import Raster.Rounding

/-!
# Detections

Models see a frame after it is turned upright and report boxes in shares of it.

* `NormalizedBox.denormalize` — such a box in pixels, after a change of orientation.
* `detectionInFrame` — a detection as a box of the stored frame.
* `boxForDisplay` — a box of the stored frame for the upright picture.
-/

namespace Raster

/-- A box in shares of its frame: 0 is the left or top edge, 1 the right or bottom. -/
structure NormalizedBox where
  left : Float32
  top : Float32
  right : Float32
  bottom : Float32

namespace NormalizedBox

/-- No corner is negative, infinite or NaN. -/
def isValid (b : NormalizedBox) : Bool :=
  [b.left, b.top, b.right, b.bottom].all fun v => v.isFinite && v ≥ 0

/-- The box in pixels: the origin is truncated and the size is rounded. -/
def pixels (b : NormalizedBox) (frame : Size) : Box :=
  let w := binary32 frame.width
  let h := binary32 frame.height
  { x := truncate32 (b.left * w)
    y := truncate32 (b.top * h)
    width := round32 ((b.right - b.left).abs * w)
    height := round32 ((b.bottom - b.top).abs * h) }

/-- The box in pixels of a frame, after the frame is oriented as `target`. -/
def denormalize (b : NormalizedBox) (source target : Orientation) (frame : Size) :
    Except Error Box :=
  if b.isValid then orientBox (b.pixels frame) source target frame
  else
    .error (.invalidArgument
      (.normalizedBox b.left.toBits b.top.toBits b.right.toBits b.bottom.toBits))

end NormalizedBox

/-- A detection in the upright picture, as a box of the frame of size `frame`: the
pixel box of the upright size, turned by the change from the frame's orientation
to the upright one. -/
def detectionInFrame (b : NormalizedBox) (orientation : Orientation) (frame : Size) :
    Except Error Box :=
  b.denormalize orientation .topLeft (uprightSize frame orientation)

/-- A box of the frame, turned by the change from the upright orientation to the
frame's. -/
def boxForDisplay (b : Box) (orientation : Orientation) (frame : Size) : Except Error Box :=
  orientBox b .topLeft orientation frame

end Raster
