import Raster.Colour
import Raster.Engine.Basic
import Raster.Engine.Precondition
import Raster.Samples.Bilinear

/-!
# What primitives paint

A primitive asks for new values in each grid of the output: one stroke for the
pixels of a packed frame, and three for luma, U and V of a YUV frame, in this
order.

* `Primitive.check` — the precondition of a primitive.
* `Primitive.strokes` — its strokes, from the picture of the input.
* `paintAll` — strokes painted up to the first that has no values.
-/

namespace Raster

namespace Move

/-- The precondition of a move. -/
def check (m : Move) (input output : Frame) : Except Error Unit :=
  match m with
  | crop x0 y0 x1 y1 => checkCrop input output x0 y0 x1 y1
  | resize | resizeNearest => checkResize input output
  | rotate degrees => checkRotate input output degrees
  | flip _ => checkFlip input output

/-- The region that a crop takes from a grid of full resolution. -/
def cropRegion (x0 y0 x1 y1 : Nat) : Region := ⟨x0, y0, x1 - x0 + 1, y1 - y0 + 1⟩

/-- The region that a crop takes from a chroma grid: half the crop, rounded up,
from the sample that holds its corner on, as far as the grid goes. -/
def chromaCropRegion (x0 y0 x1 y1 : Nat) (grid : Size) : Region where
  x := x0 / 2
  y := y0 / 2
  width := min ((x1 - x0 + 1 + 1) / 2) (grid.width - x0 / 2)
  height := min ((y1 - y0 + 1 + 1) / 2) (grid.height - y0 / 2)

/-- A move of a grid of full resolution. -/
def onGrid (m : Move) (source : Samples) (target : Extent) : Except Error Samples :=
  match m with
  | crop x0 y0 x1 y1 => source.resizeBilinear (cropRegion x0 y0 x1 y1) target
  | resize => source.resizeBilinear source.wholeRegion target
  | resizeNearest => source.resizeNearest source.wholeRegion target
  | rotate degrees => source.rotateCcw (degrees / 90) target
  | flip .horizontal => source.mirrorHorizontal target
  | flip .vertical => source.mirrorVertical target

/-- A move of a chroma grid; only a crop has to know that the grid is halved. -/
def onChroma (m : Move) (source : Samples) (target : Extent) : Except Error Samples :=
  match m with
  | crop x0 y0 x1 y1 => source.resizeBilinear (chromaCropRegion x0 y0 x1 y1 source.size) target
  | _ => m.onGrid source target

/-- The strokes of a move. A packed source is narrowed to the channels of the
target; packed and YUV grids do not mix. -/
def strokes (m : Move) (source : Picture) (target : Components) : Option (List Stroke) :=
  match source, target with
  | .packed pixels, .packed place =>
    let narrowed := pixels.take (min place.extent.channels pixels.channels)
    some [(place, m.onGrid narrowed place.extent)]
  | .yuv y u v, .yuv py pu pv =>
    some [(py, m.onGrid y py.extent), (pu, m.onChroma u pu.extent), (pv, m.onChroma v pv.extent)]
  | _, _ => none

end Move

namespace Primitive

/-- The precondition of a primitive. -/
def check (p : Primitive) (input output : Frame) : Except Error Unit :=
  match p with
  | move m => m.check input output
  | convert => checkConvert input output

/-- The strokes of a primitive on grids. -/
def strokes (p : Primitive) (source : Picture) (target : Components) : Option (List Stroke) :=
  match p with
  | move m => m.strokes source target
  | convert => some (source.converted target)

end Primitive

/-- Paints the strokes in order. A stroke without values stops the rest and
leaves what is painted so far. -/
def paintAll (planes : List Plane) : List Stroke → Except Error Unit × List Plane
  | [] => (.ok (), planes)
  | (place, .ok samples) :: rest => paintAll (place.paint samples planes) rest
  | (_, .error e) :: _ => (.error e, planes)

end Raster
