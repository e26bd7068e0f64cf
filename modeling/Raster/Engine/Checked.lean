import Raster.Engine.Software

/-!
# Reads in their slices

A grid is read from a slice: the bytes of its plane from the start of the grid on.
Scaling follows taps, and only a tap that names a sample beyond its region can lead
out of the slice. Where the slice goes on after the region, such a tap finds another
byte. Where it ends, the machine stops, and there is no outcome.

* `TapTable.reach` — the last sample that the taps of an axis name.
* `Move.region?`, `Move.chromaRegion?` — the regions that a move scales.
* `Primitive.inSlices` — every byte that a primitive asks for lies in its slice.
* `Engine.checked` — the portable engine, which stops at a read beyond a slice.
-/

namespace Raster

/-- The last source index that the taps of an axis name. -/
def TapTable.reach (taps : TapTable) (sourceLength targetLength : Nat) : Nat :=
  targetLength.fold (fun i _ last =>
    let tap := taps sourceLength targetLength i
    max last (max tap.lower tap.upper)) 0

/-- A slice of so many bytes holds all samples that taps name when a region of a grid
is scaled. Equal sizes are copied, without taps. -/
def Shape.holdsTaps (s : Shape) (taps : TapTable) (length : Nat) (region : Region)
    (target : Size) : Bool :=
  region.size = target ||
    s.address (region.x + taps.reach region.width target.width)
      (region.y + taps.reach region.height target.height) s.channels ≤ length

namespace Move

/-- The region of a grid of full resolution that a move scales by taps, if it does. -/
def region? (m : Move) (grid : Size) : Option Region :=
  match m with
  | crop x0 y0 x1 y1 => some (cropRegion x0 y0 x1 y1)
  | resize => some ⟨0, 0, grid.width, grid.height⟩
  | resizeNearest | rotate _ | flip _ => none

/-- The region of a chroma grid that a move scales by taps, if it does. -/
def chromaRegion? (m : Move) (grid : Size) : Option Region :=
  match m with
  | crop x0 y0 x1 y1 => some (chromaCropRegion x0 y0 x1 y1 grid)
  | _ => m.region? grid

end Move

/-- The slice of a grid holds the region that is scaled, in the given channels. -/
def Component.inSlice (c : Component) (planes : List Plane) (channels : Nat)
    (region : Option Region) (target : Extent) : Bool :=
  match region with
  | none => true
  | some r =>
    { c.shape with channels }.holdsTaps .centred ((c.bytes planes).size - c.offset) r target.size

/-- The slices of all grids hold what a move asks for. -/
def Move.inSlices (m : Move) (source : Canvas) (target : Components) : Bool :=
  let planes := source.planes
  let grid (c place : Component) (channels : Nat) : Bool :=
    c.inSlice planes channels (m.region? c.extent.size) place.extent
  let chroma (c place : Component) : Bool :=
    c.inSlice planes 1 (m.chromaRegion? c.extent.size) place.extent
  match source.components, target with
  | .packed pixels, .packed place =>
    grid pixels place (min place.extent.channels pixels.extent.channels)
  | .yuv y u v, .yuv py pu pv => grid y py 1 && chroma u pu && chroma v pv
  | _, _ => true

/-- Every byte that a primitive asks for lies in its slice. A request that is refused
asks for none. -/
def Primitive.inSlices (p : Primitive) (input output : Frame) : Bool :=
  match p, p.prepare input output, input.readable with
  | .move m, .ok (target, _), .ok source => m.inSlices source target.components
  | _, _, _ => true

/-- The portable engine, which stops at a read beyond a slice. -/
def Engine.checked : Engine Option where
  name := software.name
  call p input output := if p.inSlices input output then some (p.run input output) else none

end Raster
