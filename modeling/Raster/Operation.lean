import Raster.Metadata

/-!
# Operations

One step of a chain, described without an engine.

* `Operation` — crop and resize, convert, orient.
* `Operation.outputMetadata` — what a step makes of the metadata of its input.
* `Metadata.after` — what a chain of steps makes of it.
-/

namespace Raster

/-- One step of a chain. -/
inductive Operation where
  /-- The pixels in `crop`, scaled to `size`. -/
  | cropResize (crop : Box) (size : Size)
  | convert (format : Format)
  | orient (orientation : Orientation)
  /-- The pixels in `crop`, scaled in proportion to the greatest size that fits
  into `size`, at the top left of a frame of that size. -/
  | uniformCropResize (crop : Box) (size : Size)
  deriving DecidableEq

namespace Operation

/-- A short name. -/
def name : Operation → String
  | cropResize .. => "crop_resize"
  | convert _ => "convert"
  | orient _ => "orient"
  | uniformCropResize .. => "uniform_crop_resize"

/-- The size that the step makes of a frame. -/
def outputSize (op : Operation) (input : Metadata) : Size :=
  match op with
  | cropResize _ size | uniformCropResize _ size => size
  | orient target => orientedSize input.size input.orientation target
  | convert _ => input.size

/-- The orientation that the step makes of a frame. -/
def outputOrientation (op : Operation) (input : Metadata) : Orientation :=
  match op with
  | orient target => target
  | _ => input.orientation

/-- The format that the step makes of a frame. -/
def outputFormat (op : Operation) (input : Metadata) : Format :=
  match op with
  | convert target => target
  | _ => input.format

/-- The metadata that the step makes of a frame. -/
def outputMetadata (op : Operation) (input : Metadata) : Metadata where
  size := op.outputSize input
  orientation := op.outputOrientation input
  format := op.outputFormat input

end Operation

/-- The metadata that a chain makes of a frame. -/
def Metadata.after (m : Metadata) (operations : List Operation) : Metadata :=
  operations.foldl (fun m op => op.outputMetadata m) m

end Raster
