import Raster.Orientation.Transport

/-!
# Segmentation masks

A model gives one value for each pixel of its tensor. `MaskRemap` turns them into
a mask for the upright picture: `MaskRemap.tensorPoint` is the tensor pixel behind
a mask pixel, and `MaskRemap.remap` the whole mask.
-/

namespace Raster

/-- The way from an upright mask to the tensor of a frame with an orientation. -/
structure MaskRemap where
  tensorSize : Size
  orientation : Orientation
  deriving DecidableEq

namespace MaskRemap

/-- The size of the mask: that of the tensor, turned upright. -/
def maskSize (r : MaskRemap) : Size := uprightSize r.tensorSize r.orientation

/-- The tensor pixel behind a mask pixel. -/
def tensorPoint (r : MaskRemap) (x y : Nat) : Except Error (Nat × Nat) :=
  orientPoint x y .topLeft r.orientation r.maskSize

/-- The pixels of a grid, row by row. -/
def pixelsOf (s : Size) : List (Nat × Nat) :=
  (List.range s.height).flatMap fun y => (List.range s.width).map fun x => (x, y)

/-- The mask of a list of tensor values, both row by row. -/
def remap {α : Type} (r : MaskRemap) (values : Array α) : Except Error (List α) :=
  if values.size = r.tensorSize.area then do
    let points ← (pixelsOf r.maskSize).mapM fun p => r.tensorPoint p.1 p.2
    return points.filterMap fun q => values[q.2 * r.tensorSize.width + q.1]?
  else .error (.invalidArgument (.tensorLength values.size r.tensorSize.area))

end MaskRemap

end Raster
