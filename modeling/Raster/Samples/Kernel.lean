import Raster.Samples.Basic
import Raster.Word

/-!
# Moving samples

Kernels that build a grid of a wanted extent by picking a source sample for each
of its samples: `copyRegion`, `mirrorHorizontal`, `mirrorVertical`, `rotateCcw`
and `resizeNearest`. A target may have fewer channels than the source, or a fourth
one, which is then opaque.

A window or a region that reaches past the last word is no window of any grid. A
machine that adds in words may not see that, and `Region.within?` says where it
does not.
-/

namespace Raster

/-- Part of a grid, in samples. -/
structure Region where
  x : Nat
  y : Nat
  width : Nat
  height : Nat
  deriving DecidableEq

namespace Region

/-- Width and height of a region. -/
def size (r : Region) : Size := ⟨r.width, r.height⟩

/-- Whether a region has pixels and lies in a grid of size `whole`, one side after the
other. There is no answer if a sum that is asked for does not fit in a word. -/
def within? (r : Region) (whole : Size) : Option Bool :=
  if r.size.isEmpty then some false
  else do
    let right ← add? r.x r.width
    if whole.width < right then return false
    else
      let bottom ← add? r.y r.height
      return decide (bottom ≤ whole.height)

end Region

namespace Samples

/-- The grid of extent `target` that shows at `(x, y)` the source sample at `place x y`. -/
def pull (source : Samples) (target : Extent) (place : (x y : Nat) → Nat × Nat) : Samples where
  toExtent := target
  value x y c := source.opaqueValue (place x y).1 (place x y).2 c

/-- The whole grid as a region. -/
def wholeRegion (s : Samples) : Region := ⟨0, 0, s.width, s.height⟩

/-! ## Checks -/

/-- Checks that the source has the channels that the target needs. -/
def checkChannels (primitive : String) (source : Samples) (target : Extent) : Except Error Unit :=
  if source.channels < target.channels ∧ ¬(source.channels = 3 ∧ target.channels = 4) then
    .error (.backend primitive (.channels target.channels source.channels))
  else .ok ()

/-- Checks that source and target are equally wide and high. -/
def checkSameSize (primitive : String) (source : Samples) (target : Extent) :
    Except Error Unit := do
  checkChannels primitive source target
  if source.size = target.size then .ok ()
  else .error (.backend primitive (.sizes source.size target.size))

/-- Checks that a region is not empty and lies inside of the source. -/
def checkRegion (primitive : String) (source : Samples) (r : Region) : Except Error Unit :=
  if r.width = 0 ∨ r.height = 0 ∨ source.width < r.x + r.width ∨ source.height < r.y + r.height then
    .error (.backend primitive (.region r.width r.height r.x r.y source.size))
  else .ok ()

/-! ## Kernels -/

/-- The part of the source that starts at `(x0, y0)`. -/
def copyRegion (source : Samples) (x0 y0 : Nat) (target : Extent) : Except Error Samples := do
  checkChannels "copy" source target
  if x0 + target.width ≤ source.width ∧ y0 + target.height ≤ source.height then
    .ok (source.pull target fun x y => (x0 + x, y0 + y))
  else .error (.backend "copy" (.window target.width target.height x0 y0 source.size))

/-- The source with left and right exchanged. -/
def mirrorHorizontal (source : Samples) (target : Extent) : Except Error Samples := do
  checkSameSize "flip_horizontal" source target
  return source.pull target fun x y => (target.width - 1 - x, y)

/-- The source with top and bottom exchanged. -/
def mirrorVertical (source : Samples) (target : Extent) : Except Error Samples := do
  checkSameSize "flip_vertical" source target
  return source.pull target fun x y => (x, target.height - 1 - y)

/-- The source sample that a counter-clockwise rotation of a grid of size `s`
brings to `(x, y)`. -/
def rotationSource (turns : Nat) (s : Size) (x y : Nat) : Nat × Nat :=
  match turns % 4 with
  | 0 => (x, y)
  | 1 => (s.width - 1 - y, x)
  | 2 => (s.width - 1 - x, s.height - 1 - y)
  | _ => (y, s.height - 1 - x)

/-- The source rotated counter-clockwise by quarter turns. -/
def rotateCcw (source : Samples) (turns : Nat) (target : Extent) : Except Error Samples := do
  checkChannels "rotate" source target
  if target.size = (if turns % 2 = 1 then source.size.swapped else source.size) then
    .ok (source.pull target (rotationSource turns source.size))
  else .error (.backend "rotate" (.rotated target.size source.size (turns % 4 * 90)))

/-- The source index nearest to the centre of target sample `i`. Both products are
words, and wrap where they do not fit. -/
def nearestIndex (sourceLength targetLength i : Nat) : Nat :=
  let centre := (2 * i.toUInt64 + 1) * sourceLength.toUInt64
  min (centre / (2 * targetLength.toUInt64)).toNat (sourceLength - 1)

/-- The products that place the centres of all target samples fit in words. -/
def CentresFit (sourceLength targetLength : Nat) : Prop :=
  FitsWord ((2 * targetLength - 1) * sourceLength) ∧ FitsWord (2 * targetLength)

instance (n m : Nat) : Decidable (CentresFit n m) :=
  inferInstanceAs (Decidable (FitsWord ((2 * m - 1) * n) ∧ FitsWord (2 * m)))

/-- A region of the source scaled to the target, each sample taken from the
nearest one of the region. -/
def resizeNearest (source : Samples) (region : Region) (target : Extent) :
    Except Error Samples := do
  checkChannels "resize_nearest_neighbor" source target
  checkRegion "resize_nearest_neighbor" source region
  return source.pull target fun x y =>
    (region.x + nearestIndex region.width target.width x,
      region.y + nearestIndex region.height target.height y)

end Samples

end Raster
