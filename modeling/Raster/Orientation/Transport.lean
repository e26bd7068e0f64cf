import Raster.Error

/-!
# Points and boxes under a change of orientation

`orientPoint` and `orientBox` carry a pixel or a box of a frame along when the
frame is oriented anew. Both refuse what lies outside of the frame.
-/

namespace Raster

/-- Where a pixel of a frame lies once the frame is oriented as `target`. -/
def orientPoint (x y : Nat) (source target : Orientation) (frame : Size) :
    Except Error (Nat × Nat) :=
  if x < frame.width ∧ y < frame.height then
    .ok ((Reorientation.between source target).point frame x y)
  else .error (.frame (.outOfBounds x y frame))

/-- Where a box inside of a frame lies once the frame is oriented as `target`. -/
def orientBox (b : Box) (source target : Orientation) (frame : Size) : Except Error Box :=
  if frame.containsBox b then .ok ((Reorientation.between source target).box frame b)
  else .error (.frame (.invalidRegion b frame))

end Raster
