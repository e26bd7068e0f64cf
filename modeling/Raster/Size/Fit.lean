import Raster.Rounding
import Raster.Size

/-!
# Proportional scaling

`uniformFit` is the greatest size with the proportions of a box that fits into a
frame. No side of it is zero, and none passes the frame's (`one_le_fitSide`,
`fitSide_le`).
-/

namespace Raster

/-- A side scaled and rounded, at least one pixel and no more than its limit. -/
def fitSide (scale : Float) (side limit : Nat) : Nat :=
  max 1 (min (round64 (binary64 side * scale)) (max limit 1))

/-- The greatest size with the proportions of `crop` that fits into `frame`. -/
def uniformFit (crop frame : Size) : Size :=
  let across := binary64 frame.width / binary64 (max crop.width 1)
  let down := binary64 frame.height / binary64 (max crop.height 1)
  let scale := if across < down then across else down
  ⟨fitSide scale crop.width frame.width, fitSide scale crop.height frame.height⟩

theorem one_le_fitSide (scale : Float) (side limit : Nat) : 1 ≤ fitSide scale side limit := by
  unfold fitSide
  omega

theorem fitSide_le {limit : Nat} (scale : Float) (side : Nat) (h : 0 < limit) :
    fitSide scale side limit ≤ limit := by
  unfold fitSide
  omega

end Raster
