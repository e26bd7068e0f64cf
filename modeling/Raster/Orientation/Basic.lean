import Raster.Box

/-!
# Orientations

An orientation tells which visual corner of the scene the first stored pixel
shows. The eight tags form two rings of four: inside a ring a rotation leads
from each tag to each other, and the second ring holds the mirror images of the
first at the same places. So two orientations always differ by a rotation, and a
flip after it when their rings differ.

* `Reorientation.between` — that rotation and flip.
* `Reorientation.point`, `Reorientation.box` — where it takes a pixel or a box.
* `orientedSize` — the size of a frame once it is oriented.
-/

namespace Raster

/-! ## The eight orientations -/

/-- Where row 0 and column 0 of the stored pixels lie in the upright scene; the
first word is the side of row 0, the second the side of column 0. -/
inductive Orientation where
  | topLeft
  | topRight
  | bottomRight
  | bottomLeft
  | leftTop
  | rightTop
  | rightBottom
  | leftBottom
  deriving DecidableEq

namespace Orientation

instance : Inhabited Orientation := ⟨topLeft⟩

/-- All orientations, in the order of their tags. -/
def all : List Orientation :=
  [topLeft, topRight, bottomRight, bottomLeft, leftTop, rightTop, rightBottom, leftBottom]

/-- The number from 1 to 8 that image files use. -/
def tag : Orientation → Nat
  | topLeft => 1
  | topRight => 2
  | bottomRight => 3
  | bottomLeft => 4
  | leftTop => 5
  | rightTop => 6
  | rightBottom => 7
  | leftBottom => 8

/-- The orientation of a tag; a number that is no tag means upright. -/
def ofTag : Nat → Orientation
  | 2 => topRight
  | 3 => bottomRight
  | 4 => bottomLeft
  | 5 => leftTop
  | 6 => rightTop
  | 7 => rightBottom
  | 8 => leftBottom
  | _ => topLeft

/-- Rows of the stored pixels are columns of the scene. -/
def isTransposed (o : Orientation) : Bool := decide (5 ≤ o.tag)

/-- The name as a capitalised word. -/
def title : Orientation → String
  | topLeft => "TopLeft"
  | topRight => "TopRight"
  | bottomRight => "BottomRight"
  | bottomLeft => "BottomLeft"
  | leftTop => "LeftTop"
  | rightTop => "RightTop"
  | rightBottom => "RightBottom"
  | leftBottom => "LeftBottom"

@[simp] theorem ofTag_tag (o : Orientation) : ofTag o.tag = o := by
  cases o <;> rfl

/-- The orientation belongs to the ring of mirror images. -/
def mirrored : Orientation → Bool
  | topLeft | rightTop | bottomRight | leftBottom => false
  | topRight | leftTop | bottomLeft | rightBottom => true

/-- Quarter turns, counter-clockwise, from the first orientation of the ring. -/
def turns : Orientation → Nat
  | topLeft | topRight => 0
  | rightTop | leftTop => 1
  | bottomRight | bottomLeft => 2
  | leftBottom | rightBottom => 3

end Orientation

/-! ## Rotations and flips -/

/-- A counter-clockwise rotation by quarter turns. -/
inductive Rotation where
  | deg0
  | deg90
  | deg180
  | deg270
  deriving DecidableEq

namespace Rotation

instance : Inhabited Rotation := ⟨deg0⟩

/-- The rotation by a number of quarter turns, taken modulo four. -/
def ofQuarterTurns (turns : Nat) : Rotation :=
  match turns % 4 with
  | 0 => deg0
  | 1 => deg90
  | 2 => deg180
  | _ => deg270

/-- The rotation by an angle; only 0, 90, 180 and 270 name one. -/
def ofDegrees? : Nat → Option Rotation
  | 0 => some deg0
  | 90 => some deg90
  | 180 => some deg180
  | 270 => some deg270
  | _ => none

/-- The number of quarter turns. -/
def quarterTurns : Rotation → Nat
  | deg0 => 0
  | deg90 => 1
  | deg180 => 2
  | deg270 => 3

/-- The angle in degrees. -/
def degrees (r : Rotation) : Nat := r.quarterTurns * 90

/-- Width and height trade places. -/
def swapsSides : Rotation → Bool
  | deg90 | deg270 => true
  | deg0 | deg180 => false

/-- The size of a rotated grid. -/
def size (r : Rotation) (s : Size) : Size := if r.swapsSides then s.swapped else s

/-- Where the rotation takes a pixel of a grid of size `s`. -/
def point (r : Rotation) (s : Size) (x y : Nat) : Nat × Nat :=
  match r with
  | deg0 => (x, y)
  | deg90 => (y, s.width - x - 1)
  | deg180 => (s.width - x - 1, s.height - y - 1)
  | deg270 => (s.height - y - 1, x)

/-- Where the rotation takes a box of a grid of size `s`. -/
def box (r : Rotation) (s : Size) (b : Box) : Box :=
  match r with
  | deg0 => b
  | deg90 => ⟨b.y, s.width - (b.x + b.width), b.height, b.width⟩
  | deg180 => ⟨s.width - (b.x + b.width), s.height - (b.y + b.height), b.width, b.height⟩
  | deg270 => ⟨s.height - (b.y + b.height), b.x, b.height, b.width⟩

@[simp] theorem ofQuarterTurns_quarterTurns (r : Rotation) :
    ofQuarterTurns r.quarterTurns = r := by
  cases r <;> rfl

@[simp] theorem ofDegrees?_degrees (r : Rotation) : ofDegrees? r.degrees = some r := by
  cases r <;> rfl

theorem quarterTurns_ofQuarterTurns (turns : Nat) :
    (ofQuarterTurns turns).quarterTurns = turns % 4 := by
  have cases : turns % 4 = 0 ∨ turns % 4 = 1 ∨ turns % 4 = 2 ∨ turns % 4 = 3 := by omega
  rcases cases with h | h | h | h <;> simp [ofQuarterTurns, quarterTurns, h]

end Rotation

/-- What a flip exchanges: left and right, or top and bottom. -/
inductive FlipAxis where
  | horizontal
  | vertical
  deriving DecidableEq

namespace FlipAxis

/-- The name as a capitalised word. -/
def title : FlipAxis → String
  | horizontal => "Horizontal"
  | vertical => "Vertical"

/-- Where the flip takes a pixel of a grid of size `s`. -/
def point (axis : FlipAxis) (s : Size) (p : Nat × Nat) : Nat × Nat :=
  match axis with
  | horizontal => (s.width - p.1 - 1, p.2)
  | vertical => (p.1, s.height - p.2 - 1)

/-- Where the flip takes a box of a grid of size `s`. -/
def box (axis : FlipAxis) (s : Size) (b : Box) : Box :=
  match axis with
  | horizontal => { b with x := s.width - (b.x + b.width) }
  | vertical => { b with y := s.height - (b.y + b.height) }

end FlipAxis

/-! ## Changes of orientation -/

/-- A rotation, then perhaps a flip. -/
structure Reorientation where
  rotation : Rotation
  flip : Option FlipAxis
  deriving DecidableEq

namespace Reorientation

instance : Inhabited Reorientation := ⟨default, none⟩

/-- The change that moves nothing. -/
def isIdentity (r : Reorientation) : Bool := r.rotation == .deg0 && r.flip.isNone

/-- The change that turns a grid stored as `source` into one stored as `target`.
The flip mirrors the axis that runs across the scene once the grid is rotated. -/
def between (source target : Orientation) : Reorientation where
  rotation := .ofQuarterTurns (4 + target.turns - source.turns)
  flip :=
    if source.mirrored == target.mirrored then none
    else if target.turns % 2 == 1 then some .vertical
    else some .horizontal

/-- Width and height trade places. -/
def swapsSides (r : Reorientation) : Bool := r.rotation.swapsSides

/-- The size of a grid after the change. -/
def size (r : Reorientation) (s : Size) : Size := r.rotation.size s

/-- Where the change takes a pixel of a grid of size `s`; the flip acts on the
rotated grid. -/
def point (r : Reorientation) (s : Size) (x y : Nat) : Nat × Nat :=
  let rotated := r.rotation.point s x y
  match r.flip with
  | none => rotated
  | some axis => axis.point (r.size s) rotated

/-- Where the change takes a box of a grid of size `s`. -/
def box (r : Reorientation) (s : Size) (b : Box) : Box :=
  let rotated := r.rotation.box s b
  match r.flip with
  | none => rotated
  | some axis => axis.box (r.size s) rotated

end Reorientation

/-- The size of a `source` grid of size `s` once it is oriented as `target`. -/
def orientedSize (s : Size) (source target : Orientation) : Size :=
  (Reorientation.between source target).size s

/-- The size of a stored grid once it is shown upright. -/
def uprightSize (s : Size) (source : Orientation) : Size := orientedSize s source .topLeft

end Raster
