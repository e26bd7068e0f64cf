import Raster.Size

/-!
# Boxes

`Box` is an axis-aligned box of pixels. Its right and bottom edges are exclusive,
and it is never clamped to a frame: `Size.containsBox` tells whether it lies inside.
-/

namespace Raster

/-- A box given by its top-left pixel and its size. -/
structure Box where
  x : Nat
  y : Nat
  width : Nat
  height : Nat
  deriving DecidableEq

namespace Box

instance : Inhabited Box := ⟨0, 0, 0, 0⟩

/-- The box that covers a whole frame. -/
def ofSize (s : Size) : Box := ⟨0, 0, s.width, s.height⟩

/-- The box that spans two inclusive corners; there is none when they are reversed. -/
def ofCorners? (x0 y0 x1 y1 : Nat) : Option Box :=
  if x1 < x0 ∨ y1 < y0 then none else some ⟨x0, y0, x1 - x0 + 1, y1 - y0 + 1⟩

/-- The column after the last one. -/
def right (b : Box) : Nat := b.x + b.width

/-- The row after the last one. -/
def bottom (b : Box) : Nat := b.y + b.height

/-- The size of a box. -/
def size (b : Box) : Size := ⟨b.width, b.height⟩

/-- A box is empty when it holds no pixel. -/
def isEmpty (b : Box) : Bool := b.size.isEmpty

/-- The pixel `(px, py)` lies in the box. -/
def contains (b : Box) (px py : Nat) : Bool :=
  decide (b.x ≤ px) && decide (px < b.right) && decide (b.y ≤ py) && decide (py < b.bottom)

theorem contains_iff {b : Box} {px py : Nat} :
    b.contains px py = true ↔ b.x ≤ px ∧ px < b.right ∧ b.y ≤ py ∧ py < b.bottom := by
  simp [contains, and_assoc]

end Box

/-- The box lies inside the frame of this size, edges included. -/
def Size.containsBox (s : Size) (b : Box) : Bool :=
  decide (b.right ≤ s.width) && decide (b.bottom ≤ s.height)

theorem Size.containsBox_iff {s : Size} {b : Box} :
    s.containsBox b = true ↔ b.right ≤ s.width ∧ b.bottom ≤ s.height := by
  simp [Size.containsBox]

theorem Size.containsBox_ofSize (s : Size) : s.containsBox (Box.ofSize s) = true := by
  simp [Size.containsBox_iff, Box.ofSize, Box.right, Box.bottom]

end Raster
