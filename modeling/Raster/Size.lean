/-!
# Sizes

`Size` is the width and height of a pixel grid. Grids are read from the first
stored sample on: `x` grows along a row and `y` with the row index.
-/

namespace Raster

/-- Width and height of a pixel grid. -/
structure Size where
  width : Nat
  height : Nat
  deriving DecidableEq

namespace Size

instance : Inhabited Size := ⟨0, 0⟩

/-- Width and height exchanged. -/
def swapped (s : Size) : Size := ⟨s.height, s.width⟩

/-- The number of pixels. -/
def area (s : Size) : Nat := s.width * s.height

/-- A size is empty when one of its sides is zero. -/
def isEmpty (s : Size) : Bool := s.width == 0 || s.height == 0

/-- Both sides halved and rounded up: the size of a chroma grid. -/
def halved (s : Size) : Size := ⟨(s.width + 1) / 2, (s.height + 1) / 2⟩

theorem isEmpty_eq_false {s : Size} : s.isEmpty = false ↔ 0 < s.width ∧ 0 < s.height := by
  simp [isEmpty, Nat.pos_iff_ne_zero]

@[simp] theorem swapped_swapped (s : Size) : s.swapped.swapped = s := rfl

theorem isEmpty_halved (s : Size) : s.halved.isEmpty = s.isEmpty := by
  have half (n : Nat) : (n + 1) / 2 = 0 ↔ n = 0 := by omega
  rw [Bool.eq_iff_iff]
  simp [isEmpty, halved, half]

end Size

end Raster
