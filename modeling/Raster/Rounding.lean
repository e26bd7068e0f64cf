/-!
# Whole numbers and floating point

The conversions between whole numbers and floating point that scaled geometry
needs. A number outside of the range of a conversion goes to its nearest end, and
NaN to zero.
-/

namespace Raster

/-- The 32-bit floating point number nearest to a whole number. -/
def binary32 (n : Nat) : Float32 := n.toUInt64.toFloat32

/-- The 64-bit floating point number nearest to a whole number. -/
def binary64 (n : Nat) : Float := n.toUInt64.toFloat

/-- The whole part of a number, as a 32-bit unsigned integer. -/
def truncate32 (v : Float32) : Nat := v.toUInt32.toNat

/-- A whole number or the one after it, as a 32-bit unsigned integer. -/
def roundedUp (whole : Nat) (up : Bool) : Nat := min (if up then whole + 1 else whole) (UInt32.size - 1)

/-- The nearest whole number, halves away from zero, as a 32-bit unsigned integer.
The share above the whole part is exact, so that no rounding comes before this one. -/
def round32 (v : Float32) : Nat :=
  let whole := v.toUInt64
  roundedUp whole.toNat (0.5 ≤ v - whole.toFloat32)

/-- `round32` for 64-bit floating point. -/
def round64 (v : Float) : Nat :=
  let whole := v.toUInt64
  roundedUp whole.toNat (0.5 ≤ v - whole.toFloat)

example : round32 2.5 = 3 ∧ round32 2.25 = 2 ∧ round32 (-2.5) = 0 := by decide

end Raster
