/-!
# Machine words

Lengths, strides and places in a buffer are unsigned words of 64 bits. Here they are
plain numbers. That makes no difference as long as every sum and every product fits
in a word, which is a condition of its own wherever it is not a matter of course.

* `FitsWord` — the numbers that a word holds.
* `add?` — a sum, if a word holds it.
-/

namespace Raster

/-- A word holds the number. -/
def FitsWord (n : Nat) : Prop := n < UInt64.size

instance (n : Nat) : Decidable (FitsWord n) := inferInstanceAs (Decidable (n < UInt64.size))

theorem FitsWord.of_le {m n : Nat} (fits : FitsWord n) (le : m ≤ n) : FitsWord m :=
  Nat.lt_of_le_of_lt le fits

/-- A sum, if a word holds it. -/
def add? (a b : Nat) : Option Nat := if FitsWord (a + b) then some (a + b) else none

theorem add?_eq_some {a b : Nat} (fits : FitsWord (a + b)) : add? a b = some (a + b) := if_pos fits

end Raster
