import Mathlib.GroupTheory.SpecificGroups.Dihedral
import Raster.Proofs.Samples.Motion

/-!
# Symmetries of grids

Quarter turns and mirror images, one after the other in any order, are eight motions: the
elements of the dihedral group. A product of the group stands for its first factor and then its
second, and motions follow suit although every grid on the way may have another size.

* `Motion.ofSymmetry` — the motion of an element of the group.

Results: `Motion.ofSymmetry_mul` (products are motions one after the other),
`Motion.mirror_vertical` (the other mirror image is one of the eight) and
`Motion.ofSymmetry_injective` (no two of the eight are the same).
-/

namespace Raster

namespace Rotation

theorem ofQuarterTurns_mod (n : Nat) : ofQuarterTurns (n % 4) = ofQuarterTurns n := by
  rw [ofQuarterTurns, Nat.mod_mod, ofQuarterTurns]

end Rotation

namespace Motion

/-- The rotation by a number of quarter turns. -/
def turns (n : Nat) : Motion := turn (.ofQuarterTurns n)

/-- The motion of a symmetry: quarter turns, perhaps after left and right are exchanged. -/
def ofSymmetry : DihedralGroup 4 → Motion
  | .r k => turns k.val
  | .sr k => (mirror .horizontal).andThen (turns k.val)

/-! ## Relations -/

theorem turns_mod (n : Nat) : turns (n % 4) = turns n := by
  rw [turns, Rotation.ofQuarterTurns_mod, turns]

/-- One quarter turn more. -/
theorem turns_succ (n : Nat) : ((turns n).andThen (turn .deg90)).Agree (turns (n + 1)) := by
  have next : Rotation.ofQuarterTurns (n + 1) =
      .ofQuarterTurns ((Rotation.ofQuarterTurns n).quarterTurns + 1) := by
    rw [Rotation.quarterTurns_ofQuarterTurns, ← Rotation.ofQuarterTurns_mod,
      ← Rotation.ofQuarterTurns_mod (n % 4 + 1)]
    congr 1
    omega
  unfold turns
  rw [next]
  generalize Rotation.ofQuarterTurns n = r
  cases r with
  | deg0 => exact .refl _
  | deg90 => exact .refl _
  | deg180 =>
    refine ⟨fun _ => rfl, fun {s x y} hx hy => ?_⟩
    show (s.height - y - 1, s.width - (s.width - x - 1) - 1) = (s.height - y - 1, x)
    congr 1
    omega
  | deg270 =>
    refine ⟨fun _ => rfl, fun {s x y} hx hy => ?_⟩
    show (x, s.height - (s.height - y - 1) - 1) = (x, y)
    congr 1
    omega

/-- Quarter turns add up. -/
theorem turns_andThen_turns (m n : Nat) : ((turns m).andThen (turns n)).Agree (turns (m + n)) := by
  induction n with
  | zero => exact andThen_deg0 _
  | succ n ih =>
    have last : ((turns m).andThen (turns (n + 1))).Agree
        (((turns m).andThen (turns n)).andThen (turn .deg90)) :=
      (Agree.refl (turns m)).andThen (turns_succ n).symm
    exact last.trans ((ih.andThen (.refl _)).trans (turns_succ (m + n)))

/-- A mirror image twice is no change. -/
theorem mirror_andThen_mirror (axis : FlipAxis) :
    ((mirror axis).andThen (mirror axis)).Agree (turns 0) :=
  ⟨fun _ => rfl, fun hx hy => FlipAxis.point_point ⟨hx, hy⟩⟩

/-- Behind a mirror, rotations turn the other way. -/
theorem turn_andThen_mirror (r : Rotation) : ((turn r).andThen (mirror .horizontal)).Agree
    ((mirror .horizontal).andThen (turn r.inverse)) := by
  cases r with
  | deg0 => exact .refl _
  | deg90 => exact .refl _
  | deg180 => exact .refl _
  | deg270 =>
    refine ⟨fun _ => rfl, fun {s x y} hx hy => ?_⟩
    show (s.height - (s.height - y - 1) - 1, x) = (y, s.width - (s.width - x - 1) - 1)
    congr 1 <;> omega

/-- Exchanging top and bottom is exchanging left and right and then half a turn. -/
theorem mirror_vertical : (mirror .vertical).Agree (ofSymmetry (.sr 2)) := by
  refine ⟨fun _ => rfl, fun {s x y} hx hy => ?_⟩
  show (x, s.height - y - 1) = (s.width - (s.width - x - 1) - 1, s.height - y - 1)
  congr 1
  omega

/-! ## The group -/

theorem turns_add (i j : ZMod 4) : turns (i + j).val = turns (i.val + j.val) := by
  rw [ZMod.val_add, turns_mod]

theorem inverse_ofQuarterTurns (i : ZMod 4) :
    (Rotation.ofQuarterTurns i.val).inverse = .ofQuarterTurns (-i).val := by
  revert i
  decide

/-- Products are motions one after the other. -/
theorem ofSymmetry_mul (g h : DihedralGroup 4) :
    ((ofSymmetry g).andThen (ofSymmetry h)).Agree (ofSymmetry (g * h)) := by
  -- a mirror image between two rotations is brought to the front
  have front (i j : ZMod 4) : ((turns i.val).andThen (ofSymmetry (.sr j))).Agree
      (ofSymmetry (.sr (j - i))) := by
    have back : ((turns i.val).andThen (mirror .horizontal)).Agree
        ((mirror .horizontal).andThen (turns (-i).val)) := by
      have turned := turn_andThen_mirror (.ofQuarterTurns i.val)
      rwa [inverse_ofQuarterTurns] at turned
    have moved : ((turns i.val).andThen (ofSymmetry (.sr j))).Agree
        ((mirror .horizontal).andThen ((turns (-i).val).andThen (turns j.val))) :=
      back.andThen (.refl (turns j.val))
    refine moved.trans ((Agree.refl _).andThen ?_)
    rw [sub_eq_neg_add, turns_add]
    exact turns_andThen_turns _ _
  have added (i j : ZMod 4) : ((turns i.val).andThen (turns j.val)).Agree (turns (i + j).val) := by
    rw [turns_add]
    exact turns_andThen_turns _ _
  cases g with
  | r i =>
    cases h with
    | r j => exact added i j
    | sr j => exact front i j
  | sr i =>
    cases h with
    | r j => exact (Agree.refl (mirror .horizontal)).andThen (added i j)
    | sr j =>
      have twice : ((mirror .horizontal).andThen (ofSymmetry (.sr (j - i)))).Agree
          ((turns 0).andThen (turns (j - i).val)) :=
        (mirror_andThen_mirror .horizontal).andThen (.refl (turns (j - i).val))
      exact ((Agree.refl (mirror .horizontal)).andThen (front i j)).trans twice

/-! ## Different symmetries -/

theorem val_cases (i : ZMod 4) : i.val = 0 ∨ i.val = 1 ∨ i.val = 2 ∨ i.val = 3 := by
  revert i
  decide

section

variable {s : Size} {i j : ZMod 4}

/-- The first two pixels of the first row tell the quarter turns apart. -/
theorem turns_injective (width : 2 ≤ s.width) (height : 2 ≤ s.height)
    (corner : (turns i.val).point s 0 0 = (turns j.val).point s 0 0)
    (next : (turns i.val).point s 1 0 = (turns j.val).point s 1 0) : i = j := by
  refine ZMod.val_injective 4 ?_
  rcases val_cases i with hi | hi | hi | hi <;> rcases val_cases j with hj | hj | hj | hj <;>
    simp only [turns, turn, hi, hj, Rotation.ofQuarterTurns, Rotation.point, Nat.reduceMod,
      Prod.mk.injEq] at corner next ⊢ <;> omega

/-- A mirror image that starts in the corner of a turned grid goes on in another direction. -/
theorem turns_ne_mirrored (width : 2 ≤ s.width) (height : 2 ≤ s.height)
    (corner : (turns i.val).point s 0 0 = (ofSymmetry (.sr j)).point s 0 0)
    (next : (turns i.val).point s 1 0 = (ofSymmetry (.sr j)).point s 1 0) : False := by
  rcases val_cases i with hi | hi | hi | hi <;> rcases val_cases j with hj | hj | hj | hj <;>
    simp only [ofSymmetry, turns, turn, mirror, andThen, hi, hj, Rotation.ofQuarterTurns,
      Rotation.point, FlipAxis.point, Nat.reduceMod, Prod.mk.injEq] at corner next <;> omega

/-- On a grid of at least two rows and columns, no two symmetries take all pixels to the same
places. -/
theorem ofSymmetry_injective (width : 2 ≤ s.width) (height : 2 ≤ s.height) {g h : DihedralGroup 4}
    (same : ∀ x y, x < s.width → y < s.height →
      (ofSymmetry g).point s x y = (ofSymmetry h).point s x y) : g = h := by
  have corner := same 0 0 (by omega) (by omega)
  have next := same 1 0 (by omega) (by omega)
  cases g with
  | r i =>
    cases h with
    | r j => exact congrArg _ (turns_injective width height corner next)
    | sr j => exact (turns_ne_mirrored width height corner next).elim
  | sr i =>
    cases h with
    | r j => exact (turns_ne_mirrored width height corner.symm next.symm).elim
    | sr j =>
      -- what the mirror image brings to the first two pixels tells the turns after it apart
      have turned (x y : Nat) (hx : x < s.width) (hy : y < s.height) :
          (turns i.val).point s x y = (turns j.val).point s x y := by
        obtain ⟨x', y', hx', hy', back⟩ := (mirror .horizontal).exists_point (s := s) hx hy
        have there := same x' y' hx' hy'
        simp only [ofSymmetry, andThen, back] at there
        exact there
      exact congrArg _ (turns_injective width height (turned 0 0 (by omega) (by omega))
        (turned 1 0 (by omega) (by omega)))

end

end Motion

end Raster
