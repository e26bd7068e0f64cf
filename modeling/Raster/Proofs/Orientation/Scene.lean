import Raster.Orientation.Transport
import Raster.Proofs.Samples.Symmetry

/-!
# Stored pixels in the upright scene

An orientation names two sides of the scene: the one where the first stored row lies and the one
where the first stored column lies. Counted inwards from these two sides, the row and the column
of a stored pixel give its place in the scene. A change of orientation keeps that place. So
changes compose, and each can be undone.

* `Orientation.rowSide`, `Orientation.columnSide` — the two sides.
* `Orientation.scenePoint` — the place of a stored pixel in the scene.
* `Orientation.symmetry`, `Reorientation.symmetry` — the elements of the dihedral group that show a
  stored grid upright and that change its orientation.
* `Reorientation.checkedPoint` — a change in numbers that must not go below zero.

Results: `Motion.scene` (places in the scene are those of a symmetry),
`Reorientation.symmetry_between` (a change is the quotient of two orientations) and
`orientPoint_keeps_scene` (when a pixel is carried along, and where to).
-/

namespace Raster

/-! ## Places in the scene -/

/-- A side of the upright scene. -/
inductive Side where
  | top
  | bottom
  | left
  | right
  deriving DecidableEq

namespace Side

/-- Columns end at the top and the bottom, rows at the left and the right. -/
def endsRows : Side → Bool
  | left | right => true
  | top | bottom => false

/-- The coordinate of what lies some steps in from the side, across a scene of some length. -/
def inwards (side : Side) (length steps : Nat) : Nat :=
  match side with
  | top | left => steps
  | bottom | right => length - 1 - steps

end Side

namespace Orientation

/-- The side of the scene where the first stored row lies. -/
def rowSide : Orientation → Side
  | topLeft | topRight => .top
  | bottomRight | bottomLeft => .bottom
  | leftTop | leftBottom => .left
  | rightTop | rightBottom => .right

/-- The side of the scene where the first stored column lies. -/
def columnSide : Orientation → Side
  | topLeft | bottomLeft => .left
  | topRight | bottomRight => .right
  | leftTop | rightTop => .top
  | rightBottom | leftBottom => .bottom

/-- The place in the scene of a pixel of a stored grid of size `s`. -/
def scenePoint (o : Orientation) (s : Size) (x y : Nat) : Nat × Nat :=
  let row := o.rowSide.inwards s.height y
  let column := o.columnSide.inwards s.width x
  if o.rowSide.endsRows then (row, column) else (column, row)

/-- The symmetry that shows a stored grid upright. -/
def symmetry (o : Orientation) : DihedralGroup 4 :=
  if o.mirrored then .sr o.turns else .r (-o.turns)

end Orientation

/-- Stored grids are shown upright by their symmetry. -/
theorem Motion.scene (o : Orientation) {s : Size} {x y : Nat} (hx : x < s.width)
    (hy : y < s.height) : (ofSymmetry o.symmetry).point s x y = o.scenePoint s x y := by
  cases o with
  | topLeft => rfl
  | topRight =>
    show (s.width - x - 1, y) = (s.width - 1 - x, y)
    congr 1
    omega
  | bottomRight =>
    show (s.width - x - 1, s.height - y - 1) = (s.width - 1 - x, s.height - 1 - y)
    congr 1 <;> omega
  | bottomLeft =>
    show (s.width - (s.width - x - 1) - 1, s.height - y - 1) = (x, s.height - 1 - y)
    congr 1 <;> omega
  | leftTop =>
    show (y, s.width - (s.width - x - 1) - 1) = (y, x)
    congr 1
    omega
  | rightTop =>
    show (s.height - y - 1, x) = (s.height - 1 - y, x)
    congr 1
    omega
  | rightBottom =>
    show (s.height - y - 1, s.width - x - 1) = (s.height - 1 - y, s.width - 1 - x)
    congr 1 <;> omega
  | leftBottom =>
    show (y, s.width - x - 1) = (y, s.width - 1 - x)
    congr 1
    omega

/-! ## Changes of orientation -/

/-- The symmetry of a flip. -/
def FlipAxis.symmetry : FlipAxis → DihedralGroup 4
  | horizontal => .sr 0
  | vertical => .sr (2 : Nat)

/-- The symmetry of a rotation. -/
def Rotation.symmetry (r : Rotation) : DihedralGroup 4 := .r r.quarterTurns

namespace Reorientation

/-- The symmetry of a change of orientation: the rotation, then the flip. -/
def symmetry (change : Reorientation) : DihedralGroup 4 :=
  match change.flip with
  | none => change.rotation.symmetry
  | some axis => change.rotation.symmetry * axis.symmetry

/-- The axis of a flip is the one that runs across the scene, so that the flip is half the way
round from where the turns of the target lead twice. -/
theorem symmetry_axis (target : Orientation) :
    (if target.turns % 2 == 1 then FlipAxis.vertical else .horizontal).symmetry =
      .sr (2 * target.turns) := by
  cases target <;> rfl

theorem rotation_symmetry_between (source target : Orientation) :
    (between source target).rotation.symmetry = .r (target.turns - source.turns) := by
  have few : source.turns ≤ 4 + target.turns := by
    cases source <;> simp only [Orientation.turns] <;> omega
  show DihedralGroup.r ((Rotation.ofQuarterTurns _).quarterTurns : ZMod 4) = _
  rw [Rotation.quarterTurns_ofQuarterTurns, ZMod.natCast_mod, Nat.cast_sub few, Nat.cast_add]
  congr 2
  exact zero_add _

/-- Equal rings need the rotation only. -/
theorem symmetry_between_eq (source target : Orientation) :
    (between source target).symmetry =
      if source.mirrored = target.mirrored then .r (target.turns - source.turns)
      else .r (target.turns - source.turns) * .sr (2 * target.turns) := by
  have turned := rotation_symmetry_between source target
  have flipped := symmetry_axis target
  unfold symmetry
  by_cases same : source.mirrored = target.mirrored
  · have none : (between source target).flip = none := if_pos (by simp [same])
    rw [none, if_pos same]
    exact turned
  · have some : (between source target).flip =
        some (if target.turns % 2 == 1 then .vertical else .horizontal) := by
      show (if _ then _ else if _ then _ else _) = _
      rw [if_neg (by simpa using same)]
      split <;> rfl
    rw [some, if_neg same, ← turned, ← flipped]

/-- A change shows the stored grid upright and then stores it in the other way. -/
theorem symmetry_between (source target : Orientation) :
    (between source target).symmetry = source.symmetry * target.symmetry⁻¹ := by
  rw [eq_mul_inv_iff_mul_eq, symmetry_between_eq]
  unfold Orientation.symmetry
  cases source.mirrored <;> cases target.mirrored
  · show DihedralGroup.r _ * .r _ = .r _
    rw [DihedralGroup.r_mul_r]
    congr 1
    ring
  · show DihedralGroup.r _ * .sr _ * .sr _ = .r _
    rw [DihedralGroup.r_mul_sr, DihedralGroup.sr_mul_sr]
    congr 1
    ring
  · show DihedralGroup.r _ * .sr _ * .r _ = .sr _
    rw [DihedralGroup.r_mul_sr, DihedralGroup.sr_mul_r]
    congr 1
    ring
  · show DihedralGroup.r _ * .sr _ = .sr _
    rw [DihedralGroup.r_mul_sr]
    congr 1
    ring

/-- Changes of orientation compose. -/
theorem symmetry_between_mul (first second third : Orientation) :
    (between first second).symmetry * (between second third).symmetry =
      (between first third).symmetry := by
  rw [symmetry_between, symmetry_between, symmetry_between, mul_assoc, inv_mul_cancel_left]

end Reorientation

/-! ## Motions of changes -/

namespace Motion

theorem ofSymmetry_rotation (r : Rotation) : ofSymmetry r.symmetry = turn r := by
  cases r <;> rfl

theorem mirror_agree (axis : FlipAxis) : (mirror axis).Agree (ofSymmetry axis.symmetry) := by
  cases axis with
  | horizontal => exact (andThen_deg0 _).symm
  | vertical => exact mirror_vertical

/-- A change of orientation moves pixels by its symmetry. -/
theorem ofChange_agree (change : Reorientation) :
    (ofChange change).Agree (ofSymmetry change.symmetry) := by
  obtain ⟨rotation, flip⟩ := change
  cases flip with
  | none =>
    show (turn rotation).Agree (ofSymmetry rotation.symmetry)
    rw [ofSymmetry_rotation]
    exact .refl _
  | some axis =>
    have flipped : ((turn rotation).andThen (mirror axis)).Agree
        ((ofSymmetry rotation.symmetry).andThen (ofSymmetry axis.symmetry)) := by
      rw [ofSymmetry_rotation]
      exact (Agree.refl _).andThen (mirror_agree axis)
    exact flipped.trans (ofSymmetry_mul _ _)

/-- One change of orientation after the other. -/
theorem ofChange_andThen (first second third : Orientation) :
    ((ofChange (.between first second)).andThen (ofChange (.between second third))).Agree
      (ofChange (.between first third)) := by
  refine ((ofChange_agree _).andThen (ofChange_agree _)).trans ?_
  refine (ofSymmetry_mul _ _).trans ?_
  rw [Reorientation.symmetry_between_mul]
  exact (ofChange_agree _).symm

/-- A change of orientation keeps the place in the scene. -/
theorem ofChange_andThen_scene (source target : Orientation) :
    ((ofChange (.between source target)).andThen (ofSymmetry target.symmetry)).Agree
      (ofSymmetry source.symmetry) := by
  refine ((ofChange_agree _).andThen (.refl _)).trans ?_
  refine (ofSymmetry_mul _ _).trans ?_
  rw [Reorientation.symmetry_between, inv_mul_cancel_right]
  exact .refl _

end Motion

section

variable {source target : Orientation} {s : Size} {x y : Nat}

theorem Reorientation.point_mem (hx : x < s.width) (hy : y < s.height) :
    (between source target).point s x y ∈ (orientedSize s source target).pixels := by
  have inside := (Motion.ofChange (between source target)).inside hx hy
  rw [Motion.point_ofChange, Motion.size_ofChange] at inside
  exact inside

/-- Oriented twice, a grid is as oriented once. -/
theorem orientedSize_trans (s : Size) (first second third : Orientation) :
    orientedSize (orientedSize s first second) second third = orientedSize s first third := by
  have sizes := (Motion.ofChange_andThen first second third).size s
  rw [Motion.size_andThen] at sizes
  simp only [Motion.size_ofChange] at sizes
  exact sizes

/-- And so are its pixels. -/
theorem Reorientation.point_trans (first second third : Orientation) (hx : x < s.width)
    (hy : y < s.height) :
    (between second third).point (orientedSize s first second)
        ((between first second).point s x y).1 ((between first second).point s x y).2 =
      (between first third).point s x y := by
  have moved := (Motion.ofChange_andThen first second third).point hx hy
  rw [Motion.point_andThen] at moved
  simp only [Motion.point_ofChange, Motion.size_ofChange] at moved
  exact moved

/-- A change of orientation keeps the place of a pixel in the scene. -/
theorem Reorientation.scenePoint_point (hx : x < s.width) (hy : y < s.height) :
    target.scenePoint (orientedSize s source target) ((between source target).point s x y).1
      ((between source target).point s x y).2 = source.scenePoint s x y := by
  have lands : (between source target).point s x y ∈ (orientedSize s source target).pixels :=
    Reorientation.point_mem hx hy
  have kept := (Motion.ofChange_andThen_scene source target).point hx hy
  rw [Motion.point_andThen, Motion.point_ofChange, Motion.size_ofChange] at kept
  exact (Motion.scene target lands.1 lands.2).symm.trans (kept.trans (Motion.scene source hx hy))

end

/-! ## Differences that stay above zero -/

/-- A difference, if it is no less than zero. -/
def minus? (a b : Nat) : Option Nat := if b ≤ a then some (a - b) else none

/-- An index counted from the other end of a row or column. -/
def fromEnd? (length i : Nat) : Option Nat := do minus? (← minus? length i) 1

theorem fromEnd?_eq {length i : Nat} (h : i < length) : fromEnd? length i = some (length - i - 1) := by
  have first : minus? length i = some (length - i) := if_pos (Nat.le_of_lt h)
  rw [fromEnd?, first]
  exact if_pos (by omega)

/-- Where a rotation takes a pixel, if no difference on the way is less than zero. -/
def Rotation.checkedPoint (r : Rotation) (s : Size) (x y : Nat) : Option (Nat × Nat) :=
  match r with
  | deg0 => some (x, y)
  | deg90 => do return (y, ← fromEnd? s.width x)
  | deg180 => do return (← fromEnd? s.width x, ← fromEnd? s.height y)
  | deg270 => do return (← fromEnd? s.height y, x)

/-- Where a flip takes a pixel, if no difference on the way is less than zero. -/
def FlipAxis.checkedPoint (axis : FlipAxis) (s : Size) (p : Nat × Nat) : Option (Nat × Nat) :=
  match axis with
  | horizontal => do return (← fromEnd? s.width p.1, p.2)
  | vertical => do return (p.1, ← fromEnd? s.height p.2)

/-- Where a change of orientation takes a pixel, if no difference on the way is less than zero. -/
def Reorientation.checkedPoint (change : Reorientation) (s : Size) (x y : Nat) :
    Option (Nat × Nat) := do
  let rotated ← change.rotation.checkedPoint s x y
  match change.flip with
  | none => some rotated
  | some axis => axis.checkedPoint (change.size s) rotated

section

variable {s : Size} {x y : Nat}

theorem Rotation.checkedPoint_eq (r : Rotation) (hx : x < s.width) (hy : y < s.height) :
    r.checkedPoint s x y = some (r.point s x y) := by
  cases r <;> simp only [checkedPoint, point, fromEnd?_eq hx, fromEnd?_eq hy] <;> rfl

theorem FlipAxis.checkedPoint_eq (axis : FlipAxis) {p : Nat × Nat} (hp : p ∈ s.pixels) :
    axis.checkedPoint s p = some (axis.point s p) := by
  cases axis <;> simp only [checkedPoint, point, fromEnd?_eq hp.1, fromEnd?_eq hp.2] <;> rfl

/-- Inside of the grid no difference is. -/
theorem Reorientation.checkedPoint_eq (change : Reorientation) (hx : x < s.width)
    (hy : y < s.height) : change.checkedPoint s x y = some (change.point s x y) := by
  obtain ⟨rotation, flip⟩ := change
  rw [checkedPoint, rotation.checkedPoint_eq hx hy]
  cases flip with
  | none => rfl
  | some axis => exact axis.checkedPoint_eq (Rotation.point_mem hx hy)

end

/-! ## Pixels that are carried along -/

section

variable {source target : Orientation} {frame : Size} {x y : Nat} {p : Nat × Nat}

theorem orientPoint_eq_ok : orientPoint x y source target frame = .ok p ↔
    (x < frame.width ∧ y < frame.height) ∧
      (Reorientation.between source target).point frame x y = p := ite_ok_eq_ok

/-- A pixel that is carried on. -/
theorem orientPoint_trans (h : orientPoint x y source target frame = .ok p) (last : Orientation) :
    orientPoint p.1 p.2 target last (orientedSize frame source target) =
      orientPoint x y source last frame := by
  obtain ⟨⟨hx, hy⟩, rfl⟩ := orientPoint_eq_ok.1 h
  rw [orientPoint_eq_ok.2 ⟨⟨hx, hy⟩, rfl⟩, orientPoint_eq_ok]
  exact ⟨Reorientation.point_mem hx hy, Reorientation.point_trans source target last hx hy⟩

theorem Reorientation.between_self (o : Orientation) : between o o = ⟨.deg0, none⟩ := by
  cases o <;> rfl

theorem orientPoint_self (hx : x < frame.width) (hy : y < frame.height) (o : Orientation) :
    orientPoint x y o o frame = .ok (x, y) := by
  rw [orientPoint_eq_ok, Reorientation.between_self]
  exact ⟨⟨hx, hy⟩, rfl⟩

/-- A pixel is carried along exactly when it lies inside of the frame. Then it lies inside of the
oriented frame, at the same place in the scene. Carried on, it comes where it would have come at
once, and back in the first orientation it is where it was. -/
theorem orientPoint_keeps_scene (source target : Orientation) (frame : Size) (x y : Nat) :
    ((∃ e, orientPoint x y source target frame = .error e) ↔
      ¬(x < frame.width ∧ y < frame.height)) ∧
    (∀ p, orientPoint x y source target frame = .ok p →
      (Reorientation.between source target).checkedPoint frame x y = some p ∧
      p ∈ (orientedSize frame source target).pixels ∧
      target.scenePoint (orientedSize frame source target) p.1 p.2 = source.scenePoint frame x y ∧
      orientPoint p.1 p.2 target source (orientedSize frame source target) = .ok (x, y)) ∧
    ∀ last, (orientPoint x y source target frame >>= fun p =>
        orientPoint p.1 p.2 target last (orientedSize frame source target)) =
      orientPoint x y source last frame := by
  refine ⟨ite_ok_eq_error, fun p h => ?_, fun last => ?_⟩
  · have back := orientPoint_trans h source
    obtain ⟨⟨hx, hy⟩, rfl⟩ := orientPoint_eq_ok.1 h
    rw [orientPoint_self hx hy] at back
    exact ⟨Reorientation.checkedPoint_eq _ hx hy, Reorientation.point_mem hx hy,
      Reorientation.scenePoint_point hx hy, back⟩
  · by_cases inside : x < frame.width ∧ y < frame.height
    · have there : orientPoint x y source target frame = .ok _ :=
        orientPoint_eq_ok.2 ⟨inside, rfl⟩
      rw [there]
      exact orientPoint_trans there last
    · rw [orientPoint, orientPoint, if_neg inside, if_neg inside]
      rfl

/-- The end of the first row lies at the top and right of the scene, two columns wide, and stays
there. -/
theorem orientPoint_keeps_scene_corner :
    orientPoint 2 0 .rightBottom .topRight ⟨3, 2⟩ = .ok (0, 0) ∧
      Orientation.topRight.scenePoint ⟨2, 3⟩ 0 0 = Orientation.rightBottom.scenePoint ⟨3, 2⟩ 2 0 ∧
      Orientation.rightBottom.scenePoint ⟨3, 2⟩ 2 0 = (1, 0) := by
  have there : orientPoint 2 0 .rightBottom .topRight ⟨3, 2⟩ = .ok (0, 0) := rfl
  obtain ⟨-, -, place, -⟩ := (orientPoint_keeps_scene .rightBottom .topRight ⟨3, 2⟩ 2 0).2.1 _ there
  exact ⟨there, place, rfl⟩

end

end Raster
