import Raster.Proofs.Orientation.Scene
import Raster.Proofs.Samples.Cutting

/-!
# Boxes under a change of orientation

The edges of a box lie between pixels: a grid has one corner of pixels more on each side than it
has pixels, and a box is given by two of these corners, opposite to each other. A rotation or a
mirror image takes the corners of a box to those of its result, by the map that it has for the
pixels of a grid that is larger by one. So what holds of pixels holds of boxes, those without a
pixel included.

* `Size.corners` — the grid of the corners of pixels.
* `Box.spanned` — the box between two opposite corners.
* `Reorientation.checkedBox` — a change of orientation in numbers of 32 bits.

Results: `Reorientation.box_spanned` (boxes move as their corners do), `orientBox_covers_iff` (a
box is carried where its pixels are) and `orientBox_moves_corners` (when a box is carried along,
and where to).
-/

namespace Raster

/-! ## Corners -/

/-- The corners of pixels: one more than there are pixels on each side. -/
def Size.corners (s : Size) : Size := ⟨s.width + 1, s.height + 1⟩

/-- The box between two opposite corners. -/
def Box.spanned (p q : Nat × Nat) : Box :=
  ⟨min p.1 q.1, min p.2 q.2, max p.1 q.1 - min p.1 q.1, max p.2 q.2 - min p.2 q.2⟩

theorem Box.spanned_edges (b : Box) : spanned (b.x, b.y) (b.right, b.bottom) = b := by
  obtain ⟨x, y, width, height⟩ := b
  simp only [spanned, right, bottom, mk.injEq]
  omega

variable {s : Size} {b : Box} {p q : Nat × Nat}

theorem Size.corners_of_containsBox (inside : s.containsBox b = true) :
    (b.x, b.y) ∈ s.corners.pixels ∧ (b.right, b.bottom) ∈ s.corners.pixels := by
  obtain ⟨right, bottom⟩ := containsBox_iff.1 inside
  have left : b.x ≤ b.right := Nat.le_add_right _ _
  have top : b.y ≤ b.bottom := Nat.le_add_right _ _
  exact ⟨⟨Nat.lt_succ_of_le (left.trans right), Nat.lt_succ_of_le (top.trans bottom)⟩,
    ⟨Nat.lt_succ_of_le right, Nat.lt_succ_of_le bottom⟩⟩

theorem Size.mem_corners : p ∈ s.corners.pixels ↔ p.1 ≤ s.width ∧ p.2 ≤ s.height :=
  and_congr Nat.lt_succ_iff Nat.lt_succ_iff

/-! ## Motions of corners -/

/-- The stretch between two corners of a row, seen from the other end of the row. -/
theorem spanned_reversed {n i j : Nat} (hi : i ≤ n) (hj : j ≤ n) :
    n - (min i j + (max i j - min i j)) = min (n + 1 - i - 1) (n + 1 - j - 1) ∧
      max i j - min i j =
        max (n + 1 - i - 1) (n + 1 - j - 1) - min (n + 1 - i - 1) (n + 1 - j - 1) := by
  rcases Nat.le_total i j with order | order
  · rw [Nat.min_eq_left order, Nat.max_eq_right order, Nat.min_eq_right (by omega),
      Nat.max_eq_left (by omega)]
    omega
  · rw [Nat.min_eq_right order, Nat.max_eq_left order, Nat.min_eq_left (by omega),
      Nat.max_eq_right (by omega)]
    omega

theorem Rotation.box_spanned (r : Rotation) (hp : p ∈ s.corners.pixels) (hq : q ∈ s.corners.pixels) :
    r.box s (.spanned p q) =
      .spanned (r.point s.corners p.1 p.2) (r.point s.corners q.1 q.2) := by
  obtain ⟨px, py⟩ := Size.mem_corners.1 hp
  obtain ⟨qx, qy⟩ := Size.mem_corners.1 hq
  obtain ⟨right, width⟩ := spanned_reversed px qx
  obtain ⟨bottom, height⟩ := spanned_reversed py qy
  cases r with
  | deg0 => rfl
  | deg90 => exact (Box.mk.injEq ..).mpr ⟨rfl, right, rfl, width⟩
  | deg180 => exact (Box.mk.injEq ..).mpr ⟨right, bottom, width, height⟩
  | deg270 => exact (Box.mk.injEq ..).mpr ⟨bottom, rfl, height, rfl⟩

theorem FlipAxis.box_spanned (axis : FlipAxis) (hp : p ∈ s.corners.pixels)
    (hq : q ∈ s.corners.pixels) :
    axis.box s (.spanned p q) = .spanned (axis.point s.corners p) (axis.point s.corners q) := by
  obtain ⟨px, py⟩ := Size.mem_corners.1 hp
  obtain ⟨qx, qy⟩ := Size.mem_corners.1 hq
  obtain ⟨right, width⟩ := spanned_reversed px qx
  obtain ⟨bottom, height⟩ := spanned_reversed py qy
  cases axis with
  | horizontal => exact (Box.mk.injEq ..).mpr ⟨right, rfl, width, rfl⟩
  | vertical => exact (Box.mk.injEq ..).mpr ⟨rfl, bottom, rfl, height⟩

theorem Rotation.size_corners (r : Rotation) (s : Size) : r.size s.corners = (r.size s).corners := by
  cases r <;> rfl

namespace Reorientation

theorem size_corners (change : Reorientation) (s : Size) :
    change.size s.corners = (change.size s).corners := change.rotation.size_corners s

/-- A change of orientation takes the box between two corners to the box between the places of
these corners. -/
theorem box_spanned (change : Reorientation) (hp : p ∈ s.corners.pixels)
    (hq : q ∈ s.corners.pixels) :
    change.box s (.spanned p q) =
      .spanned (change.point s.corners p.1 p.2) (change.point s.corners q.1 q.2) := by
  obtain ⟨rotation, flip⟩ := change
  have turned := rotation.box_spanned hp hq
  cases flip with
  | none => exact turned
  | some axis =>
    have place {p : Nat × Nat} (hp : p ∈ s.corners.pixels) :
        rotation.point s.corners p.1 p.2 ∈ (rotation.size s).corners.pixels := by
      rw [← rotation.size_corners]
      exact Rotation.point_mem hp.1 hp.2
    show axis.box (rotation.size s) (rotation.box s _) =
      .spanned (axis.point (rotation.size s.corners) _) (axis.point (rotation.size s.corners) _)
    rw [turned, rotation.size_corners]
    exact axis.box_spanned (place hp) (place hq)

theorem containsBox_box {source target : Orientation} (inside : s.containsBox b = true) :
    (orientedSize s source target).containsBox ((between source target).box s b) = true := by
  have lands := (Motion.takesBox_ofChange (between source target) inside).lands
  rwa [Motion.size_ofChange] at lands

/-- One change of orientation after the other takes a box where the corners are taken. -/
theorem box_trans (first second third : Orientation) (inside : s.containsBox b = true) :
    (between second third).box (orientedSize s first second) ((between first second).box s b) =
      (between first third).box s b := by
  obtain ⟨hp, hq⟩ := Size.corners_of_containsBox inside
  have sizes : orientedSize s.corners first second = (orientedSize s first second).corners :=
    size_corners _ s
  have place {p : Nat × Nat} (hp : p ∈ s.corners.pixels) :
      (between first second).point s.corners p.1 p.2 ∈
        (orientedSize s first second).corners.pixels := by
    rw [← sizes]
    exact point_mem hp.1 hp.2
  rw [← b.spanned_edges, box_spanned _ hp hq, box_spanned _ (place hp) (place hq),
    box_spanned _ hp hq, ← sizes, point_trans first second third hp.1 hp.2,
    point_trans first second third hq.1 hq.2]

end Reorientation

/-! ## Sums and differences of 32 bits -/

/-- A sum, if it fits into 32 bits. -/
def plus32? (a b : Nat) : Option Nat := if a + b < UInt32.size then some (a + b) else none

/-- What is left of a length after a stretch of it, if no number on the way is out of range. -/
def beyond? (length start extent : Nat) : Option Nat := do minus? length (← plus32? start extent)

theorem beyond?_eq {length start extent : Nat} (inside : start + extent ≤ length)
    (range : length < UInt32.size) : beyond? length start extent = some (length - (start + extent)) := by
  have sum : plus32? start extent = some (start + extent) := if_pos (by omega)
  rw [beyond?, sum]
  exact if_pos inside

/-- Where a rotation takes a box, if no number on the way is out of range. -/
def Rotation.checkedBox (r : Rotation) (s : Size) (b : Box) : Option Box :=
  match r with
  | deg0 => some b
  | deg90 => do return ⟨b.y, ← beyond? s.width b.x b.width, b.height, b.width⟩
  | deg180 => do
    return ⟨← beyond? s.width b.x b.width, ← beyond? s.height b.y b.height, b.width, b.height⟩
  | deg270 => do return ⟨← beyond? s.height b.y b.height, b.x, b.height, b.width⟩

/-- Where a flip takes a box, if no number on the way is out of range. -/
def FlipAxis.checkedBox (axis : FlipAxis) (s : Size) (b : Box) : Option Box :=
  match axis with
  | horizontal => do return { b with x := ← beyond? s.width b.x b.width }
  | vertical => do return { b with y := ← beyond? s.height b.y b.height }

/-- Where a change of orientation takes a box, if no number on the way is out of range. -/
def Reorientation.checkedBox (change : Reorientation) (s : Size) (b : Box) : Option Box := do
  let rotated ← change.rotation.checkedBox s b
  match change.flip with
  | none => some rotated
  | some axis => axis.checkedBox (change.size s) rotated

theorem Rotation.checkedBox_eq (r : Rotation) (range : s.InRange) (inside : s.containsBox b = true) :
    r.checkedBox s b = some (r.box s b) := by
  obtain ⟨right, bottom⟩ := Size.containsBox_iff.1 inside
  have horizontal := beyond?_eq right range.1
  have vertical := beyond?_eq bottom range.2
  cases r <;> simp only [checkedBox, box, horizontal, vertical] <;> rfl

theorem FlipAxis.checkedBox_eq (axis : FlipAxis) (range : s.InRange)
    (inside : s.containsBox b = true) : axis.checkedBox s b = some (axis.box s b) := by
  obtain ⟨right, bottom⟩ := Size.containsBox_iff.1 inside
  have horizontal := beyond?_eq right range.1
  have vertical := beyond?_eq bottom range.2
  cases axis <;> simp only [checkedBox, box, horizontal, vertical] <;> rfl

/-- For a box inside of the grid none is. -/
theorem Reorientation.checkedBox_eq (change : Reorientation) (range : s.InRange)
    (inside : s.containsBox b = true) : change.checkedBox s b = some (change.box s b) := by
  obtain ⟨rotation, flip⟩ := change
  rw [checkedBox, rotation.checkedBox_eq range inside]
  cases flip with
  | none => rfl
  | some axis =>
    have turned_range : (rotation.size s).InRange := by
      cases rotation with
      | deg0 | deg180 => exact range
      | deg90 | deg270 => exact range.symm
    exact axis.checkedBox_eq turned_range (Motion.takesBox_turn rotation inside).lands

/-! ## Boxes that are carried along -/

section

variable {source target : Orientation} {frame : Size} {result : Box} {x y : Nat}

theorem orientBox_eq_ok : orientBox b source target frame = .ok result ↔
    frame.containsBox b = true ∧ (Reorientation.between source target).box frame b = result :=
  ite_ok_eq_ok

/-- A box is carried where the pixels inside of it are. -/
theorem orientBox_covers_iff (hb : orientBox b source target frame = .ok result)
    (hp : orientPoint x y source target frame = .ok p) :
    result.contains p.1 p.2 = true ↔ b.contains x y = true := by
  obtain ⟨inside, rfl⟩ := orientBox_eq_ok.1 hb
  obtain ⟨right, bottom⟩ := Size.containsBox_iff.1 inside
  obtain ⟨within, rfl⟩ := orientPoint_eq_ok.1 hp
  rw [Box.contains_iff, Box.contains_iff]
  generalize Reorientation.between source target = change
  obtain ⟨rotation, flip⟩ := change
  simp only [Box.right, Box.bottom] at right bottom ⊢
  rcases flip with _ | _ | _ <;> cases rotation <;>
    simp only [Reorientation.box, Reorientation.point, Reorientation.size, Rotation.box,
      Rotation.point, Rotation.size, Rotation.swapsSides, FlipAxis.box, FlipAxis.point,
      Size.swapped, Bool.false_eq_true, ite_true, ite_false] <;>
    omega

/-- A box that is carried on. -/
theorem orientBox_trans (h : orientBox b source target frame = .ok result) (last : Orientation) :
    orientBox result target last (orientedSize frame source target) =
      orientBox b source last frame := by
  obtain ⟨inside, rfl⟩ := orientBox_eq_ok.1 h
  rw [orientBox_eq_ok.2 ⟨inside, rfl⟩, orientBox_eq_ok]
  exact ⟨Reorientation.containsBox_box inside, Reorientation.box_trans source target last inside⟩

theorem orientBox_self (inside : frame.containsBox b = true) (o : Orientation) :
    orientBox b o o frame = .ok b := by
  rw [orientBox_eq_ok, Reorientation.between_self]
  exact ⟨inside, rfl⟩

/-- A box is carried along exactly when it lies inside of the frame, with or without pixels. Then
no number on the way is out of range, and the result lies inside of the oriented frame, around the
pixels that the box is around. Carried on, it comes where it would have come at once, and back in
the first orientation it is the box it was. -/
theorem orientBox_moves_corners (b : Box) (source target : Orientation) {frame : Size}
    (range : frame.InRange) :
    ((∃ e, orientBox b source target frame = .error e) ↔ ¬frame.containsBox b = true) ∧
    (∀ result, orientBox b source target frame = .ok result →
      (Reorientation.between source target).checkedBox frame b = some result ∧
      (orientedSize frame source target).containsBox result = true ∧
      (∀ x y p, orientPoint x y source target frame = .ok p →
        (result.contains p.1 p.2 = true ↔ b.contains x y = true)) ∧
      orientBox result target source (orientedSize frame source target) = .ok b) ∧
    ∀ last, (orientBox b source target frame >>= fun result =>
        orientBox result target last (orientedSize frame source target)) =
      orientBox b source last frame := by
  refine ⟨ite_ok_eq_error, fun result h => ?_, fun last => ?_⟩
  · have back := orientBox_trans h source
    have covers {x y : Nat} {p : Nat × Nat} (hp : orientPoint x y source target frame = .ok p) :=
      orientBox_covers_iff h hp
    obtain ⟨inside, rfl⟩ := orientBox_eq_ok.1 h
    rw [orientBox_self inside] at back
    exact ⟨Reorientation.checkedBox_eq _ range inside, Reorientation.containsBox_box inside,
      fun x y p hp => covers hp, back⟩
  · by_cases inside : frame.containsBox b = true
    · have there : orientBox b source target frame = .ok _ := orientBox_eq_ok.2 ⟨inside, rfl⟩
      rw [there]
      exact orientBox_trans there last
    · rw [orientBox, orientBox, if_neg inside, if_neg inside]
      rfl

/-- A box without pixels at the far edge of a frame is carried to the near edge and back. -/
theorem orientBox_moves_corners_edge :
    Size.InRange ⟨4, 2⟩ ∧ orientBox ⟨4, 1, 0, 1⟩ .topLeft .rightTop ⟨4, 2⟩ = .ok ⟨1, 0, 1, 0⟩ ∧
      orientBox ⟨1, 0, 1, 0⟩ .rightTop .topLeft ⟨2, 4⟩ = .ok ⟨4, 1, 0, 1⟩ := by
  have range : Size.InRange ⟨4, 2⟩ := ⟨by decide, by decide⟩
  have there : orientBox ⟨4, 1, 0, 1⟩ .topLeft .rightTop ⟨4, 2⟩ = .ok ⟨1, 0, 1, 0⟩ := rfl
  obtain ⟨-, -, -, back⟩ :=
    (orientBox_moves_corners ⟨4, 1, 0, 1⟩ .topLeft .rightTop range).2.1 _ there
  exact ⟨range, there, back⟩

end

end Raster
