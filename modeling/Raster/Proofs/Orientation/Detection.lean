import Raster.Detection
import Raster.Proofs.Orientation.Boxes

/-!
# Where detections end up

A model sees the upright picture, and its boxes belong back into the stored frame. The way
there is the change from the upright orientation to that of the frame; `detectionInFrame`
takes the change to the upright orientation a second time, and `boxForDisplay` takes the
change from it. For six orientations the two changes are one. For the two that differ from
the upright one by a quarter turn they differ by a half turn.

* `Orientation.isQuarterTurn` — the two orientations.
* `Box.Centred` — the boxes that a half turn leaves in place.
* `NormalizedBox.edges` — the four numbers of a detection.

Results: `orientBox_back` (the change from the upright orientation leads back),
`upright_stored_apart` (the two changes are a half turn apart), `detection_boxes_return_iff`
(where both functions return what they are for) and `detections_shown_where_read` (one after the
other they lead back).
-/

namespace Raster

/-- A quarter turn leads from the stored frame to the upright picture, with no flip. -/
def Orientation.isQuarterTurn : Orientation → Bool
  | rightTop | leftBottom => true
  | _ => false

/-- The box lies in the middle of the frame. -/
def Box.Centred (b : Box) (frame : Size) : Prop :=
  frame.width = 2 * b.x + b.width ∧ frame.height = 2 * b.y + b.height

/-- A box that is half a turn away for the orientations of a quarter turn. -/
def Orientation.halfTurned (o : Orientation) (frame : Size) (b : Box) : Box :=
  if o.isQuarterTurn then Rotation.deg180.box frame b else b

variable {b upright : Box} {frame : Size}

/-! ## Boxes inside of a frame -/

/-- A half turn leaves the boxes in the middle in place, and no other. -/
theorem halfTurn_eq_iff (inside : frame.containsBox b = true) :
    Rotation.deg180.box frame b = b ↔ b.Centred frame := by
  obtain ⟨right, bottom⟩ := Size.containsBox_iff.1 inside
  obtain ⟨x, y, width, height⟩ := b
  simp only [Box.right, Box.bottom] at right bottom
  simp only [Rotation.box, Box.Centred, Box.mk.injEq, and_true]
  omega

theorem halfTurned_eq_iff (o : Orientation) (inside : frame.containsBox b = true) :
    o.halfTurned frame b = b ↔ o.isQuarterTurn = false ∨ b.Centred frame := by
  unfold Orientation.halfTurned
  by_cases quarter : o.isQuarterTurn = true
  · rw [if_pos quarter, halfTurn_eq_iff inside, quarter]
    simp
  · rw [if_neg quarter]
    simp [quarter]

/-! ## The upright picture -/

/-- The change to the upright orientation, one by one. -/
theorem between_upright (o : Orientation) : Reorientation.between o .topLeft =
    match o with
    | .topLeft => ⟨.deg0, none⟩
    | .topRight => ⟨.deg0, some .horizontal⟩
    | .bottomRight => ⟨.deg180, none⟩
    | .bottomLeft => ⟨.deg180, some .horizontal⟩
    | .leftTop => ⟨.deg270, some .horizontal⟩
    | .rightTop => ⟨.deg270, none⟩
    | .rightBottom => ⟨.deg90, some .horizontal⟩
    | .leftBottom => ⟨.deg90, none⟩ := by
  cases o <;> rfl

/-- The change from the upright orientation, one by one. -/
theorem between_stored (o : Orientation) : Reorientation.between .topLeft o =
    match o with
    | .topLeft => ⟨.deg0, none⟩
    | .topRight => ⟨.deg0, some .horizontal⟩
    | .bottomRight => ⟨.deg180, none⟩
    | .bottomLeft => ⟨.deg180, some .horizontal⟩
    | .leftTop => ⟨.deg90, some .vertical⟩
    | .rightTop => ⟨.deg90, none⟩
    | .rightBottom => ⟨.deg270, some .vertical⟩
    | .leftBottom => ⟨.deg270, none⟩ := by
  cases o <;> rfl

/-- A box turned upright and turned back by the change from the upright orientation. -/
theorem orientBox_back {o : Orientation} (h : orientBox b o .topLeft frame = .ok upright) :
    orientBox upright .topLeft o (uprightSize frame o) = .ok b :=
  (orientBox_trans h o).trans (orientBox_self (orientBox_eq_ok.1 h).1 o)

theorem uprightSize_twice (frame : Size) (o : Orientation) :
    uprightSize (uprightSize frame o) o = frame := by
  cases o <;> rfl

/-- The change to the upright orientation and the change from it take a box to the same place,
or half a turn apart. -/
theorem upright_stored_apart (o : Orientation) (inside : frame.containsBox b = true) :
    (Reorientation.between o .topLeft).box frame b =
      o.halfTurned (uprightSize frame o) ((Reorientation.between .topLeft o).box frame b) ∧
    (Reorientation.between .topLeft o).box frame b =
      o.halfTurned (uprightSize frame o) ((Reorientation.between o .topLeft).box frame b) := by
  obtain ⟨right, bottom⟩ := Size.containsBox_iff.1 inside
  obtain ⟨x, y, width, height⟩ := b
  simp only [Box.right, Box.bottom] at right bottom
  rw [uprightSize, orientedSize, between_upright, between_stored]
  cases o <;>
    simp only [Reorientation.box, Reorientation.size, Rotation.box, Rotation.size,
      Rotation.swapsSides, FlipAxis.box, Size.swapped, Box.mk.injEq, Orientation.halfTurned,
      Orientation.isQuarterTurn, Bool.false_eq_true, ite_true, ite_false, and_true, true_and] <;>
    omega

/-- Turned upright a second time, a box comes back or lies half a turn away. -/
theorem upright_twice {o : Orientation} (h : orientBox b o .topLeft frame = .ok upright) :
    orientBox upright o .topLeft (uprightSize frame o) = .ok (o.halfTurned frame b) := by
  obtain ⟨inside, back⟩ := orientBox_eq_ok.1 (orientBox_back h)
  rw [orientBox_eq_ok, (upright_stored_apart o inside).1, uprightSize_twice, back]
  exact ⟨inside, rfl⟩

/-- The change from the upright orientation takes a stored box where it belongs in the upright
picture, or half a turn away. -/
theorem display_eq {o : Orientation} (h : orientBox b o .topLeft frame = .ok upright) :
    orientBox b .topLeft o frame = .ok (o.halfTurned (uprightSize frame o) upright) := by
  obtain ⟨inside, turned⟩ := orientBox_eq_ok.1 h
  rw [orientBox_eq_ok, (upright_stored_apart o inside).2, turned]
  exact ⟨inside, rfl⟩

/-! ## Both functions -/

/-- A quarter turn keeps the boxes in the middle in the middle. -/
theorem upright_centred_iff {o : Orientation} (quarter : o.isQuarterTurn = true)
    (h : orientBox b o .topLeft frame = .ok upright) :
    upright.Centred (uprightSize frame o) ↔ b.Centred frame := by
  obtain ⟨inside, rfl⟩ := orientBox_eq_ok.1 h
  obtain ⟨right, bottom⟩ := Size.containsBox_iff.1 inside
  obtain ⟨x, y, width, height⟩ := b
  simp only [Box.right, Box.bottom] at right bottom
  rw [uprightSize, orientedSize, between_upright]
  cases o <;>
    simp only [Orientation.isQuarterTurn, Bool.false_eq_true, Reorientation.box,
      Reorientation.size, Rotation.box, Rotation.size, Rotation.swapsSides, ite_true,
      Size.swapped, Box.Centred] at quarter ⊢ <;>
    omega

/-- Where the box of a stored frame is `upright` in the upright picture, each detection that
reads `upright` is carried back to the box, and the box is shown at `upright`, unless the frame
is stored a quarter turn away: then both results lie half a turn away in their frames, and
they are right for the boxes in the middle and for no other. -/
theorem detection_boxes_return_iff {o : Orientation}
    (h : orientBox b o .topLeft frame = .ok upright) :
    (∀ n : NormalizedBox, n.isValid = true → n.pixels (uprightSize frame o) = upright →
      detectionInFrame n o frame = .ok (o.halfTurned frame b) ∧
      (detectionInFrame n o frame = .ok b ↔ o.isQuarterTurn = false ∨ b.Centred frame)) ∧
    boxForDisplay b o frame = .ok (o.halfTurned (uprightSize frame o) upright) ∧
    (boxForDisplay b o frame = .ok upright ↔ o.isQuarterTurn = false ∨ b.Centred frame) := by
  have inside := (orientBox_eq_ok.1 h).1
  have inside_upright := (orientBox_eq_ok.1 (orientBox_back h)).1
  have shown : boxForDisplay b o frame = .ok (o.halfTurned (uprightSize frame o) upright) :=
    display_eq h
  refine ⟨fun n valid pixels => ?_, shown, ?_⟩
  · have found : detectionInFrame n o frame = .ok (o.halfTurned frame b) := by
      rw [detectionInFrame, NormalizedBox.denormalize, if_pos valid, pixels]
      exact upright_twice h
    refine ⟨found, ?_⟩
    rw [found, Except.ok.injEq, halfTurned_eq_iff o inside]
  · rw [shown, Except.ok.injEq, halfTurned_eq_iff o inside_upright]
    by_cases quarter : o.isQuarterTurn = true
    · rw [upright_centred_iff quarter h]
    · simp [quarter]

/-- The right half of the first row, in a picture of four rows. -/
def NormalizedBox.corner : NormalizedBox :=
  ⟨.ofBits 0x3f000000, .ofBits 0, .ofBits 0x3f800000, .ofBits 0x3e800000⟩

theorem NormalizedBox.corner_isValid : corner.isValid = true := by decide

theorem NormalizedBox.corner_pixels :
    corner.pixels (uprightSize ⟨4, 2⟩ .rightTop) = ⟨1, 0, 1, 1⟩ := by decide

/-- The first pixel of a frame of four by two pixels, stored a quarter turn away, comes back in
the opposite corner from both functions. -/
theorem detection_boxes_return_first :
    orientBox ⟨0, 0, 1, 1⟩ .rightTop .topLeft ⟨4, 2⟩ = .ok ⟨1, 0, 1, 1⟩ ∧
    NormalizedBox.corner.isValid = true ∧
    NormalizedBox.corner.pixels (uprightSize ⟨4, 2⟩ .rightTop) = ⟨1, 0, 1, 1⟩ ∧
    detectionInFrame .corner .rightTop ⟨4, 2⟩ = .ok ⟨3, 1, 1, 1⟩ ∧
    boxForDisplay ⟨0, 0, 1, 1⟩ .rightTop ⟨4, 2⟩ = .ok ⟨0, 3, 1, 1⟩ := by
  have turned : orientBox ⟨0, 0, 1, 1⟩ .rightTop .topLeft ⟨4, 2⟩ = .ok ⟨1, 0, 1, 1⟩ := rfl
  have valid := NormalizedBox.corner_isValid
  have pixels := NormalizedBox.corner_pixels
  obtain ⟨found, shown, -⟩ := detection_boxes_return_iff turned
  exact ⟨turned, valid, pixels, (found _ valid pixels).1, shown⟩

/-- Its detection in the upright picture does not lead back to the first pixel of the frame,
and the pixel is not shown where it lies in the upright picture. -/
theorem first_pixel_lost :
    orientBox ⟨0, 0, 1, 1⟩ .rightTop .topLeft ⟨4, 2⟩ = .ok ⟨1, 0, 1, 1⟩ ∧
    NormalizedBox.corner.isValid = true ∧
    NormalizedBox.corner.pixels (uprightSize ⟨4, 2⟩ .rightTop) = ⟨1, 0, 1, 1⟩ ∧
    detectionInFrame .corner .rightTop ⟨4, 2⟩ ≠ .ok ⟨0, 0, 1, 1⟩ ∧
    boxForDisplay ⟨0, 0, 1, 1⟩ .rightTop ⟨4, 2⟩ ≠ .ok ⟨1, 0, 1, 1⟩ := by
  have found : detectionInFrame .corner .rightTop ⟨4, 2⟩ = .ok ⟨3, 1, 1, 1⟩ := by
    rw [detectionInFrame, NormalizedBox.denormalize, if_pos NormalizedBox.corner_isValid,
      NormalizedBox.corner_pixels]
    rfl
  have shown : boxForDisplay ⟨0, 0, 1, 1⟩ .rightTop ⟨4, 2⟩ = .ok ⟨0, 3, 1, 1⟩ := rfl
  rw [found, shown]
  refine ⟨rfl, NormalizedBox.corner_isValid, NormalizedBox.corner_pixels, ?_, ?_⟩
  · intro h
    cases h
  · intro h
    cases h

/-! ## One function after the other -/

/-- A finite number is negative or no less than zero. -/
theorem lt_zero_iff_of_isFinite {v : Float32} (finite : v.isFinite = true) : v < 0 ↔ ¬0 ≤ v := by
  have finite : v.toModel.unpack.isFinite = true := finite
  have zero : (0 : Float32).toModel.unpack = .zero .positive := rfl
  have below : v < 0 ↔ v.toModel.unpack.lt (.zero .positive) = true := by
    rw [← zero]
    exact decide_eq_true_iff
  have above : 0 ≤ v ↔ Float.Model.UnpackedFloat.le (.zero .positive) v.toModel.unpack = true := by
    rw [← zero]
    exact decide_eq_true_iff
  rw [below, above]
  generalize v.toModel.unpack = u at finite ⊢
  cases u with
  | notANumber => cases finite
  | infinity sign => cases finite
  | zero sign => exact ⟨nofun, fun h => absurd rfl h⟩
  | finite sign mantissa exponent positive =>
    cases sign with
    | positive => exact ⟨nofun, fun h => absurd rfl h⟩
    | negative => exact ⟨fun _ => nofun, fun _ => rfl⟩

namespace NormalizedBox

/-- The left, top, right and bottom edge. -/
def edges (n : NormalizedBox) : List Float32 := [n.left, n.top, n.right, n.bottom]

/-- A box is no valid one if an edge is infinite, NaN or negative. -/
theorem not_isValid_iff (n : NormalizedBox) :
    ¬n.isValid = true ↔ ∃ v ∈ n.edges, v.isFinite = false ∨ v < 0 := by
  have valid : n.isValid = n.edges.all fun v => v.isFinite && decide (v ≥ 0) := rfl
  rw [valid, List.all_eq_true]
  push Not
  refine exists_congr fun v => and_congr_right fun _ => ?_
  by_cases finite : v.isFinite = true
  · rw [lt_zero_iff_of_isFinite finite]
    simp [finite]
  · simp [finite]

end NormalizedBox

theorem detectionInFrame_eq_ok {n : NormalizedBox} {o : Orientation} :
    detectionInFrame n o frame = .ok b ↔ n.isValid = true ∧
      orientBox (n.pixels (uprightSize frame o)) o .topLeft (uprightSize frame o) = .ok b := by
  unfold detectionInFrame NormalizedBox.denormalize
  by_cases valid : n.isValid = true
  · rw [if_pos valid]
    exact (and_iff_right valid).symm
  · rw [if_neg valid]
    exact ⟨nofun, fun h => absurd h.1 valid⟩

theorem detectionInFrame_eq_error {n : NormalizedBox} {o : Orientation} :
    (∃ e, detectionInFrame n o frame = .error e) ↔ ¬n.isValid = true ∨
      ¬(uprightSize frame o).containsBox (n.pixels (uprightSize frame o)) = true := by
  unfold detectionInFrame NormalizedBox.denormalize
  by_cases valid : n.isValid = true
  · rw [if_pos valid, or_iff_right (not_not_intro valid)]
    exact ite_ok_eq_error
  · rw [if_neg valid]
    exact ⟨fun _ => .inl valid, fun _ => ⟨_, rfl⟩⟩

/-- A detection has a box in the frame unless one of its edges is infinite, NaN or negative, or its
pixels reach out of the upright picture. The box lies inside of the frame, and it is shown at the
pixels that were detected, whichever way the frame is stored. -/
theorem detections_shown_where_read (n : NormalizedBox) (o : Orientation) (frame : Size) :
    ((∃ e, detectionInFrame n o frame = .error e) ↔
      (∃ v ∈ n.edges, v.isFinite = false ∨ v < 0) ∨
        ¬(uprightSize frame o).containsBox (n.pixels (uprightSize frame o)) = true) ∧
    ∀ b, detectionInFrame n o frame = .ok b → frame.containsBox b = true ∧
      boxForDisplay b o frame = .ok (n.pixels (uprightSize frame o)) := by
  constructor
  · rw [detectionInFrame_eq_error, n.not_isValid_iff]
  · intro b found
    -- the upright picture of the upright size is the stored frame again
    have back := orientBox_back (detectionInFrame_eq_ok.1 found).2
    rw [uprightSize_twice] at back
    exact ⟨(orientBox_eq_ok.1 back).1, back⟩

/-- A detection without pixels at the right edge, a quarter of the picture high. -/
def NormalizedBox.sliver : NormalizedBox :=
  ⟨.ofBits 0x3f800000, .ofBits 0, .ofBits 0x3f800000, .ofBits 0x3e800000⟩

/-- It comes back to the right edge. -/
theorem detections_shown_where_read_sliver :
    detectionInFrame .sliver .rightTop ⟨4, 2⟩ = .ok ⟨3, 2, 1, 0⟩ ∧
      Size.containsBox ⟨4, 2⟩ ⟨3, 2, 1, 0⟩ = true ∧
      boxForDisplay ⟨3, 2, 1, 0⟩ .rightTop ⟨4, 2⟩ = .ok ⟨2, 0, 0, 1⟩ := by
  have valid : NormalizedBox.sliver.isValid = true := by decide
  have pixels : NormalizedBox.sliver.pixels (uprightSize ⟨4, 2⟩ .rightTop) = ⟨2, 0, 0, 1⟩ := by
    decide
  have found : detectionInFrame .sliver .rightTop ⟨4, 2⟩ = .ok ⟨3, 2, 1, 0⟩ := by
    rw [detectionInFrame_eq_ok, pixels]
    exact ⟨valid, rfl⟩
  obtain ⟨inside, shown⟩ := (detections_shown_where_read .sliver .rightTop ⟨4, 2⟩).2 _ found
  rw [pixels] at shown
  exact ⟨found, inside, shown⟩

end Raster
