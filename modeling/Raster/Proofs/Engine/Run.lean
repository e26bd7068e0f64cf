import Raster.Engine.Software
import Raster.Proofs.Engine.Image

/-!
# One run of a primitive

A run either fails before it paints anything, or paints the whole image of the input
into the output.

* `Primitive.draw` — the canvas of the output and the image, or why there is none.

Results: `Primitive.run_eq` (a run is its drawing, painted), `Primitive.draw_eq_ok` (what a
drawing is made of) and `Primitive.run_of_image` (a run that has an image succeeds).
-/

namespace Raster

/-! ## Painting an image -/

theorem paintAll_strokes (c : Canvas) (image : Picture) :
    paintAll c.planes (c.components.strokes (.ok image)) = (.ok (), (c.paint image).planes) :=
  paintAll_map_ok _ _

/-- Every frame has a grid, so that a missing image is noticed. -/
theorem paintAll_strokes_error (c : Canvas) (e : Error) :
    paintAll c.planes (c.components.strokes (.error e)) = (.error e, c.planes) := by
  cases h : c.components <;> rfl

namespace Primitive

/-- What a primitive paints, and where. -/
def draw (p : Primitive) (input output : Frame) : Except Error (Canvas × Picture) := do
  p.check input output
  let source ← input.picture
  let target ← output.writable
  let image ← p.image source target.components.grids
  return (target, image)

variable {p : Primitive} {input output : Frame} {source image : Picture} {target : Canvas}

/-- An accepted request between frames that can be read and written is prepared by strokes
of its image. -/
theorem prepare_eq_ok (check : p.check input output = .ok ()) (hsource : input.picture = .ok source)
    (htarget : output.writable = .ok target) : p.prepare input output =
      .ok (target, target.components.strokes (p.image source target.components.grids)) := by
  have strokes := strokes_eq (check_eq_ok.1 check) (Frame.grids_picture hsource)
    (Frame.grids_canvas (Frame.writable_eq_ok.1 htarget).1)
  refine check_bind_eq_ok.2 ⟨check, bind_eq_ok.2 ⟨source, hsource, bind_eq_ok.2 ⟨target, htarget, ?_⟩⟩⟩
  rw [strokes]

/-- A run is its drawing, painted. -/
theorem run_eq (p : Primitive) (input output : Frame) : p.run input output =
    match p.draw input output with
    | .error e => .failed e output
    | .ok (canvas, image) => ⟨.ok (), output.painted canvas image⟩ := by
  unfold run draw
  cases check : p.check input output with
  | error e =>
    rw [prepare, check]
    rfl
  | ok u =>
    cases hsource : input.picture with
    | error e =>
      rw [prepare, check, hsource]
      rfl
    | ok source =>
      cases htarget : output.writable with
      | error e =>
        rw [prepare, check, hsource, htarget]
        rfl
      | ok target =>
        rw [prepare_eq_ok check hsource htarget]
        simp only
        cases himage : p.image source target.components.grids with
        | error e =>
          rw [paintAll_strokes_error]
          -- nothing is painted, and the planes are put back as they were
          rw [Frame.withParts_canvas (Frame.writable_eq_ok.1 htarget).1]
          show _ = match p.image source target.components.grids >>= _ with
            | .error e => Outcome.failed e output
            | .ok (canvas, image) => ⟨.ok (), output.painted canvas image⟩
          rw [himage]
          rfl
        | ok image =>
          rw [paintAll_strokes]
          show _ = match p.image source target.components.grids >>= _ with
            | .error e => Outcome.failed e output
            | .ok (canvas, image) => ⟨.ok (), output.painted canvas image⟩
          rw [himage]
          rfl

theorem draw_eq_ok : p.draw input output = .ok (target, image) ↔
    p.Accepts input.metadata output.metadata ∧ output.writable = .ok target ∧
      ∃ source, input.picture = .ok source ∧
        p.image source (output.format.grids output.size) = .ok image := by
  unfold draw
  rw [check_bind_eq_ok, check_eq_ok]
  refine and_congr_right fun _ => ?_
  constructor
  · intro h
    obtain ⟨source, hsource, h⟩ := bind_eq_ok.1 h
    obtain ⟨target', htarget, h⟩ := bind_eq_ok.1 h
    obtain ⟨image', himage, h⟩ := bind_eq_ok.1 h
    cases h
    rw [Frame.grids_canvas (Frame.writable_eq_ok.1 htarget).1] at himage
    exact ⟨htarget, source, hsource, himage⟩
  · rintro ⟨htarget, source, hsource, himage⟩
    rw [← Frame.grids_canvas (Frame.writable_eq_ok.1 htarget).1] at himage
    exact bind_eq_ok.2 ⟨source, hsource, bind_eq_ok.2 ⟨target, htarget,
      bind_eq_ok.2 ⟨image, himage, rfl⟩⟩⟩

/-- A run that has an image succeeds, and the output is painted with it. -/
theorem run_of_image (accepts : p.Accepts input.metadata output.metadata)
    (hsource : input.picture = .ok source) (htarget : output.writable = .ok target)
    (himage : p.image source (output.format.grids output.size) = .ok image) :
    p.run input output = ⟨.ok (), output.painted target image⟩ := by
  rw [run_eq, draw_eq_ok.2 ⟨accepts, htarget, source, hsource, himage⟩]

/-- Input that cannot be read has no drawing, whatever the primitive would make of it. -/
theorem draw_unreadable (p : Primitive) {e : Error} (h : input.picture = .error e) :
    p.draw input output = p.check input output >>= fun _ => .error e := by
  rw [draw, h]
  rfl

/-- It fails once the precondition has passed. -/
theorem status_run_unreadable (p : Primitive) {e : Error} (h : input.picture = .error e) :
    (p.run input output).status = p.check input output >>= fun _ => .error e := by
  rw [run_eq, draw_unreadable p h]
  cases p.check input output <;> rfl

end Primitive

end Raster
