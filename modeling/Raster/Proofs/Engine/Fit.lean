import Raster.Proofs.Engine.Transform
import Raster.Proofs.Frame.Region

/-!
# Proportional crops

A proportional crop paints the top-left corner of its output. It changes no byte but those of the
corner, and where the fitted picture fills the whole output it is an ordinary crop.

* `Operation.Fills` — the operation leaves nothing of its output as it was.

Results: `Engine.cropUniformly_eq_ok` (what a proportional crop makes of its output),
`Engine.cropUniformly_keeps` (what it leaves as it was) and `Engine.perform_overwrites_of_fills`
(what an output held before does not show through an operation that fills it).
-/

namespace Raster

/-- The operation leaves nothing of an output of this size as it was: only the fitted picture of
a proportional crop may be smaller. -/
def Operation.Fills (op : Operation) (size : Size) : Prop :=
  ∀ crop scaled, op = .uniformCropResize crop scaled → uniformFit crop.size size = size

theorem Operation.fills_or_uniform (op : Operation) :
    (∀ size, op.Fills size) ∨ ∃ crop scaled, op = .uniformCropResize crop scaled := by
  cases op with
  | uniformCropResize crop scaled => exact .inr ⟨crop, scaled, rfl⟩
  | cropResize crop scaled => exact .inl fun _ _ _ h => by cases h
  | convert format => exact .inl fun _ _ _ h => by cases h
  | orient orientation => exact .inl fun _ _ _ h => by cases h

/-! ## Painted regions -/

namespace Frame

variable {f region : Frame} {corner : Canvas} {size : Size}

/-- The canvas of a region lies on the expanded planes of the frame. -/
theorem canvas_topLeft (h : f.topLeft size = .ok region) (hc : region.writable = .ok corner) :
    corner = .ofPlanes region.planes size f.format := by
  obtain ⟨-, metadata⟩ := fitsInto_of_topLeft h
  obtain ⟨region_size, -, region_format⟩ := Metadata.mk.inj metadata
  obtain ⟨planes, expanded, -, rfl⟩ := canvas_eq_ok.1 (writable_eq_ok.1 hc).1
  rw [expandedPlanes_of_separate (isContiguousYuv_topLeft h)] at expanded
  obtain rfl := Except.ok.inj expanded
  rw [region_size, region_format]

/-- A painted region, put back into its frame. -/
theorem withRegion_painted (h : f.topLeft size = .ok region) (hc : region.writable = .ok corner)
    (p : Picture) :
    f.withRegion (region.painted corner p) =
      f.withParts ((corner.paint p).planes.map (·.bytes)) := by
  have room := Canvas.room_paint (writable_eq_ok.1 hc).2 p
  have planes : corner.planes = region.planes := by
    rw [canvas_topLeft h hc]
    rfl
  have painted : (region.painted corner p).planes = (corner.paint p).planes := by
    rw [Frame.painted, withParts, isContiguousYuv_topLeft h]
    exact planes_withBuffers (by rw [room, planes]) rfl
  rw [withRegion, buffers, painted]

end Frame

/-! ## What is painted -/

namespace Engine

variable {crop : Box} {input output : Frame}

/-- A proportional crop always finds room in a frame that is not empty. -/
theorem uniformFit_fitsInto (crop : Size) {frame : Size} (nonempty : frame.isEmpty = false) :
    (uniformFit crop frame).FitsInto frame := by
  obtain ⟨width, height⟩ := Size.isEmpty_eq_false.1 nonempty
  exact ⟨Size.isEmpty_eq_false.2 ⟨one_le_fitSide _ _ _, one_le_fitSide _ _ _⟩,
    fitSide_le _ _ width, fitSide_le _ _ height⟩

/-- A crop that succeeds has painted its whole output. -/
theorem cropBox_eq_ok (done : (software.cropBox crop input output : Outcome).status = .ok ()) :
    ∃ canvas image, output.writable = .ok canvas ∧
      image.grids = output.format.grids output.size ∧
        (software.cropBox crop input output : Outcome).frame = output.painted canvas image := by
  unfold cropBox at done ⊢
  cases hp : crop.toCrop with
  | error e =>
    rw [hp] at done
    cases done
  | ok p =>
    rw [hp] at done
    have done : (p.run input output).status = .ok () := done
    show ∃ canvas image, _ ∧ _ ∧ (p.run input output).frame = _
    rw [Primitive.run_eq] at done ⊢
    cases drawn : p.draw input output with
    | error e =>
      rw [drawn] at done
      cases done
    | ok drawing =>
      obtain ⟨accepts, writable, source, shown, himage⟩ := Primitive.draw_eq_ok.1 drawn
      exact ⟨_, _, writable, Primitive.grids_image accepts (Frame.grids_picture shown) himage, rfl⟩

/-- A proportional crop that succeeds has painted the top-left corner of its output. -/
theorem cropUniformly_eq_ok
    (done : (software.cropUniformly crop input output : Outcome).status = .ok ()) :
    ∃ region corner image, output.topLeft (uniformFit crop.size output.size) = .ok region ∧
      region.writable = .ok corner ∧ image.grids = region.format.grids region.size ∧
        (software.cropUniformly crop input output : Outcome).frame =
          output.withParts ((corner.paint image).planes.map (·.bytes)) := by
  unfold cropUniformly at done ⊢
  cases hregion : output.topLeft (uniformFit crop.size output.size) with
  | error e =>
    rw [hregion] at done
    cases done
  | ok region =>
    rw [hregion] at done
    have done : (software.cropBox crop input region : Outcome).status = .ok () := done
    obtain ⟨corner, image, hcorner, grids, painted⟩ := cropBox_eq_ok done
    refine ⟨region, corner, image, rfl, hcorner, grids, ?_⟩
    show output.withRegion (software.cropBox crop input region : Outcome).frame = _
    rw [painted, Frame.withRegion_painted hregion hcorner]

/-- A proportional crop keeps every byte that belongs to no sample of the fitted picture, and it
keeps the room of all planes. -/
theorem cropUniformly_keeps
    (done : (software.cropUniformly crop input output : Outcome).status = .ok ()) :
    ∃ planes planes', output.expandedPlanes = .ok planes ∧
      (software.cropUniformly crop input output : Outcome).frame.expandedPlanes = .ok planes' ∧
        planes'.map Plane.room = planes.map Plane.room ∧
          ∀ k i, (∀ place ∈ (Canvas.ofPlanes planes (uniformFit crop.size output.size)
              output.format).components.list, place.plane = k → ∀ x y c, x < place.extent.width →
                y < place.extent.height → c < place.extent.channels →
                  place.offset + place.shape.address x y c ≠ i) →
            (planes'.getD k default).bytes.getD i 0 = (planes.getD k default).bytes.getD i 0 := by
  obtain ⟨region, corner, image, hregion, hcorner, -, painted⟩ := cropUniformly_eq_ok done
  have expanded := Frame.expandedPlanes_of_topLeft hregion
  have inside := (Frame.writable_eq_ok.1 hcorner).2
  obtain rfl := Frame.canvas_topLeft hregion hcorner
  have room := Canvas.room_paint inside image
  refine ⟨region.planes, _, expanded, ?_, room, fun k i apart => ?_⟩
  · rw [painted]
    exact Frame.expandedPlanes_withParts expanded room
  · refine getD_paintGrids_of_ne (inside.zip image) fun grid member => ?_
    exact apart grid.1 (List.of_mem_zip (a := grid.1) (b := grid.2) member).1

/-! ## Fitted pictures that fill their frame -/

/-- Where the fitted picture has the size of the output, a proportional crop is a crop. -/
theorem cropUniformly_eq_cropBox {canvas : Canvas} (crop : Box) (input : Frame)
    (h : output.writable = .ok canvas) (fills : uniformFit crop.size output.size = output.size) :
    (software.cropUniformly crop input output : Outcome) = software.cropBox crop input output := by
  obtain ⟨hcanvas, inside⟩ := Frame.writable_eq_ok.1 h
  obtain ⟨planes, expanded, sized, rfl⟩ := Frame.canvas_eq_ok.1 hcanvas
  have fits := uniformFit_fitsInto crop.size (Frame.nonempty_of_writable h)
  obtain ⟨region, hregion, hplanes, metadata⟩ := Frame.topLeft_eq_ok expanded fits
  rw [fills] at metadata
  obtain ⟨corner, hcorner, -, -⟩ := Frame.writable_topLeft hregion h
  -- both draw on the same canvas
  have same : corner = Canvas.ofPlanes planes output.size output.format := by
    rw [Frame.canvas_topLeft hregion hcorner, hplanes, fills]
  unfold cropUniformly cropBox
  rw [hregion]
  cases hp : crop.toCrop with
  | error e =>
    show Outcome.mk (.error e) (output.withRegion region) = _
    rw [Frame.withRegion_topLeft hregion]
    rfl
  | ok p =>
    show Outcome.inRegionOf output (p.run input region) = p.run input output
    have check := Primitive.check_congr (p := p) (rfl : input.metadata = input.metadata)
      (show region.metadata = output.metadata from metadata)
    have drawn : p.draw input region = p.draw input output := by
      rw [Primitive.draw, Primitive.draw, check, hcorner, h, same]
    rw [Primitive.run_eq, Primitive.run_eq, drawn]
    cases hdraw : p.draw input output with
    | error e =>
      show Outcome.mk (.error e) (output.withRegion region) = _
      rw [Frame.withRegion_topLeft hregion]
      rfl
    | ok drawing =>
      obtain ⟨canvas, image⟩ := drawing
      obtain ⟨-, writable, -⟩ := Primitive.draw_eq_ok.1 hdraw
      have at_corner : canvas = corner :=
        (Except.ok.inj (h.symm.trans writable)).symm.trans same.symm
      subst at_corner
      show Outcome.mk (.ok ()) (output.withRegion (region.painted canvas image)) = _
      rw [Frame.withRegion_painted hregion hcorner]
      rfl

/-- What an output held before does not show through an operation that fills it. -/
theorem perform_overwrites_of_fills {op : Operation} (source : Frame) {a b : Frame}
    (sound : a.Sound) (sound' : b.Sound) (metadata : a.metadata = b.metadata)
    (fills : op.Fills a.size) :
    (software.perform op source a : Outcome).status = (software.perform op source b : Outcome).status ∧
      ((software.perform op source a : Outcome).status = .ok () →
        (software.perform op source a : Outcome).frame.Alike
          (software.perform op source b : Outcome).frame) := by
  cases op with
  | uniformCropResize crop scaled =>
    obtain ⟨size, -, -⟩ := Metadata.mk.inj metadata
    have ⟨canvas, writable, _⟩ := sound
    have ⟨canvas', writable', _⟩ := sound'
    show (software.cropUniformly crop source a : Outcome).status = _ ∧ _
    rw [perform, perform, cropUniformly_eq_cropBox crop source writable (fills crop scaled rfl),
      cropUniformly_eq_cropBox crop source writable' (size ▸ fills crop scaled rfl)]
    exact (cropBox_paints crop source).overwrites sound sound' metadata
  | cropResize crop scaled => exact (cropBox_paints crop source).overwrites sound sound' metadata
  | convert format => exact (Primitive.run_paints .convert source).overwrites sound sound' metadata
  | orient orientation => exact (orient_paints source).overwrites sound sound' metadata

end Engine

end Raster
