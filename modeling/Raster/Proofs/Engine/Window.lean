import Raster.Proofs.Engine.DryRun

/-!
# The window of a crop

A crop reads the samples inside of its box, and from chroma the samples of a box of half the
size. Pixels outside of this window make no difference, whether the crop fills its output or is
fitted into a corner of it, unless a tap leaves the box.

* `Box.region`, `Box.chromaRegion` — the window on both kinds of grids.
* `Picture.AgreeWithin`, `Frame.AgreeWithin` — the same samples in the window.
* `Operation.crop?` — the box of an operation that crops.

Result: `Engine.perform_within` (an operation cannot tell frames that show the same in the window
of its crop).
-/

namespace Raster

/-! ## Windows -/

/-- The samples of full resolution in a box. -/
def Box.region (crop : Box) : Region := ⟨crop.x, crop.y, crop.width, crop.height⟩

/-- The chroma samples of a box: half its size, rounded up, from the sample of its corner on. -/
def Box.chromaRegion (crop : Box) : Region :=
  ⟨crop.x / 2, crop.y / 2, (crop.width + 1) / 2, (crop.height + 1) / 2⟩

/-- The same samples in the window of a crop. -/
inductive Picture.AgreeWithin (crop : Box) : Picture → Picture → Prop
  | packed {s t : Samples} (pixels : s.AgreeOn crop.region t) :
    AgreeWithin crop (.packed s) (.packed t)
  | yuv {y u v y' u' v' : Samples} (luma : y.AgreeOn crop.region y')
    (blue : u.AgreeOn crop.chromaRegion u') (red : v.AgreeOn crop.chromaRegion v') :
    AgreeWithin crop (.yuv y u v) (.yuv y' u' v')

/-- Frames of the same metadata that show the same in the window of a crop, or cannot be read
for the same reason. -/
structure Frame.AgreeWithin (crop : Box) (a b : Frame) : Prop where
  metadata : a.metadata = b.metadata
  picture : (∃ e, a.picture = .error e ∧ b.picture = .error e) ∨
    ∃ p q, a.picture = .ok p ∧ b.picture = .ok q ∧ p.AgreeWithin crop q

/-- The box of an operation that crops. -/
def Operation.crop? : Operation → Option Box
  | cropResize crop _ | uniformCropResize crop _ => some crop
  | convert _ | orient _ => none

/-! ## What a crop reads -/

section Crop

variable {crop : Box} {size targetSize : Size} {format targetFormat : Format}

/-- The inclusive corners of a box that is not empty span its region. -/
theorem Move.cropRegion_corners (nonempty : crop.isEmpty = false) :
    cropRegion crop.x crop.y (crop.right - 1) (crop.bottom - 1) = crop.region := by
  obtain ⟨width, height⟩ := Size.isEmpty_eq_false.1 nonempty
  simp only [Box.size] at width height
  simp only [cropRegion, Box.region, Box.right, Box.bottom, Region.mk.injEq, true_and]
  omega

/-- On a chroma grid a crop stays in its window; the grid may end before the window does. -/
theorem Move.chromaCropRegion_inside (nonempty : crop.isEmpty = false) (grid : Size) {x y : Nat}
    (held : (chromaCropRegion crop.x crop.y (crop.right - 1) (crop.bottom - 1) grid).Holds x y) :
    crop.chromaRegion.Holds x y := by
  obtain ⟨width, height⟩ := Size.isEmpty_eq_false.1 nonempty
  simp only [Box.size] at width height
  simp only [Region.Holds, chromaCropRegion, Box.chromaRegion, Box.right, Box.bottom] at held ⊢
  omega

/-- The move that crops a box makes the same of pictures that agree in its window. -/
theorem Picture.AgreeWithin.image {source other : Picture} (h : source.AgreeWithin crop other)
    (nonempty : crop.isEmpty = false) (compatible : format.compatible targetFormat = true)
    (suits : (Move.crop crop.x crop.y (crop.right - 1) (crop.bottom - 1)).Suits size targetSize)
    (stays : (Move.crop crop.x crop.y (crop.right - 1) (crop.bottom - 1)).StaysInside format size
      targetSize)
    (hsource : source.grids = format.grids size) :
    let m := Move.crop crop.x crop.y (crop.right - 1) (crop.bottom - 1)
    (m.image source (targetFormat.grids targetSize)).Agree
      (m.image other (targetFormat.grids targetSize)) := by
  have full (s : Samples) (hs : s.size = size) : crop.region.Within s.toExtent := by
    rw [← Move.cropRegion_corners nonempty]
    exact Move.cropRegion_within suits hs
  have spans : Tap.centred.Spans crop.region.size targetSize := by
    rw [← Move.cropRegion_corners nonempty]
    exact stays.grid _ rfl
  have halved {u u' : Samples} (agree : u.AgreeOn crop.chromaRegion u') (yuv : format.channels = none)
      (hu : u.size = size.halved) {target : Extent} (htarget : target.size = targetSize.halved) :
      ((Move.crop crop.x crop.y (crop.right - 1) (crop.bottom - 1)).chromaGrid u target).Agree
        ((Move.crop crop.x crop.y (crop.right - 1) (crop.bottom - 1)).chromaGrid u' target) := by
    have inside := agree.mono fun _ _ => Move.chromaCropRegion_inside nonempty u.size
    have chroma := stays.chroma yuv _ (by rw [← hu]; rfl)
    simp only [Move.chromaGrid, ← agree.extent]
    exact inside.scaled (htarget ▸ chroma) (Move.chromaCropRegion_within suits hu)
  intro m
  rcases Picture.eq_of_compatible compatible hsource targetSize with
    ⟨s, n, k, rfl, hs, grids, -⟩ | ⟨y, u, v, rfl, hy, hu, hv, grids⟩
  · rw [grids]
    cases h with
    | packed pixels =>
      simp only [m, Move.image, Move.grid, Move.cropRegion_corners nonempty, ← pixels.extent]
      have narrowed := pixels.take (Nat.min_le_right k s.channels)
      exact .packed (narrowed.scaled spans (full _ (Samples.size_take hs _)))
  · rw [grids]
    cases h with
    | yuv luma blue red =>
      simp only [m, Move.image, Move.grid, Move.cropRegion_corners nonempty]
      have yuv := (Picture.extents_of_yuv hsource).1
      exact .yuv (luma.scaled spans (full _ (Extent.size_eq hy)))
        (halved blue yuv (Extent.size_eq hu) rfl) (halved red yuv (Extent.size_eq hv) rfl)

end Crop

/-! ## Operations -/

namespace Engine

variable {crop : Box} {a b : Frame}

theorem cropBox_within (h : a.AgreeWithin crop b) (output : Frame)
    (inside : crop.StaysInside a.metadata output.metadata) :
    (software.cropBox crop a output : Outcome) = software.cropBox crop b output := by
  unfold cropBox
  cases hp : crop.toCrop with
  | error e => rfl
  | ok p =>
    obtain ⟨nonempty, rfl⟩ := Box.toCrop_eq_ok hp
    rcases h.picture with ⟨e, ha, hb⟩ | ⟨shown, shown', ha, hb, agree⟩
    · have alike : a.Alike b := ⟨h.metadata, by rw [ha, hb]; exact .error e⟩
      exact Primitive.run_reads alike output (inside _ hp)
    · refine Primitive.run_congr h.metadata ha hb output fun accepts => ?_
      obtain ⟨compatible, suits⟩ := accepts.suits
      exact .ok (agree.image nonempty compatible suits (inside _ hp accepts) (Frame.grids_picture ha))

theorem cropUniformly_within (h : a.AgreeWithin crop b) (output : Frame)
    (inside : crop.StaysInside a.metadata
      { output.metadata with size := uniformFit crop.size output.size }) :
    (software.cropUniformly crop a output : Outcome) = software.cropUniformly crop b output := by
  unfold cropUniformly
  cases taken : output.topLeft (uniformFit crop.size output.size) with
  | error e => rfl
  | ok region =>
    show Outcome.inRegionOf output (software.cropBox crop a region) =
      Outcome.inRegionOf output (software.cropBox crop b region)
    rw [cropBox_within h region ((Frame.fitsInto_of_topLeft taken).2 ▸ inside)]

/-- An operation that crops reads the window of its crop only, if no tap leaves it. -/
theorem perform_within {op : Operation} (crops : op.crop? = some crop) (h : a.AgreeWithin crop b)
    (output : Frame) (inside : op.StaysInside a.metadata output.metadata) :
    (software.perform op a output : Outcome) = software.perform op b output := by
  cases op with
  | cropResize box size =>
    obtain rfl := Option.some.inj crops
    exact cropBox_within h output inside
  | uniformCropResize box size =>
    obtain rfl := Option.some.inj crops
    exact cropUniformly_within h output inside
  | convert format => cases crops
  | orient orientation => cases crops

end Engine

end Raster
