import Raster.Proofs.Engine.Cropping
import Raster.Proofs.Frame.Factories

/-!
# Cropping before scaling

A crop into an output of another size scales the samples in the box. The same samples are scaled
when the box is cropped at its own size first, and the part is resized: a part knows nothing of the
samples around the box, and neither do the taps of a crop. For chroma this takes the region of a
crop to be the halved box, whatever the parity of corner, size and frame.

Results: `Samples.scaled_cut` (a grid cut first is scaled alike), `Move.resize_image_cut` (so is a
picture) and `Engine.crop_then_resize` (both ways end in the same outcome).
-/

namespace Raster

variable {b : Box} {size : Size} {format targetFormat : Format} {source : Picture}
  {input cropped output : Frame}

/-! ## Images of parts -/

theorem Samples.part_cut (s : Samples) (b : Box) (target : Extent) :
    (s.cut b).part 0 0 target = s.part b.x b.y target := by
  simp only [part, pull, opaqueValue, cut, Nat.zero_add]

/-- The taps of a region start at its corner, where a part starts. -/
theorem Samples.interpolate_cut (s : Samples) (b : Box) (taps : TapTable) (target : Extent) :
    (s.cut b).interpolate taps (s.cut b).wholeRegion target =
      s.interpolate taps b.region target := by
  simp only [interpolate, cut, wholeRegion, Box.region, Nat.zero_add]

/-- A part is scaled as its region is. -/
theorem Samples.scaled_cut (s : Samples) (b : Box) (taps : TapTable) (target : Extent) :
    (s.cut b).scaled taps (s.cut b).wholeRegion target = s.scaled taps b.region target := by
  unfold scaled
  rw [interpolate_cut]
  show (if b.width = target.width ∧ b.height = target.height then (s.cut b).part 0 0 target
    else _) = _
  rw [part_cut]
  rfl

/-- A part of a picture is scaled as the crop scales the picture. -/
theorem Move.resize_image_cut (compatible : format.compatible targetFormat = true)
    (hsource : source.grids = format.grids size) (nonempty : b.isEmpty = false)
    (inside : size.containsBox b = true) (targetSize : Size) :
    resize.image (source.cut b) (targetFormat.grids targetSize) =
      b.crop.image source (targetFormat.grids targetSize) := by
  have scaled (s : Samples) (b : Box) (extent : Extent) :
      resize.grid (s.cut b) extent = s.scaled .centred b.region extent := s.scaled_cut b _ extent
  rcases Picture.eq_of_compatible compatible hsource targetSize with
    ⟨s, n, k, rfl, hs, grids, -⟩ | ⟨y, u, v, rfl, hy, hu, hv, grids⟩
  · rw [grids]
    have part := scaled (s.take (min k s.channels)) b ⟨targetSize.width, targetSize.height, k⟩
    rw [← Box.crop_grid nonempty] at part
    exact congrArg Picture.packed part
  · rw [grids]
    have halves {s : Samples} (hs : s.size = size.halved) (extent : Extent) :
        resize.chromaGrid (s.cut b.halved) extent = b.crop.chromaGrid s extent := by
      rw [Box.crop_chromaGrid hs nonempty inside]
      exact scaled s b.halved extent
    simp only [Picture.cut, image, Box.crop_grid nonempty, scaled, halves (Extent.size_eq hu),
      halves (Extent.size_eq hv)]

/-! ## Checks -/

/-- Where the box lies in the input, a crop asks for compatible frames and nothing else. -/
theorem Box.check_crop (nonempty : b.isEmpty = false) (inside : input.size.containsBox b = true) :
    b.crop.check input output = checkCompatible input output := by
  have suits : b.x ≤ b.right - 1 ∧ b.right - 1 < input.size.width ∧ b.y ≤ b.bottom - 1 ∧
      b.bottom - 1 < input.size.height := b.suits_crop nonempty inside output.size
  show checkCrop input output b.x b.y (b.right - 1) (b.bottom - 1) = _
  rw [checkCrop, if_pos suits]
  cases checkCompatible input output <;> rfl

/-- Frames with pixels are compatible by their formats. -/
theorem checkCompatible_of_format {input' : Frame} (nonempty : input.size.isEmpty = false)
    (nonempty' : input'.size.isEmpty = false) (same : input'.format = input.format) :
    checkCompatible input' output = checkCompatible input output := by
  unfold checkCompatible
  rw [checkFrames_eq, checkFrames_eq, checkNotEmpty_eq_ok.2 nonempty,
    checkNotEmpty_eq_ok.2 nonempty', same]

/-! ## Both ways -/

/-- Input that cannot be read leaves every output as it was. -/
theorem Primitive.run_unreadable (p : Primitive) (unreadable : ¬input.Resolves) (output : Frame) :
    ∃ e, p.run input output = .failed e output := by
  cases h : input.picture with
  | ok source => exact absurd (Frame.resolves_iff_picture.2 ⟨source, h⟩) unreadable
  | error e =>
    rw [run_eq, draw_unreadable p h]
    cases p.check input output with
    | error e' => exact ⟨e', rfl⟩
    | ok u => exact ⟨e, rfl⟩

/-- Resizing what a crop at its own size has left is the crop. -/
theorem Primitive.resize_crop (hsource : input.picture = .ok source) (sound : cropped.Sound)
    (size : cropped.size = b.size) (format : cropped.format = input.format)
    (nonempty : b.isEmpty = false) (inside : input.size.containsBox b = true) (output : Frame)
    (stays : (move b.crop).StaysInside input.metadata output.metadata) :
    (move .resize).run ((move b.crop).run input cropped).frame output =
      (move b.crop).run input output := by
  obtain ⟨⟨-, metadata⟩, shown, hshown, agree⟩ :=
    crop_shows hsource sound size format nonempty inside
  obtain ⟨shown_size, -, shown_format⟩ := Metadata.mk.inj metadata
  have shown_nonempty := Frame.nonempty_of_picture hshown
  have same_format := shown_format.trans format
  have grids := Frame.grids_picture hsource
  have check : (move .resize).check ((move b.crop).run input cropped).frame output =
      (move b.crop).check input output := by
    show checkCompatible _ output = b.crop.check input output
    rw [Box.check_crop nonempty inside]
    exact checkCompatible_of_format (Frame.nonempty_of_picture hsource) shown_nonempty same_format
  refine run_agree hshown hsource output check fun accepts => ?_
  obtain ⟨compatible, suits⟩ := accepts.suits
  have compatible : input.format.compatible output.format = true := same_format ▸ compatible
  have part_stays : Move.resize.StaysInside input.format b.size output.size :=
    (Box.crop_staysInside_iff nonempty inside output.size).1 (stays ⟨Frame.nonempty_of_picture hsource,
      accepts.target_nonempty, compatible, b.suits_crop nonempty inside output.size⟩)
  -- the part shown is the part of the picture, which is scaled as the crop scales the picture
  have scaled := Move.image_agree (m := .resize) compatible suits shown_nonempty
    (by rwa [← shown_size.trans size] at part_stays)
    (by rw [Frame.grids_picture hshown]; exact congrArg (Format.grids · _) same_format) agree
  rw [Move.resize_image_cut compatible grids nonempty inside] at scaled
  exact .ok scaled

/-- A crop between two corners of the frame is a crop at its own size, into any sound frame of the
same format, that is then resized. Both ways end in the same outcome on every output, whatever its
size and format, as long as no tap leaves the box. They succeed if the formats are compatible and
both frames can be read and written. If the input cannot be read, both the first step and the direct
crop fail. -/
theorem Engine.crop_then_resize {x0 y0 x1 y1 : Nat}
    (corners : Box.ofCorners? x0 y0 x1 y1 = some b) (inside : input.size.containsBox b = true)
    (sound : cropped.Sound) (cropped_size : cropped.size = b.size)
    (cropped_format : cropped.format = input.format) :
    let first : Outcome := software.call (.move (.crop x0 y0 x1 y1)) input cropped
    (first.status = .ok () ↔ input.Resolves) ∧ ∀ output : Frame,
      let direct : Outcome := software.call (.move (.crop x0 y0 x1 y1)) input output
      (input.Resolves →
          (Primitive.move (.crop x0 y0 x1 y1)).StaysInside input.metadata output.metadata →
          software.call (.move .resize) first.frame output = direct) ∧
        (input.Resolves → output.Resolves → input.format.compatible output.format = true →
          direct.status = .ok ()) ∧
        (¬input.Resolves → ∃ e, direct = .failed e output) := by
  obtain ⟨crop, nonempty⟩ := Box.crop_of_corners corners
  rw [← crop]
  intro first
  refine ⟨⟨fun done => ?_, fun readable => ?_⟩, fun output => ⟨?same, ?succeeds, ?fails⟩⟩
  · by_contra unreadable
    obtain ⟨e, failed⟩ := Primitive.run_unreadable (.move b.crop) unreadable cropped
    have done : ((Primitive.move b.crop).run input cropped).status = .ok () := done
    rw [failed] at done
    cases done
  · obtain ⟨source, hsource⟩ := readable.exists_picture
    exact (Primitive.crop_shows hsource sound cropped_size cropped_format nonempty inside).1.1
  case same =>
    intro readable stays
    obtain ⟨source, hsource⟩ := readable.exists_picture
    exact Primitive.resize_crop hsource sound cropped_size cropped_format nonempty inside output stays
  case succeeds =>
    intro readable writable compatible
    obtain ⟨source, hsource⟩ := readable.exists_picture
    obtain ⟨target, -, htarget⟩ := writable
    have accepts : (Primitive.move b.crop).Accepts input.metadata output.metadata :=
      ⟨Frame.nonempty_of_picture hsource, Frame.nonempty_of_writable htarget, compatible,
        b.suits_crop nonempty inside _⟩
    exact (Primitive.run_draws accepts hsource htarget rfl).status
  case fails =>
    intro unreadable
    exact Primitive.run_unreadable (.move b.crop) unreadable output

/-- Four pixels from an odd corner on, with the pair of chroma of the first block. -/
theorem Engine.crop_then_resize_odd : ∃ cropped output : Frame,
    Frame.zeroed ⟨⟨2, 2⟩, .topLeft, .nv12⟩ = .ok cropped ∧
    Frame.zeroed ⟨⟨4, 3⟩, .topLeft, .yv12⟩ = .ok output ∧
      let first : Outcome := software.call (.move (.crop 1 1 2 2)) .nv12Rows cropped
      let direct : Outcome := software.call (.move (.crop 1 1 2 2)) .nv12Rows output
      first.status = .ok () ∧ direct.status = .ok () ∧
        software.call (.move .resize) first.frame output = direct := by
  obtain ⟨cropped, hcropped⟩ := Frame.zeroed_ok (m := ⟨⟨2, 2⟩, .topLeft, .nv12⟩) rfl nofun
  obtain ⟨output, houtput⟩ := Frame.zeroed_ok (m := ⟨⟨4, 3⟩, .topLeft, .yv12⟩) rfl nofun
  obtain ⟨cropped_size, -, cropped_format⟩ := Metadata.mk.inj (Frame.metadata_ofBuffer hcropped)
  obtain ⟨-, -, output_format⟩ := Metadata.mk.inj (Frame.metadata_ofBuffer houtput)
  have readable : Frame.nv12Rows.Resolves := Frame.resolves_iff_picture.2 ⟨_, rfl⟩
  have corners : Box.ofCorners? 1 1 2 2 = some ⟨1, 1, 2, 2⟩ := rfl
  have inside : Frame.nv12Rows.size.containsBox ⟨1, 1, 2, 2⟩ = true := rfl
  obtain ⟨done, both⟩ := crop_then_resize corners inside (Frame.sound_ofBuffer hcropped)
    cropped_size cropped_format
  obtain ⟨same, succeeds, -⟩ := both output
  have compatible : Frame.nv12Rows.format.compatible output.format = true := by
    rw [output_format]
    rfl
  have stays : (Primitive.move (.crop 1 1 2 2)).StaysInside Frame.nv12Rows.metadata output.metadata :=
    Primitive.staysInside_of_short _ (by decide) (by decide) _
  exact ⟨cropped, output, hcropped, houtput, done.2 readable,
    succeeds readable (Frame.sound_ofBuffer houtput).resolves compatible, same readable stays⟩

end Raster
