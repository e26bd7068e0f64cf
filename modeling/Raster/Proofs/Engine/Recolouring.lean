import Raster.Proofs.Engine.Conversion
import Raster.Proofs.Engine.Cropping
import Raster.Proofs.Frame.Factories

/-!
# Cropping and converting

A crop at its own size moves samples and changes none of them, chroma from half of the corner on.
A conversion looks at one pixel at a time, or at one pixel and the chroma of its block. So it makes
no difference whether a box is cropped first or last, if blocks stay blocks where their chroma is
spread over pixels: then the corner has to be even. Where chroma is averaged instead, boxes with an
odd side would need more, and nothing is said.

Results: `Picture.recoloured_cut` (parts are converted into parts) and `Engine.crop_convert_comm`
(crops at their own size copy samples, and commute with conversions).
-/

namespace Raster

variable {b : Box} {size : Size} {format targetFormat : Format} {source : Picture}
  {input cropped converted output : Frame}

/-! ## Colours of parts -/

/-- The corner of a box lies between blocks. -/
def Box.Aligned (b : Box) : Prop := b.x % 2 = 0 ∧ b.y % 2 = 0

namespace Samples

variable {e : Extent}

/-- Pixels are converted one at a time. -/
theorem repacked_cut (s : Samples) (b : Box) :
    (s.cut b).repacked ⟨b.width, b.height, e.channels⟩ = (s.repacked e).cut b := rfl

/-- A copy copies parts. -/
theorem copy_cut (s : Samples) (b : Box) :
    (s.cut b).part 0 0 ⟨b.width, b.height, e.channels⟩ = (s.part 0 0 e).cut b := by
  simp only [part, pull, opaqueValue, cut, Nat.zero_add]

/-- From an even corner on, the blocks of a part are blocks of the whole. -/
theorem coloured_cut (y u v : Samples) (aligned : b.Aligned) :
    Samples.coloured (y.cut b) (u.cut b.halved) (v.cut b.halved) ⟨b.width, b.height, e.channels⟩ =
      (Samples.coloured y u v e).cut b := by
  obtain ⟨left, top⟩ := aligned
  have column (px : Nat) : (b.x + px) / 2 = b.x / 2 + px / 2 := by omega
  have row (py : Nat) : (b.y + py) / 2 = b.y / 2 + py / 2 := by omega
  simp only [coloured, cut, Box.halved, column, row]

end Samples

/-- A part is converted into the part of what its picture is converted into, unless chroma is
averaged. -/
theorem Picture.recoloured_cut (hsource : source.grids = format.grids size)
    (averages : ¬(format.IsRgb ∧ targetFormat.isYuv = true)) (known : format ≠ .unknown)
    (target_known : targetFormat ≠ .unknown)
    (aligned : format.isYuv = true → targetFormat.IsRgb → b.Aligned) :
    (source.cut b).recoloured (targetFormat.grids b.size) =
      (source.recoloured (targetFormat.grids size)).map (·.cut b) := by
  cases source with
  | packed s =>
    obtain ⟨n, hn, hs⟩ := extent_of_packed hsource
    cases hk : targetFormat.channels with
    | some k =>
      rw [Format.grids_packed hk, Format.grids_packed hk]
      exact congrArg (fun t => Except.ok (Picture.packed t))
        (s.repacked_cut b (e := ⟨size.width, size.height, k⟩))
    | none =>
      rw [Format.grids_yuv hk, Format.grids_yuv hk]
      have yuv := (Format.channels_eq_none_iff target_known).1 hk
      have gray : s.channels < 3 := by
        by_contra colours
        refine averages ⟨Format.isRgb_of_channels hn ?_, yuv⟩
        rintro rfl
        have single : s.channels = 1 := by rw [hs]
        omega
      simp only [recoloured, cut]
      rw [if_pos gray, if_pos (show (s.cut b).channels < 3 from gray)]
      rfl
  | yuv y u v =>
    obtain ⟨hn, -⟩ := extents_of_yuv hsource
    cases hk : targetFormat.channels with
    | some k =>
      rw [Format.grids_packed hk, Format.grids_packed hk]
      simp only [recoloured, cut]
      by_cases gray : k = 1
      · rw [if_pos gray, if_pos gray]
        exact congrArg (fun t => Except.ok (Picture.packed t))
          (y.copy_cut b (e := ⟨size.width, size.height, k⟩))
      · rw [if_neg gray, if_neg gray]
        have aligned := aligned ((Format.channels_eq_none_iff known).1 hn)
          (Format.isRgb_of_channels hk gray)
        exact congrArg (fun t => Except.ok (Picture.packed t))
          (Samples.coloured_cut y u v aligned (e := ⟨size.width, size.height, k⟩))
    | none =>
      rw [Format.grids_yuv hk, Format.grids_yuv hk]
      have luma := y.copy_cut b (e := ⟨size.width, size.height, 1⟩)
      have chroma (s : Samples) :=
        s.copy_cut b.halved (e := ⟨size.halved.width, size.halved.height, 1⟩)
      show Except.ok (Picture.yuv ((y.cut b).part 0 0 ⟨b.width, b.height, 1⟩)
        ((u.cut b.halved).part 0 0 ⟨b.halved.width, b.halved.height, 1⟩)
        ((v.cut b.halved).part 0 0 ⟨b.halved.width, b.halved.height, 1⟩)) = _
      rw [luma, chroma u, chroma v]
      rfl

/-- A picture of the part is converted into the part that is cropped from a picture of the
converted whole. -/
theorem Picture.recoloured_crop {part whole image : Picture}
    (hsource : source.grids = format.grids size) (nonempty : b.isEmpty = false)
    (inside : size.containsBox b = true) (averages : ¬(format.IsRgb ∧ targetFormat.isYuv = true))
    (known : format ≠ .unknown) (target_known : targetFormat ≠ .unknown)
    (aligned : format.isYuv = true → targetFormat.IsRgb → b.Aligned)
    (himage : source.recoloured (targetFormat.grids size) = .ok image)
    (hpart : (source.cut b).Agree part) (hwhole : image.Agree whole) :
    SamePicture (part.recoloured (targetFormat.grids b.size))
      (.ok (b.crop.image whole (targetFormat.grids b.size))) := by
  have grids : image.grids = targetFormat.grids size := grids_recoloured himage
  have suits := b.suits_crop nonempty inside b.size
  have size_nonempty : size.isEmpty = false := by
    obtain ⟨right, bottom⟩ := Size.containsBox_iff.1 inside
    obtain ⟨width, height⟩ : 0 < b.width ∧ 0 < b.height := Size.isEmpty_eq_false.1 nonempty
    unfold Box.right at right
    unfold Box.bottom at bottom
    exact Size.isEmpty_eq_false.2 ⟨by omega, by omega⟩
  have converted : SamePicture ((source.cut b).recoloured (targetFormat.grids b.size))
      (part.recoloured (targetFormat.grids b.size)) :=
    recoloured_agree (grids_cut b hsource) hpart
  rw [recoloured_cut hsource averages known target_known aligned, himage] at converted
  have stays := (Box.crop_staysInside_iff nonempty inside b.size).2
    (Move.resize_staysInside targetFormat b.size)
  have cropped := Move.image_agree targetFormat.compatible_refl suits size_nonempty stays grids hwhole
  have cut := crop_agree_cut grids nonempty inside
  exact converted.symm.trans (.ok (cut.symm.trans cropped))

/-! ## Frames -/

/-- Converting what a crop at its own size has left is cropping the converted frame. -/
theorem Primitive.convert_crop (hsource : input.picture = .ok source)
    (cropped_sound : cropped.Sound) (cropped_size : cropped.size = b.size)
    (cropped_format : cropped.format = input.format) (nonempty : b.isEmpty = false)
    (inside : input.size.containsBox b = true) (converted_sound : converted.Sound)
    (converted_size : converted.size = input.size) (output_size : output.size = b.size)
    (output_format : output.format = converted.format)
    (converts : input.format.Converts output.format)
    (averages : ¬(input.format.IsRgb ∧ output.format.isYuv = true))
    (aligned : input.format.isYuv = true → output.format.IsRgb → b.Aligned) :
    let first := (move b.crop).run input cropped
    let second := convert.run input converted
    second.status = .ok () ∧
      convert.run first.frame output = (move b.crop).run second.frame output := by
  intro first second
  have ⟨_, converted_target, _⟩ := converted_sound
  have grids := Frame.grids_picture hsource
  -- the part in the box, and the whole frame converted
  obtain ⟨⟨-, first_metadata⟩, part, hpart, part_agree⟩ :=
    crop_shows hsource cropped_sound cropped_size cropped_format nonempty inside
  obtain ⟨image, himage, drawn⟩ := convert_draws hsource converted_target
    (output_format ▸ converts) converted_size
  obtain ⟨whole, hwhole, whole_agree⟩ := drawn.shows converted_sound
  obtain ⟨first_size, -, first_format⟩ := Metadata.mk.inj first_metadata
  obtain ⟨second_size, -, second_format⟩ := Metadata.mk.inj drawn.metadata
  have part_size := first_size.trans cropped_size
  have part_format := first_format.trans cropped_format
  have whole_size := second_size.trans converted_size
  have whole_format := second_format.trans output_format.symm
  have output_nonempty : output.size.isEmpty = false := by
    rw [output_size]
    exact nonempty
  -- both requests are accepted
  have distinct : first.frame.format ≠ output.format := by
    rw [part_format]
    exact converts.distinct
  have converts_part : convert.Accepts first.frame.metadata output.metadata :=
    ⟨Frame.nonempty_of_picture hpart, output_nonempty, distinct, part_size.trans output_size.symm⟩
  have compatible : second.frame.format.compatible output.format = true := by
    rw [whole_format, Format.compatible_refl]
  have inside_whole : second.frame.size.containsBox b = true := by
    rw [whole_size]
    exact inside
  have crops_whole : (move b.crop).Accepts second.frame.metadata output.metadata :=
    ⟨Frame.nonempty_of_picture hwhole, output_nonempty, compatible,
      b.suits_crop nonempty inside_whole _⟩
  have check := (check_eq_ok.2 converts_part).trans (check_eq_ok.2 crops_whole).symm
  refine ⟨drawn.status, run_agree hpart hwhole output check fun _ => ?_⟩
  -- and both paint the part of the converted picture
  rw [← output_format] at himage
  rw [output_size]
  exact Picture.recoloured_crop grids nonempty inside averages input.format_ne_unknown
    output.format_ne_unknown aligned himage part_agree.symm whole_agree.symm

/-- A crop between two corners of a frame, into a sound frame of its own size and of the same
format, shows the samples in the box: those of the pixels from the corner on, and those of chroma
from half of the corner on, rounded down. It commutes with conversions, but for those that average
chroma. Where a conversion spreads chroma over pixels, the corner has to be even. -/
theorem Engine.crop_convert_comm {x0 y0 x1 y1 : Nat}
    (corners : Box.ofCorners? x0 y0 x1 y1 = some b) (inside : input.size.containsBox b = true)
    (hsource : input.picture = .ok source) (cropped_sound : cropped.Sound)
    (cropped_size : cropped.size = b.size) (cropped_format : cropped.format = input.format) :
    let first : Outcome := software.call (.move (.crop x0 y0 x1 y1)) input cropped
    (first.status = .ok () ∧
      ∃ shown, first.frame.picture = .ok shown ∧ shown.Agree (source.cut b)) ∧
    ∀ converted output : Frame, converted.Sound → converted.size = input.size →
      output.size = b.size → output.format = converted.format →
      input.format.Converts output.format →
      ¬(input.format.IsRgb ∧ output.format.isYuv = true) →
      (input.format.isYuv = true → output.format.IsRgb → x0 % 2 = 0 ∧ y0 % 2 = 0) →
      let second : Outcome := software.call .convert input converted
      second.status = .ok () ∧
        software.call .convert first.frame output =
          software.call (.move (.crop x0 y0 x1 y1)) second.frame output ∧
        (output.Resolves →
          (software.call .convert first.frame output : Outcome).status = .ok ()) := by
  obtain ⟨crop, nonempty⟩ := Box.crop_of_corners corners
  have corner : b.x = x0 ∧ b.y = y0 := by
    obtain ⟨left, top, -⟩ := Move.crop.inj crop
    exact ⟨left, top⟩
  rw [← crop]
  intro first
  obtain ⟨⟨done, metadata⟩, shown, hshown, agree⟩ :=
    Primitive.crop_shows hsource cropped_sound cropped_size cropped_format nonempty inside
  refine ⟨⟨done, shown, hshown, agree⟩, ?_⟩
  intro converted output converted_sound converted_size output_size output_format converts averages
    even second
  have aligned : input.format.isYuv = true → output.format.IsRgb → b.Aligned := by
    intro yuv rgb
    rw [Box.Aligned, corner.1, corner.2]
    exact even yuv rgb
  obtain ⟨converted_done, same⟩ := Primitive.convert_crop hsource cropped_sound cropped_size
    cropped_format nonempty inside converted_sound converted_size output_size output_format converts
    averages aligned
  refine ⟨converted_done, same, fun writable => ?_⟩
  obtain ⟨target, -, htarget⟩ := writable
  obtain ⟨first_size, -, first_format⟩ := Metadata.mk.inj metadata
  obtain ⟨image, -, drawn⟩ := Primitive.convert_draws hshown htarget
    (by rw [first_format, cropped_format]; exact converts)
    (by rw [first_size, cropped_size]; exact output_size)
  exact drawn.status

/-- The last column of three, which has chroma of its own, becomes two pixels of three bytes. -/
theorem Engine.crop_convert_comm_column : ∃ cropped converted output : Frame,
    Frame.zeroed ⟨⟨1, 2⟩, .topLeft, .nv12⟩ = .ok cropped ∧
    Frame.zeroed ⟨⟨3, 3⟩, .topLeft, .rgb⟩ = .ok converted ∧
    Frame.zeroed ⟨⟨1, 2⟩, .topLeft, .rgb⟩ = .ok output ∧
      let first : Outcome := software.call (.move (.crop 2 0 2 1)) .nv12Rows cropped
      let second : Outcome := software.call .convert .nv12Rows converted
      first.status = .ok () ∧ second.status = .ok () ∧
        software.call .convert first.frame output =
          software.call (.move (.crop 2 0 2 1)) second.frame output := by
  obtain ⟨cropped, hcropped⟩ := Frame.zeroed_ok (m := ⟨⟨1, 2⟩, .topLeft, .nv12⟩) rfl nofun
  obtain ⟨converted, hconverted⟩ := Frame.zeroed_ok (m := ⟨⟨3, 3⟩, .topLeft, .rgb⟩) rfl nofun
  obtain ⟨output, houtput⟩ := Frame.zeroed_ok (m := ⟨⟨1, 2⟩, .topLeft, .rgb⟩) rfl nofun
  obtain ⟨cropped_size, -, cropped_format⟩ := Metadata.mk.inj (Frame.metadata_ofBuffer hcropped)
  obtain ⟨converted_size, -, converted_format⟩ :=
    Metadata.mk.inj (Frame.metadata_ofBuffer hconverted)
  obtain ⟨output_size, -, output_format⟩ := Metadata.mk.inj (Frame.metadata_ofBuffer houtput)
  obtain ⟨source, hsource⟩ : ∃ source, Frame.nv12Rows.picture = .ok source := ⟨_, rfl⟩
  have corners : Box.ofCorners? 2 0 2 1 = some ⟨2, 0, 1, 2⟩ := rfl
  have inside : Frame.nv12Rows.size.containsBox ⟨2, 0, 1, 2⟩ = true := rfl
  obtain ⟨⟨done, -⟩, conversions⟩ := crop_convert_comm corners inside hsource
    (Frame.sound_ofBuffer hcropped) cropped_size cropped_format
  obtain ⟨converted_done, same, -⟩ := conversions converted output
    (Frame.sound_ofBuffer hconverted) converted_size output_size
    (output_format.trans converted_format.symm)
    (by rw [output_format]; exact ⟨by decide, by decide⟩) (by rw [output_format]; decide)
    fun _ _ => by decide
  exact ⟨cropped, converted, output, hcropped, hconverted, houtput, done, converted_done, same⟩

end Raster
