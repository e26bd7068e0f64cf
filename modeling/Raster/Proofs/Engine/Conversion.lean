import Raster.Proofs.Engine.DryRun
import Raster.Proofs.Samples.Recolouring

/-!
# Converting and orienting

A conversion of colours commutes with every motion of a picture, as long as no chroma is
averaged or spread over a block that the edge cuts off. So it makes no difference whether the
engine converts a frame and then orients it, or the other way round.

* `Format.Converts` — the pairs of formats with a conversion from one to the other.
* `Format.Mixes` — the pairs of formats between which chroma changes its size.

Results: `Picture.Carried.recoloured` (pictures that are carried are converted into pictures that
are carried) and `Engine.convert_orient_comm` (both ways end in the same outcome).
-/

namespace Raster

/-! ## Pairs of formats -/

namespace Format

/-- Red, green and blue, with or without alpha. -/
def IsRgb (format : Format) : Prop := format = rgb ∨ format = rgba

instance (format : Format) : Decidable format.IsRgb := inferInstanceAs (Decidable (_ ∨ _))

/-- Two formats with a conversion from the first to the second: gray has none into YUV. -/
structure Converts (a b : Format) : Prop where
  distinct : a ≠ b
  coloured : ¬(a = gray ∧ b.isYuv = true)

/-- One of the formats has a colour for each pixel, and the other one for each block. -/
def Mixes (a b : Format) : Prop := (a.IsRgb ∧ b.isYuv = true) ∨ (a.isYuv = true ∧ b.IsRgb)

instance (a b : Format) : Decidable (a.Mixes b) := inferInstanceAs (Decidable (_ ∨ _))

theorem isRgb_of_channels {format : Format} {n : Nat} (h : format.channels = some n)
    (many : n ≠ 1) : format.IsRgb := by
  cases format with
  | rgba => exact .inr rfl
  | rgb => exact .inl rfl
  | gray => exact absurd (Option.some.inj h).symm many
  | nv12 | nv21 | yv12 | yv21 | unknown => cases h

end Format

/-! ## Pictures -/

namespace Picture

variable {format targetFormat : Format} {size : Size} {p q image : Picture} {f : Motion}

/-- Where there is a conversion, every picture has an image. -/
theorem exists_recoloured (converts : format.Converts targetFormat) (known : format ≠ .unknown)
    (target_known : targetFormat ≠ .unknown) (hp : p.grids = format.grids size) :
    ∃ image, p.recoloured (targetFormat.grids size) = .ok image := by
  have status := status_recoloured size known target_known hp
  rw [if_neg converts.coloured] at status
  obtain ⟨image, himage, -⟩ := bind_eq_ok.1 status
  exact ⟨image, himage⟩

/-- Pixels that are carried, into pixels or into luma and chroma. -/
theorem Carried.recoloured_packed {s t : Samples} {n : Nat} (pixels : s.Carried f size t)
    (hn : format.channels = some n) (hs : s.toExtent = ⟨size.width, size.height, n⟩)
    (ht : t.toExtent = ⟨(f.size size).width, (f.size size).height, n⟩)
    (known : targetFormat ≠ .unknown) (even : format.Mixes targetFormat → size.IsEven)
    (himage : (Picture.packed s).recoloured (targetFormat.grids size) = .ok image) :
    ∃ image', (Picture.packed t).recoloured (targetFormat.grids (f.size size)) = .ok image' ∧
      Carried f size image image' := by
  have channels : t.channels = s.channels := by rw [hs, ht]
  have positive : 0 < s.channels := by
    rw [hs]
    exact Format.channels_pos hn
  cases hk : targetFormat.channels with
  | some k =>
    rw [Format.grids_packed hk] at himage ⊢
    obtain rfl := Except.ok.inj himage
    exact ⟨_, rfl, .packed (pixels.repacked channels positive rfl)⟩
  | none =>
    rw [Format.grids_yuv hk] at himage ⊢
    simp only [recoloured] at himage ⊢
    split at himage
    · cases himage
    · next colours =>
      obtain rfl := Except.ok.inj himage
      have rgb : format.IsRgb := by
        refine Format.isRgb_of_channels hn ?_
        rintro rfl
        have single : s.channels = 1 := by rw [hs]
        omega
      have even := even (.inl ⟨rgb, (Format.channels_eq_none_iff known).1 hk⟩)
      have colours : 3 ≤ s.channels := by omega
      refine ⟨_, if_neg (by omega), .yuv (pixels.luma channels colours rfl) ?_ ?_⟩
      · exact pixels.chroma _ channels colours (Extent.size_eq hs) (Extent.size_eq ht) even rfl
      · exact pixels.chroma _ channels colours (Extent.size_eq hs) (Extent.size_eq ht) even rfl

/-- Luma and chroma that are carried, into pixels or grid by grid. -/
theorem Carried.recoloured_yuv {y u v y' u' v' : Samples} (luma : y.Carried f size y')
    (blue : u.Carried f size.halved u') (red : v.Carried f size.halved v')
    (yuv : format.isYuv = true) (hp : (Picture.yuv y u v).grids = format.grids size)
    (hq : (Picture.yuv y' u' v').grids = format.grids (f.size size))
    (even : format.Mixes targetFormat → size.IsEven)
    (himage : (Picture.yuv y u v).recoloured (targetFormat.grids size) = .ok image) :
    ∃ image', (Picture.yuv y' u' v').recoloured (targetFormat.grids (f.size size)) = .ok image' ∧
      Carried f size image image' := by
  obtain ⟨-, hy, hu, hv⟩ := extents_of_yuv hp
  obtain ⟨-, hy', hu', hv'⟩ := extents_of_yuv hq
  cases hk : targetFormat.channels with
  | some k =>
    rw [Format.grids_packed hk] at himage ⊢
    obtain rfl := Except.ok.inj himage
    refine ⟨_, rfl, .packed ?_⟩
    dsimp only
    split
    · exact luma.copy (by rw [hy, hy']) rfl
    · next colours =>
      have even := even (.inr ⟨yuv, Format.isRgb_of_channels hk colours⟩)
      exact luma.coloured blue red (by rw [hy, hy']; exact ⟨rfl, rfl⟩)
        (by rw [hu, hu']; exact ⟨rfl, rfl⟩) (by rw [hv, hv']; exact ⟨rfl, rfl⟩) even rfl
  | none =>
    rw [Format.grids_yuv hk] at himage ⊢
    obtain rfl := Except.ok.inj himage
    exact ⟨_, rfl, .yuv (luma.copy (by rw [hy, hy']) rfl) (blue.copy (by rw [hu, hu']) rfl)
      (red.copy (by rw [hv, hv']) rfl)⟩

/-- Pictures that are carried are converted into pictures that are carried. -/
theorem Carried.recoloured (h : Carried f size p q) (hp : p.grids = format.grids size)
    (hq : q.grids = format.grids (f.size size)) (known : format ≠ .unknown)
    (target_known : targetFormat ≠ .unknown) (even : format.Mixes targetFormat → size.IsEven)
    (himage : p.recoloured (targetFormat.grids size) = .ok image) :
    ∃ image', q.recoloured (targetFormat.grids (f.size size)) = .ok image' ∧
      Carried f size image image' := by
  cases h with
  | packed pixels =>
    obtain ⟨n, hn, hs⟩ := extent_of_packed hp
    obtain ⟨n', hn', ht⟩ := extent_of_packed hq
    obtain rfl := Option.some.inj (hn.symm.trans hn')
    exact recoloured_packed pixels hn hs ht target_known even himage
  | yuv luma blue red =>
    obtain ⟨hn, -⟩ := extents_of_yuv hp
    have yuv := (Format.channels_eq_none_iff known).1 hn
    exact recoloured_yuv luma blue red yuv hp hq even himage

end Picture

/-! ## Frames -/

section

variable {input converted oriented output : Frame} {source : Picture} {target : Canvas}

/-- Where there is a conversion, every output of the same size with room is painted with it. -/
theorem Primitive.convert_draws (hsource : input.picture = .ok source)
    (htarget : output.writable = .ok target) (converts : input.format.Converts output.format)
    (size : output.size = input.size) :
    ∃ image, source.recoloured (output.format.grids input.size) = .ok image ∧
      (convert.run input output).Draws image output := by
  obtain ⟨image, himage⟩ := Picture.exists_recoloured converts input.format_ne_unknown
    output.format_ne_unknown (Frame.grids_picture hsource)
  exact ⟨image, himage, run_draws ⟨Frame.nonempty_of_picture hsource,
    Frame.nonempty_of_writable htarget, converts.distinct, size.symm⟩ hsource htarget
    (size ▸ himage)⟩

/-- A picture that was carried into a frame is converted as it would have been before. -/
theorem Outcome.Carries.convert {r : Outcome} {between : Frame} {image : Picture} {f : Motion}
    {size : Size} {format : Format} (carried : r.Carries f size source between)
    (sound : between.Sound) (whole : between.size = f.size size)
    (between_format : between.format = format) (hsource : source.grids = format.grids size)
    (htarget : output.writable = .ok target) (converts : format.Converts output.format)
    (even : format.Mixes output.format → size.IsEven) (output_size : output.size = f.size size)
    (himage : source.recoloured (output.format.grids size) = .ok image) :
    (Primitive.convert.run r.frame output).Carries f size image output := by
  subst between_format
  obtain ⟨shown, hshown, moved⟩ := carried.shows sound whole
  obtain ⟨shown_size, -, shown_format⟩ := Metadata.mk.inj carried.metadata
  obtain ⟨result, hresult, drawn⟩ := Primitive.convert_draws hshown htarget
    (by rw [shown_format]; exact converts) (by rw [shown_size, whole]; exact output_size)
  have grids := Frame.grids_picture hshown
  rw [shown_size, whole] at hresult grids
  rw [shown_format] at grids
  obtain ⟨result', hresult', moved'⟩ := moved.recoloured hsource grids between.format_ne_unknown
    output.format_ne_unknown even himage
  obtain rfl := Except.ok.inj (hresult.symm.trans hresult')
  exact ⟨result, drawn, moved'⟩

/-- Converting a frame and orienting the result into an output is orienting the frame and
converting the result into that output: both succeed and write the same bytes, and a sound output
shows the converted picture oriented. Sides have to be even only where the conversion averages
chroma or spreads it. -/
theorem Engine.convert_orient_comm (hsource : input.picture = .ok source)
    (converts : input.format.Converts output.format)
    (even : input.format.Mixes output.format → input.size.IsEven)
    (converted_sound : converted.Sound)
    (converted_metadata : converted.metadata = ⟨input.size, input.orientation, output.format⟩)
    (oriented_sound : oriented.Sound)
    (oriented_metadata : oriented.metadata =
      ⟨orientedSize input.size input.orientation output.orientation, output.orientation,
        input.format⟩)
    (htarget : output.writable = .ok target)
    (size : output.size = orientedSize input.size input.orientation output.orientation) :
    let first : Outcome := software.call .convert input converted
    let second : Outcome := software.orient input oriented
    first.status = .ok () ∧ second.status = .ok () ∧
      (software.orient first.frame output : Outcome).status = .ok () ∧
        (software.orient first.frame output : Outcome) =
          software.call .convert second.frame output ∧
        (output.Sound → ∃ image shown,
          source.recoloured (output.format.grids input.size) = .ok image ∧
          (software.orient first.frame output : Outcome).frame.picture = .ok shown ∧
            image.Carried (.ofChange (.between input.orientation output.orientation)) input.size
              shown) := by
  have ⟨_, converted_target, _⟩ := converted_sound
  have ⟨_, oriented_target, _⟩ := oriented_sound
  obtain ⟨converted_size, converted_orientation, converted_format⟩ :=
    Metadata.mk.inj converted_metadata
  obtain ⟨oriented_size, oriented_orientation, oriented_format⟩ :=
    Metadata.mk.inj oriented_metadata
  have whole :=
    (Motion.size_ofChange (.between input.orientation output.orientation) input.size).symm
  obtain ⟨image, himage, drawn⟩ := Primitive.convert_draws hsource converted_target
    (by rw [converted_format]; exact converts) converted_size
  have turned := drawn.orient_carries converted_sound htarget
    (by rw [converted_format, Format.compatible_refl])
    (by rw [converted_size, converted_orientation]; exact size)
  have carried := orient_carries hsource oriented_target
    (by rw [oriented_format, Format.compatible_refl])
    (by rw [oriented_orientation]; exact oriented_size)
  rw [converted_size, converted_orientation] at turned
  rw [oriented_orientation] at carried
  rw [converted_format] at himage
  have recoloured := carried.convert oriented_sound (oriented_size.trans whole) oriented_format
    (Frame.grids_picture hsource) htarget converts even (size.trans whole) himage
  refine ⟨drawn.status, carried.status, turned.status,
    turned.unique recoloured (size.trans whole), fun sound => ?_⟩
  obtain ⟨shown, hshown, moved⟩ := turned.shows sound (size.trans whole)
  exact ⟨image, shown, himage, hshown, moved⟩

/-- Two rows of four pixels, in two blocks of different colours. -/
def Frame.rgbBlocks : Frame :=
  ⟨[⟨#[255, 0, 0, 250, 5, 0, 0, 0, 255, 9, 9, 200, 240, 0, 9, 255, 8, 0, 0, 7, 255, 0, 0, 90],
    ⟨12, 3⟩⟩], ⟨4, 2⟩, .rgb, .topLeft, none, rfl, by simp [Stride.hasZero]⟩

/-- Both blocks keep their chroma when rows become columns. -/
theorem Engine.convert_orient_comm_blocks : ∃ converted oriented output : Frame,
    Frame.zeroed ⟨⟨4, 2⟩, .topLeft, .nv12⟩ = .ok converted ∧
    Frame.zeroed ⟨⟨2, 4⟩, .leftTop, .rgb⟩ = .ok oriented ∧
    Frame.zeroed ⟨⟨2, 4⟩, .leftTop, .nv12⟩ = .ok output ∧
      (software.orient (software.call .convert .rgbBlocks converted : Outcome).frame output :
        Outcome) =
      software.call .convert (software.orient .rgbBlocks oriented : Outcome).frame output := by
  obtain ⟨converted, hconverted⟩ := Frame.zeroed_ok (m := ⟨⟨4, 2⟩, .topLeft, .nv12⟩) rfl nofun
  obtain ⟨oriented, horiented⟩ := Frame.zeroed_ok (m := ⟨⟨2, 4⟩, .leftTop, .rgb⟩) rfl nofun
  obtain ⟨output, houtput⟩ := Frame.zeroed_ok (m := ⟨⟨2, 4⟩, .leftTop, .nv12⟩) rfl nofun
  obtain ⟨output_size, output_orientation, output_format⟩ :=
    Metadata.mk.inj (Frame.metadata_ofBuffer houtput)
  obtain ⟨target, htarget, -⟩ := Frame.sound_ofBuffer houtput
  obtain ⟨source, hsource⟩ : ∃ source, Frame.rgbBlocks.picture = .ok source := ⟨_, rfl⟩
  obtain ⟨-, -, -, same, -⟩ := @convert_orient_comm .rgbBlocks converted oriented output source
    target hsource (by rw [output_format]; exact ⟨by decide, by decide⟩) (fun _ => by decide)
    (Frame.sound_ofBuffer hconverted)
    (by rw [Frame.metadata_ofBuffer hconverted, output_format]; rfl)
    (Frame.sound_ofBuffer horiented)
    (by rw [Frame.metadata_ofBuffer horiented, output_orientation]; rfl) htarget
    (by rw [output_size, output_orientation]; rfl)
  exact ⟨converted, oriented, output, hconverted, horiented, houtput, same⟩

end

end Raster
