import Raster.Proofs.Engine.Conversion
import Raster.Proofs.Engine.Storage
import Raster.Proofs.Frame.Factories
import Raster.Proofs.Samples.RoundTrip

/-!
# Conversions there and back

A frame is converted into another format, and the result back into the first one. Between colours
with and without alpha, from gray to colours and between YUV formats nothing is lost, whatever the
storage of the frames. Colours that go by way of luma and chroma come back almost as they were, if
each block has one colour.

* `Format.Invertible` — pairs of formats where the way back undoes the way there.

Results: `Primitive.convert_twice` (two conversions convert the picture twice),
`Engine.convert_back` (the lossless pairs) and `Engine.convert_back_near` (colours by way of luma
and chroma).
-/

namespace Raster

/-! ## Pairs of formats -/

/-- Conversions that lose nothing: from gray or colours to colours, and between YUV formats. Of
alpha this is only true where no pixel is transparent. -/
structure Format.Invertible (a b : Format) : Prop where
  distinct : a ≠ b
  keeps : (a = gray ∨ a.IsRgb) ∧ b.IsRgb ∨ a.isYuv = true ∧ b.isYuv = true

namespace Format.Invertible

variable {a b : Format}

theorem converts (h : a.Invertible b) : a.Converts b where
  distinct := h.distinct
  coloured := by
    rintro ⟨rfl, yuv⟩
    rcases h.keeps with ⟨-, rfl | rfl⟩ | ⟨gray, -⟩
    · cases yuv
    · cases yuv
    · cases gray

theorem converts_back (h : a.Invertible b) : b.Converts a where
  distinct := h.distinct.symm
  coloured := by
    rintro ⟨rfl, yuv⟩
    rcases h.keeps with ⟨-, rgb⟩ | ⟨-, gray⟩
    · exact absurd rgb (by decide)
    · cases gray

/-- Luma and chroma are kept in no other format than a YUV format. -/
theorem isYuv (h : a.Invertible b) (yuv : a.isYuv = true) : b.isYuv = true := by
  rcases h.keeps with ⟨rfl | rfl | rfl, -⟩ | ⟨-, other⟩
  · cases yuv
  · cases yuv
  · cases yuv
  · exact other

end Format.Invertible

/-- Luma and chroma become gray or colours. -/
theorem Format.converts_packed {a b : Format} (yuv : a.isYuv = true) (packed : b.isYuv = false) :
    a.Converts b where
  distinct := by
    rintro rfl
    rw [yuv] at packed
    cases packed
  coloured := by
    rintro ⟨-, other⟩
    rw [packed] at other
    cases other

/-- Colours have red, green and blue, and at most alpha besides. -/
theorem Format.IsRgb.channels {format : Format} (h : format.IsRgb) :
    ∃ n, format.channels = some n ∧ 3 ≤ n ∧ n ≤ 4 := by
  rcases h with rfl | rfl
  · exact ⟨3, rfl, by decide⟩
  · exact ⟨4, rfl, by decide⟩

theorem Format.IsRgb.isYuv {format : Format} (h : format.IsRgb) : format.isYuv = false := by
  rcases h with rfl | rfl
  · rfl
  · rfl

theorem Format.IsRgb.converts_yuv {a b : Format} (h : a.IsRgb) (yuv : b.isYuv = true) :
    a.Converts b where
  distinct := by
    rintro rfl
    rw [h.isYuv] at yuv
    cases yuv
  coloured := by
    rintro ⟨rfl, -⟩
    exact absurd h (by decide)

/-! ## Pictures -/

namespace Picture

variable {format other : Format} {size : Size} {p image : Picture}

/-- No pixel of the picture is transparent. -/
def Solid : Picture → Prop
  | packed s => s.Solid
  | yuv _ _ _ => True

/-- Between YUV formats, grids are copied. -/
theorem recoloured_yuv_agree (yuv : format.isYuv = true) (known : format ≠ .unknown)
    (other_yuv : other.isYuv = true) (other_known : other ≠ .unknown)
    (hp : p.grids = format.grids size) :
    ∃ image, p.recoloured (other.grids size) = .ok image ∧ image.Agree p := by
  rw [Format.grids_yuv ((Format.channels_eq_none_iff known).2 yuv)] at hp
  rw [Format.grids_yuv ((Format.channels_eq_none_iff other_known).2 other_yuv)]
  obtain ⟨y, u, v, rfl, hy, hu, hv⟩ := eq_yuv hp
  have copy {s : Samples} {e : Extent} (h : s.toExtent = e) : (s.part 0 0 e).Agree s := by
    subst h
    exact s.part_same
  exact ⟨_, rfl, .yuv (copy hy) (copy hu) (copy hv)⟩

/-- What a lossless conversion made of a picture is converted back into this picture. -/
theorem recoloured_back (invertible : format.Invertible other) (known : format ≠ .unknown)
    (other_known : other ≠ .unknown) (solid : format = .rgba → p.Solid)
    (hp : p.grids = format.grids size) (himage : p.recoloured (other.grids size) = .ok image) :
    ∃ back, image.recoloured (format.grids size) = .ok back ∧ back.Agree p := by
  rcases invertible.keeps with ⟨source, colours⟩ | ⟨yuv, other_yuv⟩
  · obtain ⟨k, hk, many, -⟩ := colours.channels
    obtain ⟨n, hn, few⟩ : ∃ n, format.channels = some n ∧ (n = 1 ∨ 3 ≤ n ∧ n ≤ 4) := by
      rcases source with rfl | rgb
      · exact ⟨1, rfl, .inl rfl⟩
      · obtain ⟨n, hn, few⟩ := rgb.channels
        exact ⟨n, hn, .inr few⟩
    rw [Format.grids_packed hn] at hp ⊢
    rw [Format.grids_packed hk] at himage
    obtain ⟨s, rfl, hs⟩ := eq_packed hp
    obtain rfl := Except.ok.inj himage
    refine ⟨_, rfl, .packed ?_⟩
    rw [← hs]
    refine s.repacked_back _ many (by rwa [hs]) fun lost => ?_
    -- only alpha can be lost
    rw [hs] at lost
    have lost : k < n := lost
    refine solid ?_
    rcases source with rfl | rfl | rfl
    · cases hn
      omega
    · cases hn
      omega
    · rfl
  · obtain ⟨copy, hcopy, agree⟩ := recoloured_yuv_agree yuv known other_yuv other_known hp
    obtain rfl := Except.ok.inj (himage.symm.trans hcopy)
    obtain ⟨back, hback, agree'⟩ :=
      recoloured_yuv_agree other_yuv other_known yuv known (grids_recoloured himage)
    exact ⟨back, hback, agree'.trans agree⟩

/-- Pixels in flat blocks come back from luma and chroma with each value changed by at most 3. -/
theorem recoloured_near {s : Samples} {back : Format} {image' : Picture} (flat : s.FlatBlocks)
    (rgb : format.IsRgb) (yuv : other.isYuv = true) (other_known : other ≠ .unknown)
    (back_rgb : back.IsRgb) (hp : (packed s).grids = format.grids size)
    (himage : (packed s).recoloured (other.grids size) = .ok image)
    (himage' : image.recoloured (back.grids size) = .ok image') :
    ∃ t, image' = packed t ∧ t.size = size ∧ 3 ≤ t.channels ∧
      ∀ x y c, x < size.width → y < size.height → c < 3 →
        Near 3 (t.value x y c) (s.value x y c) := by
  obtain ⟨n, hn, many, -⟩ := rgb.channels
  obtain ⟨k, hk, back_many, -⟩ := back_rgb.channels
  rw [Format.grids_packed hn] at hp
  have extent : s.toExtent = ⟨size.width, size.height, n⟩ := Grids.packed.inj hp
  have colours : ¬s.channels < 3 := by
    rw [extent]
    exact Nat.not_lt.2 many
  have back_colours : k ≠ 1 := by omega
  rw [Format.grids_yuv ((Format.channels_eq_none_iff other_known).2 yuv), recoloured,
    if_neg colours] at himage
  obtain rfl := Except.ok.inj himage
  rw [Format.grids_packed hk, recoloured, if_neg back_colours] at himage'
  obtain rfl := Except.ok.inj himage'
  refine ⟨_, rfl, rfl, back_many, fun x y c hx hy hc => ?_⟩
  exact flat.coloured_near (by rwa [extent]) (by rwa [extent]) hc

end Picture

/-! ## Frames -/

section

variable {input between output : Frame} {source : Picture} {target : Canvas}

/-- Two conversions, by way of a sound frame, draw the picture converted twice. -/
theorem Primitive.convert_twice (hsource : input.picture = .ok source)
    (converts : input.format.Converts between.format) (between_sound : between.Sound)
    (between_size : between.size = input.size) (back : between.format.Converts output.format)
    (htarget : output.writable = .ok target) (output_size : output.size = input.size) :
    ∃ image image', source.recoloured (between.format.grids input.size) = .ok image ∧
      image.recoloured (output.format.grids input.size) = .ok image' ∧
        (convert.run input between).Draws image between ∧
          (convert.run (convert.run input between).frame output).Draws image' output := by
  have ⟨_, between_target, _⟩ := between_sound
  obtain ⟨image, himage, drawn⟩ := convert_draws hsource between_target converts between_size
  obtain ⟨shown, hshown, agree⟩ := drawn.shows between_sound
  obtain ⟨shown_size, -, shown_format⟩ := Metadata.mk.inj drawn.metadata
  have shown_size := shown_size.trans between_size
  obtain ⟨result, hresult, drawn'⟩ := convert_draws hshown htarget
    (by rw [shown_format]; exact back) (output_size.trans shown_size.symm)
  rw [shown_size] at hresult
  have same : SamePicture (shown.recoloured (output.format.grids input.size))
      (image.recoloured (output.format.grids input.size)) :=
    Picture.recoloured_agree (agree.grids.trans (Picture.grids_recoloured himage)) agree
  rw [hresult] at same
  rcases same.error_or_ok with ⟨e, failed, -⟩ | ⟨_, image', ok, himage', agree'⟩
  · cases failed
  · obtain rfl := Except.ok.inj ok
    exact ⟨image, image', himage, himage', drawn, drawn'.congr agree'⟩

/-- A conversion that keeps the grids of a picture makes no difference to a later one. -/
theorem Primitive.convert_through (hsource : input.picture = .ok source)
    (converts : input.format.Converts between.format) (between_sound : between.Sound)
    (between_size : between.size = input.size) (back : between.format.Converts output.format)
    (direct : input.format.Converts output.format) (htarget : output.writable = .ok target)
    (output_size : output.size = input.size)
    (kept : ∀ image, source.recoloured (between.format.grids input.size) = .ok image →
      image.Agree source) :
    (convert.run input output).status = .ok () ∧
      convert.run (convert.run input between).frame output = convert.run input output := by
  obtain ⟨image, image', himage, himage', -, drawn⟩ := convert_twice hsource converts between_sound
    between_size back htarget output_size
  obtain ⟨once, honce, drawn'⟩ := convert_draws hsource htarget direct output_size
  have same : SamePicture (image.recoloured (output.format.grids input.size))
      (source.recoloured (output.format.grids input.size)) :=
    Picture.recoloured_agree (Picture.grids_recoloured himage) (kept image himage)
  rw [himage', honce] at same
  cases same with
  | ok agree => exact ⟨drawn'.status, drawn.unique drawn' agree⟩

/-- Three rows of three pixels in flat blocks, with a spare byte after each row. -/
def Frame.rgbFlat : Frame :=
  ⟨[⟨#[11, 255, 2, 11, 255, 2, 0, 4, 230, 99, 11, 255, 2, 11, 255, 2, 0, 4, 230, 99, 255, 0, 0, 255,
    0, 0, 9, 9, 200, 99], ⟨10, 3⟩⟩], ⟨3, 3⟩, .rgb, .topLeft, none, rfl, by simp [Stride.hasZero]⟩

namespace Engine

/-- Lossless conversions are undone by the conversion back: the picture comes back as it was, if
alpha is 255 wherever there is alpha. A conversion between YUV formats makes no difference to gray
or colours either: they are the same before and after it. -/
theorem convert_back (hsource : input.picture = .ok source)
    (invertible : input.format.Invertible between.format)
    (solid : input.format = .rgba → source.Solid) (between_sound : between.Sound)
    (between_size : between.size = input.size) (output_sound : output.Sound)
    (output_size : output.size = input.size) (output_format : output.format = input.format) :
    let first : Outcome := software.call .convert input between
    let second : Outcome := software.call .convert first.frame output
    first.status = .ok () ∧ second.status = .ok () ∧
      (∃ shown, second.frame.picture = .ok shown ∧ shown.Agree source) ∧
      (input.format.isYuv = true → ∀ packed : Frame, packed.format.isYuv = false →
        packed.size = input.size → packed.Resolves →
          (software.call .convert input packed : Outcome).status = .ok () ∧
            software.call .convert first.frame packed = software.call .convert input packed) := by
  have ⟨_, htarget, _⟩ := output_sound
  have grids := Frame.grids_picture hsource
  obtain ⟨image, image', himage, himage', drawn, drawn'⟩ := Primitive.convert_twice hsource
    invertible.converts between_sound between_size
    (by rw [output_format]; exact invertible.converts_back) htarget output_size
  obtain ⟨shown, hshown, agree⟩ := drawn'.shows output_sound
  obtain ⟨back, hback, same⟩ := Picture.recoloured_back invertible input.format_ne_unknown
    between.format_ne_unknown solid grids himage
  rw [output_format] at himage'
  obtain rfl := Except.ok.inj (himage'.symm.trans hback)
  refine ⟨drawn.status, drawn'.status, ⟨shown, hshown, agree.trans same⟩, ?_⟩
  rintro yuv packed packed_format packed_size ⟨c, -, hc⟩
  have between_yuv := invertible.isYuv yuv
  refine Primitive.convert_through hsource invertible.converts between_sound between_size
    (Format.converts_packed between_yuv packed_format) (Format.converts_packed yuv packed_format) hc
    packed_size fun other hother => ?_
  obtain ⟨copy, hcopy, kept⟩ := Picture.recoloured_yuv_agree yuv input.format_ne_unknown
    between_yuv between.format_ne_unknown grids
  obtain rfl := Except.ok.inj (hother.symm.trans hcopy)
  exact kept

/-- A row in one plane goes by way of three planes with V before U. -/
theorem convert_back_strip : ∃ between output gray : Frame, ∃ source shown : Picture,
    Frame.zeroed ⟨⟨3, 1⟩, .topLeft, .yv12⟩ = .ok between ∧
    Frame.zeroed ⟨⟨3, 1⟩, .topLeft, .nv12⟩ = .ok output ∧
    Frame.zeroed ⟨⟨3, 1⟩, .topLeft, .gray⟩ = .ok gray ∧
      let first : Outcome := software.call .convert (.nv12Strip 99) between
      let second : Outcome := software.call .convert first.frame output
      second.status = .ok () ∧ (Frame.nv12Strip 99).picture = .ok source ∧
        second.frame.picture = .ok shown ∧ shown.Agree source ∧
          software.call .convert first.frame gray = software.call .convert (.nv12Strip 99) gray := by
  obtain ⟨between, hbetween, between_sound, between_metadata⟩ :=
    Frame.exists_zeroed ⟨⟨3, 1⟩, .topLeft, .yv12⟩ rfl nofun
  obtain ⟨output, houtput, output_sound, output_metadata⟩ :=
    Frame.exists_zeroed ⟨⟨3, 1⟩, .topLeft, .nv12⟩ rfl nofun
  obtain ⟨gray, hgray, gray_sound, gray_metadata⟩ :=
    Frame.exists_zeroed ⟨⟨3, 1⟩, .topLeft, .gray⟩ rfl nofun
  obtain ⟨between_size, -, between_format⟩ := Metadata.mk.inj between_metadata
  obtain ⟨output_size, -, output_format⟩ := Metadata.mk.inj output_metadata
  obtain ⟨gray_size, -, gray_format⟩ := Metadata.mk.inj gray_metadata
  obtain ⟨source, hsource⟩ : ∃ source, (Frame.nv12Strip 99).picture = .ok source := ⟨_, rfl⟩
  obtain ⟨-, done, ⟨shown, hshown, agree⟩, packed⟩ := convert_back hsource
    (by rw [between_format]; exact ⟨by decide, .inr ⟨rfl, rfl⟩⟩) nofun
    between_sound between_size output_sound output_size output_format
  obtain ⟨-, same⟩ := packed rfl gray (by rw [gray_format]; rfl) gray_size gray_sound.resolves
  exact ⟨between, output, gray, source, shown, hbetween, houtput, hgray, done, hsource, hshown, agree,
    same⟩

/-- Colours in flat blocks come back from every YUV format with each value changed by at most 3. -/
theorem convert_back_near {s : Samples} (hsource : input.picture = .ok (.packed s))
    (rgb : input.format.IsRgb) (flat : s.FlatBlocks) (yuv : between.format.isYuv = true)
    (between_sound : between.Sound) (between_size : between.size = input.size)
    (output_rgb : output.format.IsRgb) (output_sound : output.Sound)
    (output_size : output.size = input.size) :
    let first : Outcome := software.call .convert input between
    let second : Outcome := software.call .convert first.frame output
    first.status = .ok () ∧ second.status = .ok () ∧
      ∃ t, second.frame.picture = .ok (.packed t) ∧ t.size = input.size ∧
        ∀ x y c, x < input.size.width → y < input.size.height → c < 3 →
          Near 3 (t.value x y c) (s.value x y c) := by
  have ⟨_, htarget, _⟩ := output_sound
  obtain ⟨image, image', himage, himage', drawn, drawn'⟩ := Primitive.convert_twice hsource
    (rgb.converts_yuv yuv) between_sound between_size
    (Format.converts_packed yuv output_rgb.isYuv) htarget output_size
  obtain ⟨t, rfl, size, colours, near⟩ := Picture.recoloured_near flat rgb yuv
    between.format_ne_unknown output_rgb (Frame.grids_picture hsource) himage himage'
  obtain ⟨shown, hshown, agree⟩ := drawn'.shows output_sound
  cases agree with
  | packed agree =>
    refine ⟨drawn.status, drawn'.status, _, hshown, ?_, fun x y c hx hy hc => ?_⟩
    · rw [agree.extent, size]
    · have inside : x < t.width ∧ y < t.height ∧ c < t.channels := by
        rw [← size] at hx hy
        exact ⟨hx, hy, Nat.lt_of_lt_of_le hc colours⟩
      rw [← agree.symm.value x y c inside.1 inside.2.1 inside.2.2]
      exact near x y c hx hy hc

/-- A block of four pixels and three blocks that the edge cuts off, by way of pairs of V and U. -/
theorem convert_back_near_edges : ∃ between output : Frame, ∃ s t : Samples,
    Frame.zeroed ⟨⟨3, 3⟩, .topLeft, .nv21⟩ = .ok between ∧
    Frame.zeroed ⟨⟨3, 3⟩, .topLeft, .rgba⟩ = .ok output ∧
      let first : Outcome := software.call .convert .rgbFlat between
      let second : Outcome := software.call .convert first.frame output
      second.status = .ok () ∧ Frame.rgbFlat.picture = .ok (.packed s) ∧ s.FlatBlocks ∧
        second.frame.picture = .ok (.packed t) ∧
          ∀ x y c, x < 3 → y < 3 → c < 3 → Near 3 (t.value x y c) (s.value x y c) := by
  obtain ⟨between, hbetween, between_sound, between_metadata⟩ :=
    Frame.exists_zeroed ⟨⟨3, 3⟩, .topLeft, .nv21⟩ rfl nofun
  obtain ⟨output, houtput, output_sound, output_metadata⟩ :=
    Frame.exists_zeroed ⟨⟨3, 3⟩, .topLeft, .rgba⟩ rfl nofun
  obtain ⟨between_size, -, between_format⟩ := Metadata.mk.inj between_metadata
  obtain ⟨output_size, -, output_format⟩ := Metadata.mk.inj output_metadata
  obtain ⟨s, hsource, flat⟩ : ∃ s, Frame.rgbFlat.picture = .ok (.packed s) ∧ s.FlatBlocks :=
    ⟨_, rfl, by decide +kernel⟩
  obtain ⟨-, done, t, hshown, -, near⟩ := convert_back_near hsource (.inl rfl) flat
    (by rw [between_format]; rfl) between_sound between_size
    (by rw [output_format]; exact .inr rfl) output_sound output_size
  exact ⟨between, output, s, t, hbetween, houtput, done, hsource, flat, hshown, near⟩

end Engine

end

end Raster
