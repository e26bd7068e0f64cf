import Raster.Proofs.Engine.Preprocess
import Raster.Proofs.Engine.Window
import Raster.Proofs.Samples.Cutting

/-!
# Cropping and orienting

A crop into an output of its own size copies the samples in the box. So it makes no difference
whether the engine crops a box and then orients the part, or orients the whole frame and then
crops the box that `orientBox` finds. Chroma asks for even sides and corners.

* `Box.crop` — the move that crops a box.

Results: `Primitive.crop_carries` (a crop at its own size carries the part in the box),
`Primitive.crop_shows` (in the same format it shows the part, sample by sample) and
`Engine.crop_orient_comm` (both ways end in the same outcome).
-/

namespace Raster

/-! ## Crops at their own size -/

/-- The move that crops a box, by its inclusive corners. -/
def Box.crop (b : Box) : Move := .crop b.x b.y (b.right - 1) (b.bottom - 1)

/-- Corners that span a box crop it. -/
theorem Box.crop_of_corners {b : Box} {x0 y0 x1 y1 : Nat}
    (corners : Box.ofCorners? x0 y0 x1 y1 = some b) :
    b.crop = .crop x0 y0 x1 y1 ∧ b.isEmpty = false := by
  unfold ofCorners? at corners
  split at corners
  · cases corners
  · next ordered =>
    obtain rfl := Option.some.inj corners
    refine ⟨?_, Size.isEmpty_eq_false.2 ⟨Nat.succ_pos _, Nat.succ_pos _⟩⟩
    unfold crop right bottom
    congr 1 <;> dsimp only <;> omega

section

variable {b b' : Box} {size : Size} {format targetFormat : Format} {source : Picture}
  {input cropped turned output : Frame} {target : Canvas}

theorem Box.suits_crop (nonempty : b.isEmpty = false) (inside : size.containsBox b = true)
    (targetSize : Size) : b.crop.Suits size targetSize := by
  obtain ⟨right, bottom⟩ := Size.containsBox_iff.1 inside
  obtain ⟨width, height⟩ : 0 < b.width ∧ 0 < b.height := Size.isEmpty_eq_false.1 nonempty
  unfold Box.right at right
  unfold Box.bottom at bottom
  show b.x ≤ b.x + b.width - 1 ∧ b.x + b.width - 1 < size.width ∧
    b.y ≤ b.y + b.height - 1 ∧ b.y + b.height - 1 < size.height
  omega

theorem Box.crop_grid (nonempty : b.isEmpty = false) (s : Samples) (extent : Extent) :
    b.crop.grid s extent = s.scaled .centred b.region extent :=
  congrArg (s.scaled .centred · extent) (Move.cropRegion_corners nonempty)

/-- The halved grid goes on far enough for half of the box, rounded up. -/
theorem Box.crop_chromaRegion (nonempty : b.isEmpty = false) (inside : size.containsBox b = true) :
    Move.chromaCropRegion b.x b.y (b.right - 1) (b.bottom - 1) size.halved = b.halved.region := by
  obtain ⟨right, bottom⟩ := Size.containsBox_iff.1 inside
  obtain ⟨width, height⟩ : 0 < b.width ∧ 0 < b.height := Size.isEmpty_eq_false.1 nonempty
  unfold Box.right at right
  unfold Box.bottom at bottom
  unfold Move.chromaCropRegion region halved Box.right Box.bottom Size.halved
  congr 1 <;> dsimp only <;> omega

theorem Box.crop_chromaGrid {s : Samples} (hs : s.size = size.halved) (nonempty : b.isEmpty = false)
    (inside : size.containsBox b = true) (extent : Extent) :
    b.crop.chromaGrid s extent = s.scaled .centred b.halved.region extent := by
  have region := crop_chromaRegion nonempty inside
  rw [← hs] at region
  exact congrArg (s.scaled .centred · extent) region

/-- A crop follows the taps that scale a frame of the size of the box. -/
theorem Box.crop_staysInside_iff (nonempty : b.isEmpty = false)
    (inside : size.containsBox b = true) (targetSize : Size) :
    b.crop.StaysInside format size targetSize ↔
      Move.resize.StaysInside format b.size targetSize := by
  have grid : b.crop.region? size = some b.region :=
    congrArg some (Move.cropRegion_corners nonempty)
  have chroma : b.crop.chromaRegion? size.halved = some b.halved.region :=
    congrArg some (crop_chromaRegion nonempty inside)
  rw [Move.staysInside_iff grid chroma, Move.staysInside_iff (m := .resize) rfl rfl]
  exact Iff.rfl

/-- A region of the size of the target is copied. -/
theorem Samples.cut_carried_scaled (s : Samples) (b : Box) {extent : Extent}
    (whole : extent.size = b.size) :
    (s.cut b).Carried (.turn .deg0) b.size (s.scaled .centred b.region extent) := by
  obtain ⟨width, height⟩ := Size.mk.inj whole
  unfold scaled
  rw [if_pos ⟨width.symm, height.symm⟩]
  exact fun _ _ _ _ _ _ => rfl

/-- A crop at its own size keeps the samples in the box. -/
theorem Picture.cut_carried (compatible : format.compatible targetFormat = true)
    (hsource : source.grids = format.grids size) (nonempty : b.isEmpty = false)
    (inside : size.containsBox b = true) : (source.cut b).Carried (.turn .deg0) b.size
      (b.crop.image source (targetFormat.grids b.size)) := by
  rcases Picture.eq_of_compatible compatible hsource b.size with
    ⟨s, n, k, rfl, hs, grids, -⟩ | ⟨y, u, v, rfl, hy, hu, hv, grids⟩
  · rw [grids]
    let extent : Extent := ⟨b.size.width, b.size.height, k⟩
    have whole : extent.size = b.size := rfl
    have carried := (s.take (min k s.channels)).cut_carried_scaled b whole
    have narrowed : (s.take (min k s.channels)).cut b = (s.cut b).take (min k s.channels) := rfl
    rw [narrowed, ← Box.crop_grid nonempty] at carried
    refine .packed (carried.of_take fun c hc => ?_)
    rw [Move.toExtent_grid] at hc
    show c < min k s.channels ↔ c < s.channels
    have hc : c < k := hc
    omega
  · rw [grids]
    simp only [Move.image, Box.crop_grid nonempty,
      Box.crop_chromaGrid (Extent.size_eq hu) nonempty inside,
      Box.crop_chromaGrid (Extent.size_eq hv) nonempty inside]
    exact .yuv (y.cut_carried_scaled b rfl) (u.cut_carried_scaled b.halved rfl)
      (v.cut_carried_scaled b.halved rfl)

/-- A crop at its own size shows the part in the box. -/
theorem Primitive.crop_carries (hsource : input.picture = .ok source)
    (htarget : output.writable = .ok target)
    (compatible : input.format.compatible output.format = true) (nonempty : b.isEmpty = false)
    (inside : input.size.containsBox b = true) (size : output.size = b.size) :
    ((move b.crop).run input output).Carries (.turn .deg0) b.size (source.cut b) output := by
  refine ⟨_, run_draws ⟨Frame.nonempty_of_picture hsource, Frame.nonempty_of_writable htarget,
    compatible, b.suits_crop nonempty inside _⟩ hsource htarget rfl, ?_⟩
  rw [size]
  exact Picture.cut_carried compatible (Frame.grids_picture hsource) nonempty inside

/-- In the format of the source it is the part in the box. -/
theorem Picture.crop_agree_cut (hsource : source.grids = format.grids size)
    (nonempty : b.isEmpty = false) (inside : size.containsBox b = true) :
    (b.crop.image source (format.grids b.size)).Agree (source.cut b) := by
  have carried := Picture.cut_carried (format.compatible_refl) hsource nonempty inside
  have grids := b.crop.grids_image format.compatible_refl hsource b.size
  exact carried.unique (.refl _ _) grids (grids.trans (Picture.grids_cut b hsource).symm)

/-- A crop into a sound frame of the same format shows the samples in the box, one by one. -/
theorem Primitive.crop_shows (hsource : input.picture = .ok source) (sound : cropped.Sound)
    (size : cropped.size = b.size) (format : cropped.format = input.format)
    (nonempty : b.isEmpty = false) (inside : input.size.containsBox b = true) :
    let first := (move b.crop).run input cropped
    (first.status = .ok () ∧ first.frame.metadata = cropped.metadata) ∧
      ∃ shown, first.frame.picture = .ok shown ∧ shown.Agree (source.cut b) := by
  intro first
  have ⟨target, htarget, _⟩ := sound
  have grids := Frame.grids_picture hsource
  have accepts : (move b.crop).Accepts input.metadata cropped.metadata :=
    ⟨Frame.nonempty_of_picture hsource, Frame.nonempty_of_writable htarget, by
      show input.format.compatible cropped.format = true
      rw [format, Format.compatible_refl], b.suits_crop nonempty inside _⟩
  have drawn := run_draws accepts hsource htarget rfl
  obtain ⟨shown, hshown, agree⟩ := drawn.shows sound
  rw [size, format] at agree
  exact ⟨⟨drawn.status, drawn.metadata⟩, shown, hshown,
    agree.trans (Picture.crop_agree_cut grids nonempty inside)⟩

theorem Size.InRange.orientedSize (range : size.InRange) (source target : Orientation) :
    (Raster.orientedSize size source target).InRange := by
  show (((Reorientation.between source target).rotation).size size).InRange
  cases (Reorientation.between source target).rotation with
  | deg0 | deg180 => exact range
  | deg90 | deg270 => exact ⟨range.2, range.1⟩

/-- Boxes of frames with sides of 32 bits have corners of 32 bits. -/
theorem Engine.cropBox_eq_crop (nonempty : b.isEmpty = false)
    (inside : size.containsBox b = true) (range : size.InRange) (input output : Frame) :
    (software.cropBox b input output : Outcome) = software.call (.move b.crop) input output := by
  have accepted := (Box.verdict_eq_ok range).2 ⟨nonempty, inside⟩
  obtain ⟨p, hp, -⟩ := bind_eq_ok.1 accepted
  obtain ⟨-, rfl⟩ := Box.toCrop_eq_ok hp
  unfold cropBox
  rw [hp]
  rfl

/-! ## Crops and changes of orientation -/

/-- A crop of what was carried into a frame is carried from the box that was taken to it. -/
theorem Outcome.Carries.crop {r : Outcome} {between : Frame} {f : Motion}
    (carried : r.Carries f size source between) (sound : between.Sound)
    (whole : between.size = f.size size) (takes : f.TakesBox size b b')
    (nonempty : b.isEmpty = false) (hsource : source.grids = between.format.grids size)
    (even : between.format.isYuv = true → size.IsEven ∧ b.IsEven ∧ b'.IsEven)
    (htarget : output.writable = .ok target)
    (compatible : between.format.compatible output.format = true)
    (output_size : output.size = f.size b.size) :
    ((Primitive.move b'.crop).run r.frame output).Carries f b.size (source.cut b) output := by
  obtain ⟨shown, hshown, moved⟩ := carried.shows sound whole
  obtain ⟨shown_size, -, shown_format⟩ := Metadata.mk.inj carried.metadata
  have grids := Frame.grids_picture hshown
  rw [shown_size, shown_format, whole] at grids
  have part := Primitive.crop_carries hshown htarget (by rw [shown_format]; exact compatible)
    (takes.isEmpty nonempty) (by rw [shown_size, whole]; exact takes.lands)
    (output_size.trans takes.size.symm)
  have parts := moved.cut takes hsource fun separate =>
    even ((Format.channels_eq_none_iff between.format_ne_unknown).1 separate)
  have cut_grids := Picture.grids_cut b' grids
  rw [takes.size] at part cut_grids
  exact (part.of_carried parts (Picture.grids_cut b hsource) cut_grids).of_agree
    (Motion.andThen_deg0 f)

/-- Cropping a box at its own size and orienting the part into an output is orienting the whole
frame and cropping the oriented box into that output: both succeed and write the same bytes, and
a sound output shows the oriented part. Frames with chroma for blocks of pixels need even sides,
and boxes of whole blocks. -/
theorem Engine.crop_orient_comm (hsource : input.picture = .ok source)
    (nonempty : b.isEmpty = false) (inside : input.size.containsBox b = true)
    (even : input.format.isYuv = true → input.size.IsEven ∧ b.IsEven)
    (cropped_sound : cropped.Sound)
    (cropped_metadata : cropped.metadata = ⟨b.size, input.orientation, input.format⟩)
    (turned_sound : turned.Sound)
    (turned_metadata : turned.metadata =
      ⟨orientedSize input.size input.orientation output.orientation, output.orientation,
        input.format⟩)
    (htarget : output.writable = .ok target)
    (compatible : input.format.compatible output.format = true)
    (output_size : output.size = orientedSize b.size input.orientation output.orientation) :
    ∃ b', orientBox b input.orientation output.orientation input.size = .ok b' ∧
      let first : Outcome := software.call (.move b.crop) input cropped
      let second : Outcome := software.orient input turned
      first.status = .ok () ∧ second.status = .ok () ∧
        (software.orient first.frame output : Outcome).status = .ok () ∧
        (software.orient first.frame output : Outcome) =
          software.call (.move b'.crop) second.frame output ∧
        (output.Sound → ∃ shown, (software.orient first.frame output : Outcome).frame.picture =
          .ok shown ∧ (source.cut b).Carried
            (.ofChange (.between input.orientation output.orientation)) b.size shown) ∧
        (input.size.InRange → software.cropBox b input cropped = first ∧
          software.cropBox b' second.frame output =
            software.call (.move b'.crop) second.frame output) := by
  have ⟨_, cropped_target, _⟩ := cropped_sound
  have ⟨_, turned_target, _⟩ := turned_sound
  obtain ⟨cropped_size, cropped_orientation, cropped_format⟩ := Metadata.mk.inj cropped_metadata
  obtain ⟨turned_size, turned_orientation, turned_format⟩ := Metadata.mk.inj turned_metadata
  have whole (s : Size) : orientedSize s input.orientation output.orientation =
      (Motion.ofChange (.between input.orientation output.orientation)).size s :=
    (Motion.size_ofChange _ s).symm
  have takes := Motion.takesBox_ofChange (.between input.orientation output.orientation) inside
  have grids := Frame.grids_picture hsource
  -- crop, then orient
  have kept := Primitive.crop_carries hsource cropped_target
    (by rw [cropped_format, Format.compatible_refl]) nonempty inside cropped_size
  have first := (kept.orient cropped_sound cropped_size
    (by rw [cropped_format]; exact Picture.grids_cut b grids) htarget
    (by rw [cropped_format]; exact compatible)
    (by rw [cropped_size, cropped_orientation]; exact output_size)).of_agree (Motion.deg0_andThen _)
  rw [cropped_orientation] at first
  -- orient, then crop
  have second := orient_carries hsource turned_target
    (by rw [turned_format, Format.compatible_refl])
    (by rw [turned_orientation]; exact turned_size)
  rw [turned_orientation] at second
  have last := second.crop turned_sound (turned_size.trans (whole _)) takes nonempty
    (by rw [turned_format]; exact grids)
    (fun yuv => by
      obtain ⟨sides, corners⟩ := even (turned_format ▸ yuv)
      exact ⟨sides, corners, Reorientation.isEven_box _ sides corners inside⟩)
    htarget (by rw [turned_format]; exact compatible) (output_size.trans (whole _))
  refine ⟨_, if_pos inside, kept.status, second.status, first.status,
    first.unique last (output_size.trans (whole _)),
    fun sound => first.shows sound (output_size.trans (whole _)), fun range => ⟨?_, ?_⟩⟩
  · exact cropBox_eq_crop nonempty inside range _ _
  · exact cropBox_eq_crop (takes.isEmpty nonempty) takes.lands
      (by rw [← whole]; exact range.orientedSize _ _) _ _

/-- Two rows of three gray pixels. -/
def Frame.grayRows : Frame :=
  ⟨[⟨#[1, 2, 3, 4, 5, 6], ⟨3, 1⟩⟩], ⟨3, 2⟩, .gray, .topLeft, none, rfl, by simp [Stride.hasZero]⟩

/-- Three rows of three pixels, with four pairs of chroma. -/
def Frame.nv12Rows : Frame :=
  ⟨[⟨#[1, 2, 3, 4, 5, 6, 7, 8, 9], ⟨3, 1⟩⟩, ⟨#[10, 20, 11, 21, 12, 22, 13, 23], ⟨4, 2⟩⟩], ⟨3, 3⟩,
    .nv12, .topLeft, none, rfl, by simp [Stride.hasZero]⟩

/-- The last two pixels of the first row, which a quarter turn makes the first column. -/
theorem Engine.crop_orient_comm_rows : ∃ cropped turned output : Frame,
    Frame.zeroed ⟨⟨2, 1⟩, .topLeft, .gray⟩ = .ok cropped ∧
    Frame.zeroed ⟨⟨2, 3⟩, .rightTop, .gray⟩ = .ok turned ∧
    Frame.zeroed ⟨⟨1, 2⟩, .rightTop, .gray⟩ = .ok output ∧
      (software.orient (software.cropBox ⟨1, 0, 2, 1⟩ .grayRows cropped : Outcome).frame output :
        Outcome) =
      software.cropBox ⟨0, 0, 1, 2⟩ (software.orient .grayRows turned : Outcome).frame output := by
  obtain ⟨cropped, hcropped⟩ := Frame.zeroed_ok (m := ⟨⟨2, 1⟩, .topLeft, .gray⟩) rfl nofun
  obtain ⟨turned, hturned⟩ := Frame.zeroed_ok (m := ⟨⟨2, 3⟩, .rightTop, .gray⟩) rfl nofun
  obtain ⟨output, houtput⟩ := Frame.zeroed_ok (m := ⟨⟨1, 2⟩, .rightTop, .gray⟩) rfl nofun
  obtain ⟨size, orientation, format⟩ := Metadata.mk.inj (Frame.metadata_ofBuffer houtput)
  obtain ⟨target, htarget, -⟩ := Frame.sound_ofBuffer houtput
  obtain ⟨source, hsource⟩ : ∃ source, Frame.grayRows.picture = .ok source := ⟨_, rfl⟩
  obtain ⟨b', oriented, -, -, -, same, -, boxes⟩ := @crop_orient_comm ⟨1, 0, 2, 1⟩ source .grayRows
    cropped turned output target hsource rfl rfl nofun (Frame.sound_ofBuffer hcropped)
    (Frame.metadata_ofBuffer hcropped) (Frame.sound_ofBuffer hturned)
    (by rw [Frame.metadata_ofBuffer hturned, orientation]; rfl) htarget (by rw [format]; rfl)
    (by rw [size, orientation]; rfl)
  rw [orientation] at oriented
  obtain rfl := Except.ok.inj (show Except.ok ⟨0, 0, 1, 2⟩ = Except.ok b' from oriented)
  obtain ⟨first, last⟩ := boxes ⟨by decide, by decide⟩
  refine ⟨cropped, turned, output, hcropped, hturned, houtput, ?_⟩
  rw [first, last]
  exact same

end

end Raster
