import Raster.Proofs.Engine.Transform
import Raster.Proofs.Frame.Region
import Raster.Proofs.Samples.Motion

/-!
# Orienting a frame

The engine orients a frame by kernels that look up a source sample for each target sample,
by way of a scratch frame when a flip follows a rotation. Coordinates are oriented by
forward formulas. Both agree, on luma and on chroma grids with rounded-up sides.

* `Move.Carries` — a move that carries every sample by a motion.
* `Outcome.Carries` — an output painted with the samples of a picture, carried by a motion.
* `Picture.Oriented` — every sample lies where `orientPoint` takes it.

Results: `Primitive.run_carries` (one move), `Reorientation.transform_carried` (a rotation with
the flip after it), `Outcome.Carries.unique` (the motion decides the outcome) and
`Engine.orient_moves_samples` (any two orientations).
-/

namespace Raster

/-! ## Moves that carry samples -/

/-- A move of whole grids that carries every sample by a motion. -/
structure Move.Carries (m : Move) (f : Motion) : Prop where
  whole : ∀ x0 y0 x1 y1, m ≠ crop x0 y0 x1 y1
  suits : ∀ size, m.Suits size (f.size size)
  grid : ∀ (s : Samples) (target : Extent), target.size = f.size s.size →
    s.Carried f s.size (m.grid s target)

namespace Move

/-- Scaling to the same size copies. -/
theorem resize_carries : resize.Carries (.turn .deg0) where
  whole _ _ _ _ := by
    rintro ⟨⟩
  suits _ := trivial
  grid := by
    intro s target size
    have same : target.size = s.size := size
    obtain ⟨width, height⟩ := Size.mk.inj same
    show s.Carried _ _ (s.scaled .centred s.wholeRegion target)
    unfold Samples.scaled
    rw [if_pos ⟨width.symm, height.symm⟩]
    refine Samples.carried_pull fun x y _ _ => ?_
    show (0 + x, 0 + y) = (x, y)
    rw [Nat.zero_add, Nat.zero_add]

theorem flip_carries (axis : FlipAxis) : (flip axis).Carries (.mirror axis) where
  whole _ _ _ _ := by
    rintro ⟨⟩
  suits _ := rfl
  grid := by
    intro s target size
    have same : target.size = s.size := size
    obtain ⟨width, height⟩ := Size.mk.inj same
    cases axis with
    | horizontal =>
      refine Samples.carried_pull fun x y hx _ => ?_
      show (target.width - 1 - (s.width - x - 1), y) = (x, y)
      have hx : x < s.width := hx
      congr 1
      omega
    | vertical =>
      refine Samples.carried_pull fun x y _ hy => ?_
      show (x, target.height - 1 - (s.height - y - 1)) = (x, y)
      have hy : y < s.height := hy
      congr 1
      omega

/-- The sample that a rotation brings to a place is the one that it takes there. -/
theorem rotationSource_point (r : Rotation) {size : Size} {x y : Nat} (hx : x < size.width)
    (hy : y < size.height) :
    Samples.rotationSource r.quarterTurns size (r.point size x y).1 (r.point size x y).2 =
      (x, y) := by
  have back := Rotation.rotationSource_eq r.quarterTurns size (r.point size x y).1 (r.point size x y).2
  rw [Rotation.ofQuarterTurns_quarterTurns] at back
  exact back.trans (Rotation.point_inverse hx hy)

theorem rotate_carries (r : Rotation) : (rotate r.degrees).Carries (.turn r) where
  whole _ _ _ _ := by
    rintro ⟨⟩
  suits size := by
    cases r <;> exact ⟨by decide, rfl⟩
  grid := by
    intro s target _
    refine Samples.carried_pull fun x y hx hy => ?_
    have turns : r.degrees / 90 = r.quarterTurns := by
      cases r <;> rfl
    rw [turns]
    exact rotationSource_point r hx hy

variable {m : Move} {f : Motion} {source : Picture} {size : Size} {format targetFormat : Format}

/-- A move that carries every grid carries pictures. -/
theorem Carries.image (carries : m.Carries f) (compatible : format.compatible targetFormat = true)
    (hsource : source.grids = format.grids size) :
    source.Carried f size (m.image source (targetFormat.grids (f.size size))) := by
  rcases Picture.eq_of_compatible compatible hsource (f.size size) with
    ⟨s, n, k, rfl, hs, grids, -⟩ | ⟨y, u, v, rfl, hy, hu, hv, grids⟩
  · rw [grids]
    have narrowed := Samples.size_take hs (min k s.channels)
    have carried := carries.grid (s.take (min k s.channels))
      ⟨(f.size size).width, (f.size size).height, k⟩ (by rw [narrowed]; rfl)
    rw [narrowed] at carried
    refine .packed (carried.of_take fun c hc => ?_)
    rw [toExtent_grid] at hc
    have hc : c < k := hc
    omega
  · rw [grids]
    have chroma {s : Samples} (hs : s.toExtent = ⟨size.halved.width, size.halved.height, 1⟩) :
        s.Carried f size.halved (m.chromaGrid s
          ⟨(f.size size).halved.width, (f.size size).halved.height, 1⟩) := by
      rw [chromaGrid_eq_grid carries.whole]
      have carried := carries.grid s ⟨(f.size size).halved.width, (f.size size).halved.height, 1⟩
        (by rw [Extent.size_eq hs, f.size_halved]; rfl)
      rwa [Extent.size_eq hs] at carried
    have luma := carries.grid y ⟨(f.size size).width, (f.size size).height, 1⟩
      (by rw [Extent.size_eq hy]; rfl)
    rw [Extent.size_eq hy] at luma
    exact .yuv luma (chroma hu) (chroma hv)

end Move

/-! ## Outcomes that carry samples -/

/-- The request draws the samples of a picture of this size, each of them where a motion takes
it. -/
def Outcome.Carries (r : Outcome) (f : Motion) (size : Size) (source : Picture) (output : Frame) :
    Prop :=
  ∃ image, r.Draws image output ∧ source.Carried f size image

namespace Outcome.Carries

variable {r r' : Outcome} {f g : Motion} {size : Size} {source source' : Picture}
  {between output : Frame}

theorem status (h : r.Carries f size source output) : r.status = .ok () := by
  obtain ⟨image, drawn, -⟩ := h
  exact drawn.status

theorem metadata (h : r.Carries f size source output) : r.frame.metadata = output.metadata := by
  obtain ⟨image, drawn, -⟩ := h
  exact drawn.metadata

/-- A sound output shows what was carried. -/
theorem shows (h : r.Carries f size source output) (sound : output.Sound)
    (whole : output.size = f.size size) :
    ∃ shown, r.frame.picture = .ok shown ∧ source.Carried f size shown := by
  obtain ⟨image, drawn, carried⟩ := h
  obtain ⟨shown, hshown, agree⟩ := drawn.shows sound
  exact ⟨shown, hshown, carried.congr agree.symm (drawn.grids.trans (by rw [whole]))⟩

/-- A motion of a picture that was carried itself. -/
theorem of_carried (h : r.Carries g (f.size size) source' output)
    (carried : source.Carried f size source') {format : Format}
    (hsource : source.grids = format.grids size)
    (hsource' : source'.grids = format.grids (f.size size)) :
    r.Carries (f.andThen g) size source output := by
  obtain ⟨image, drawn, carried'⟩ := h
  exact ⟨image, drawn, carried.andThen carried' hsource hsource'⟩

/-- A motion of what another one has left in a sound frame. -/
theorem andThen (first : r.Carries f size source between) (sound : between.Sound)
    (whole : between.size = f.size size) (hsource : source.grids = between.format.grids size)
    (second : ∀ shown, r.frame.picture = .ok shown → r'.Carries g (f.size size) shown output) :
    r'.Carries (f.andThen g) size source output := by
  obtain ⟨shown, hshown, carried⟩ := first.shows sound whole
  obtain ⟨size_eq, -, format_eq⟩ := Metadata.mk.inj first.metadata
  have grids : shown.grids = between.format.grids (f.size size) := by
    rw [Frame.grids_picture hshown, ← whole, size_eq, format_eq]
  exact (second shown hshown).of_carried carried hsource grids

theorem of_agree (h : r.Carries f size source output) (agree : f.Agree g) :
    r.Carries g size source output := by
  obtain ⟨image, drawn, carried⟩ := h
  exact ⟨image, drawn, carried.of_agree agree⟩

/-- Pictures that agree are carried alike. -/
theorem of_source (h : r.Carries f size source output) (agree : source.Agree source')
    {format : Format} (hsource : source.grids = format.grids size) :
    r.Carries f size source' output := by
  obtain ⟨image, drawn, carried⟩ := h
  exact ⟨image, drawn, carried.of_source agree hsource⟩

/-- There is one outcome that carries a picture by a motion. -/
theorem unique (h : r.Carries f size source output) (h' : r'.Carries f size source output)
    (whole : output.size = f.size size) : r = r' := by
  obtain ⟨image, drawn, carried⟩ := h
  obtain ⟨image', drawn', carried'⟩ := h'
  exact drawn.unique drawn' (carried.unique carried' (drawn.grids.trans (by rw [whole]))
    (drawn.grids.trans drawn'.grids.symm))

end Outcome.Carries

/-! ## Whole changes -/

section

variable {input output : Frame} {source : Picture} {target : Canvas}

/-- A move that carries samples does so on every output of its size with room for them. -/
theorem Primitive.run_carries {m : Move} {f : Motion} (carries : m.Carries f)
    (hsource : input.picture = .ok source) (htarget : output.writable = .ok target)
    (compatible : input.format.compatible output.format = true)
    (size : output.size = f.size input.size) :
    ((move m).run input output).Carries f input.size source output := by
  have nonempty := Frame.nonempty_of_picture hsource
  have accepts : (move m).Accepts input.metadata output.metadata := by
    refine ⟨nonempty, Frame.nonempty_of_writable htarget, compatible, ?_⟩
    show m.Suits input.size output.size
    rw [size]
    exact carries.suits _
  refine ⟨_, run_draws accepts hsource htarget rfl, ?_⟩
  rw [size]
  exact carries.image compatible (Frame.grids_picture hsource)

/-- A rotation into a zeroed scratch frame, and a flip of what lies there. -/
theorem Transform.through_carries (rotation : Rotation) (axis : FlipAxis)
    (hsource : input.picture = .ok source) (htarget : output.writable = .ok target)
    (compatible : input.format.compatible output.format = true)
    (size : output.size = rotation.size input.size) :
    ∃ scratch, Frame.zeroed { input.metadata with size := rotation.size input.size } = .ok scratch ∧
      (through scratch (Primitive.move (.rotate rotation.degrees)).run
        (Primitive.move (.flip axis)).run input output).Carries
          ((Motion.turn rotation).andThen (.mirror axis)) input.size source output := by
  have turned_nonempty : (rotation.size input.size).isEmpty = false :=
    (Motion.turn rotation).isEmpty_size (Frame.nonempty_of_picture hsource)
  obtain ⟨scratch, hscratch, zeroed_sound, metadata⟩ := Frame.exists_zeroed
    { input.metadata with size := rotation.size input.size } turned_nonempty
    input.format_ne_unknown
  refine ⟨scratch, hscratch, ?_⟩
  obtain ⟨scratch_size, -, scratch_format⟩ := Metadata.mk.inj metadata
  have scratch_size : scratch.size = rotation.size input.size := scratch_size
  have scratch_format : scratch.format = input.format := scratch_format
  have scratch_sound := zeroed_sound.stamped input.timestamp
  have ⟨blank, hblank, _⟩ := scratch_sound
  have compatible_scratch :
      input.format.compatible (scratch.stamped input.timestamp).format = true := by
    show input.format.compatible scratch.format = true
    rw [scratch_format, Format.compatible_refl]
  have turned := Primitive.run_carries (Move.rotate_carries rotation) hsource hblank
    compatible_scratch scratch_size
  obtain ⟨between_size, -, between_format⟩ := Metadata.mk.inj (turned.metadata.trans metadata)
  unfold through
  dsimp only
  rw [turned.status]
  refine turned.andThen scratch_sound scratch_size ?_ fun shown hshown => ?_
  · show source.grids = scratch.format.grids input.size
    rw [scratch_format]
    exact Frame.grids_picture hsource
  · have flipped := Primitive.run_carries (Move.flip_carries axis) hshown htarget
      (by rw [between_format]; exact compatible) (by rw [between_size]; exact size)
    rw [between_size] at flipped
    exact flipped

/-- A change of orientation carries samples by its rotation and then by its flip. -/
theorem Reorientation.transform_carried (change : Reorientation)
    (hsource : input.picture = .ok source) (htarget : output.writable = .ok target)
    (compatible : input.format.compatible output.format = true)
    (size : output.size = change.size input.size) :
    (change.transform input.metadata input output).Carries (.ofChange change) input.size source
      output := by
  obtain ⟨rotation, flip⟩ := change
  cases flip with
  | none =>
    have turned := Primitive.run_carries (Move.rotate_carries rotation) hsource htarget
      compatible size
    cases rotation with
    | deg0 => exact Primitive.run_carries Move.resize_carries hsource htarget compatible size
    | deg90 => exact turned
    | deg180 => exact turned
    | deg270 => exact turned
  | some axis =>
    by_cases still : rotation = .deg0
    · subst still
      exact Primitive.run_carries (Move.flip_carries axis) hsource htarget compatible size
    · obtain ⟨scratch, hscratch, carried⟩ := Transform.through_carries rotation axis hsource
        htarget compatible size
      rw [transform_of_zeroed still hscratch]
      exact carried

/-- So it succeeds on every sound output of its size, which then shows the samples. -/
theorem Reorientation.transform_carries (change : Reorientation) {input output : Frame}
    {source : Picture} (_ : input.size.isEmpty = false)
    (hsource : input.picture = .ok source) (sound : output.Sound)
    (compatible : input.format.compatible output.format = true)
    (size : output.size = change.size input.size) :
    (change.transform input.metadata input output).status = .ok () ∧
      ∃ shown, (change.transform input.metadata input output).frame.picture = .ok shown ∧
        source.Carried (.ofChange change) input.size shown := by
  have ⟨target, htarget, _⟩ := sound
  have carried := change.transform_carried hsource htarget compatible size
  exact ⟨carried.status, carried.shows sound (size.trans (Motion.size_ofChange _ _).symm)⟩

/-- Orienting carries samples by the change from one orientation to the other. -/
theorem Engine.orient_carries (hsource : input.picture = .ok source)
    (htarget : output.writable = .ok target)
    (compatible : input.format.compatible output.format = true)
    (size : output.size = orientedSize input.size input.orientation output.orientation) :
    (software.orient input output : Outcome).Carries
      (.ofChange (.between input.orientation output.orientation)) input.size source output := by
  rw [orient_eq]
  exact Reorientation.transform_carried _ hsource htarget compatible size

/-- What was drawn into a sound frame is carried from there. -/
theorem Outcome.Draws.orient_carries {r : Outcome} {image : Picture} {between : Frame}
    (drawn : r.Draws image between) (sound : between.Sound) (htarget : output.writable = .ok target)
    (compatible : between.format.compatible output.format = true)
    (size : output.size = orientedSize between.size between.orientation output.orientation) :
    (Engine.software.orient r.frame output : Outcome).Carries
      (.ofChange (.between between.orientation output.orientation)) between.size image output := by
  obtain ⟨shown, hshown, agree⟩ := drawn.shows sound
  obtain ⟨shown_size, shown_orientation, shown_format⟩ := Metadata.mk.inj drawn.metadata
  have carried := Engine.orient_carries hshown htarget (by rw [shown_format]; exact compatible)
    (by rw [shown_size, shown_orientation]; exact size)
  have grids := Frame.grids_picture hshown
  rw [shown_size] at grids
  rw [shown_size, shown_orientation] at carried
  exact carried.of_source agree grids

/-- What was carried into a sound frame is carried on from there. -/
theorem Outcome.Carries.orient {r : Outcome} {f : Motion} {size : Size} {between : Frame}
    (carried : r.Carries f size source between) (sound : between.Sound)
    (whole : between.size = f.size size) (hsource : source.grids = between.format.grids size)
    (htarget : output.writable = .ok target)
    (compatible : between.format.compatible output.format = true)
    (output_size : output.size = orientedSize between.size between.orientation output.orientation) :
    (Engine.software.orient r.frame output : Outcome).Carries
      (f.andThen (.ofChange (.between between.orientation output.orientation))) size source
        output := by
  obtain ⟨image, drawn, moved⟩ := carried
  have turned := drawn.orient_carries sound htarget compatible output_size
  rw [whole] at turned
  exact turned.of_carried moved hsource (drawn.grids.trans (by rw [whole]))

end

/-! ## Samples and coordinates -/

/-- Every sample of a grid of this size lies in the result where `orientPoint` takes it. Alpha
is opaque where the source has none. -/
def Samples.Oriented (size : Size) (source target : Orientation) (s result : Samples) : Prop :=
  ∀ x y, x < size.width → y < size.height → ∃ px py,
    orientPoint x y source target size = .ok (px, py) ∧
      ∀ c, c < result.channels → result.value px py c = s.opaqueValue x y c

/-- The grids of a frame of this size are oriented, chroma on the halved size. -/
inductive Picture.Oriented (size : Size) (source target : Orientation) : Picture → Picture → Prop
  | packed {s t : Samples} (pixels : s.Oriented size source target t) :
    Oriented size source target (.packed s) (.packed t)
  | yuv {y u v y' u' v' : Samples} (luma : y.Oriented size source target y')
      (blue : u.Oriented size.halved source target u')
      (red : v.Oriented size.halved source target v') :
    Oriented size source target (.yuv y u v) (.yuv y' u' v')

theorem Samples.Carried.oriented {source target : Orientation} {size : Size} {s t : Samples}
    (h : s.Carried (.ofChange (.between source target)) size t) :
    s.Oriented size source target t := by
  intro x y hx hy
  refine ⟨_, _, if_pos ⟨hx, hy⟩, fun c hc => ?_⟩
  have carried := h x y c hx hy hc
  rw [Motion.point_ofChange] at carried
  exact carried

theorem Picture.Carried.oriented {source target : Orientation} {size : Size} {p q : Picture}
    (h : p.Carried (.ofChange (.between source target)) size q) :
    p.Oriented size source target q := by
  cases h with
  | packed pixels => exact .packed pixels.oriented
  | yuv luma blue red => exact .yuv luma.oriented blue.oriented red.oriented

/-- Orienting succeeds on every output of the oriented size, of a compatible format and with
room for every sample of its own, and it moves each sample as coordinates are moved. -/
theorem Engine.orient_moves_samples {input output : Frame} {source : Picture} {target : Canvas}
    (nonempty : input.size.isEmpty = false) (hsource : input.picture = .ok source)
    (htarget : output.writable = .ok target) (apart : target.components.Apart)
    (compatible : input.format.compatible output.format = true)
    (size : output.size = orientedSize input.size input.orientation output.orientation) :
    (software.orient input output : Outcome).status = .ok () ∧
      ∃ shown, (software.orient input output : Outcome).frame.picture = .ok shown ∧
        source.Oriented input.size input.orientation output.orientation shown := by
  obtain ⟨status, shown, hshown, carried⟩ := Reorientation.transform_carries
    (.between input.orientation output.orientation) nonempty hsource ⟨target, htarget, apart⟩
    compatible size
  rw [orient_eq]
  exact ⟨status, shown, hshown, carried.oriented⟩

/-- A row of three pixels, with two pairs of chroma. -/
def Frame.nv12Row : Frame :=
  ⟨[⟨#[1, 2, 3], ⟨3, 1⟩⟩, ⟨#[10, 20, 11, 21], ⟨4, 2⟩⟩], ⟨3, 1⟩, .nv12, .topLeft, none, rfl,
    by simp [Stride.hasZero]⟩

/-- An empty column of three pixels, stored column by column. -/
def Frame.nv12Column : Frame :=
  ⟨[⟨#[0, 0, 0], ⟨1, 1⟩⟩, ⟨#[0, 0, 0, 0], ⟨2, 2⟩⟩], ⟨1, 3⟩, .nv12, .leftTop, none, rfl,
    by simp [Stride.hasZero]⟩

/-- The row becomes a column by a rotation and a flip. -/
theorem Engine.orient_moves_samples_row :
    let r : Outcome := software.orient .nv12Row .nv12Column
    r.status = .ok () ∧ (∃ source shown, Frame.nv12Row.picture = .ok source ∧
      r.frame.picture = .ok shown ∧ source.Oriented ⟨3, 1⟩ .topLeft .leftTop shown) ∧
        r.frame.memory = #[1, 2, 3, 10, 20, 11, 21] := by
  have canonical : Frame.ofBuffer (.replicate 7 0) ⟨⟨1, 3⟩, .leftTop, .nv12⟩ = .ok .nv12Column := rfl
  obtain ⟨target, htarget, apart⟩ := Frame.sound_ofBuffer canonical
  obtain ⟨source, hsource⟩ : ∃ source, Frame.nv12Row.picture = .ok source := ⟨_, rfl⟩
  obtain ⟨status, shown, hshown, oriented⟩ := @orient_moves_samples .nv12Row .nv12Column source
    target (by decide) hsource htarget apart (by decide) (by decide)
  exact ⟨status, ⟨source, shown, hsource, hshown, oriented⟩, by decide +kernel⟩

end Raster
