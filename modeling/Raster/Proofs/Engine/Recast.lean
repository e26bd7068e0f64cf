import Raster.Proofs.Engine.Checked
import Raster.Proofs.Engine.DryRun
import Raster.Proofs.Engine.ReadBack

/-!
# Moves into another format

A move may write into a frame of another format than its input, as long as no colour changes: RGB
and RGBA, or two YUV formats. It then drops alpha or adds it on the way, or puts chroma where the
other format has it. That is a move within the format of the input, and a conversion after it.
A move that drops alpha reads fewer bytes of each pixel. So where a tap leaves its region, one of the
two ways may find the byte that it names and the other not. Here no tap does.

* `Transform.Recasts` — a transform may leave a change of format to a conversion.
* `Request.Moves` — the requests that keep colours.

Results: `Move.image_recast` (pictures), `Engine.orient_recasts` (a rotation with a flip leaves the
change to its last part) and `Request.serve_recast` (every request that keeps colours).
-/

namespace Raster

/-! ## Grids and pictures -/

namespace Move

variable {s : Samples} {e e' : Extent} {i j c : Nat}

/-- A channel of a moved grid is made of that channel of the source, whatever the others are. -/
theorem value_grid_take (m : Move) (size : e.size = e'.size) (hi : c < i) (hj : c < j) (x y : Nat) :
    (m.grid (s.take i) e).value x y c = (m.grid (s.take j) e').value x y c := by
  obtain ⟨width, height⟩ := Size.mk.inj size
  have picked (px py : Nat) : (s.take i).opaqueValue px py c = (s.take j).opaqueValue px py c := by
    rw [Samples.opaqueValue, if_pos (by exact hi), Samples.opaqueValue, if_pos (by exact hj)]
    rfl
  have scaled (region : Region) : ((s.take i).scaled .centred region e).value x y c =
      ((s.take j).scaled .centred region e').value x y c := by
    unfold Samples.scaled
    rw [width, height]
    split
    · exact picked _ _
    · simp only [Samples.interpolate, width, height]
      rw [if_pos (by exact hi), if_pos (by exact hj)]
      rfl
  cases m with
  | crop x0 y0 x1 y1 => exact scaled _
  | resize => exact scaled _
  | resizeNearest =>
    simp only [grid, Samples.nearest, Samples.pull, width, height]
    exact picked _ _
  | rotate degrees => exact picked _ _
  | flip axis =>
    cases axis with
    | horizontal =>
      simp only [grid, Samples.pull, width]
      exact picked _ _
    | vertical =>
      simp only [grid, Samples.pull, height]
      exact picked _ _

/-- A channel that the source lacks is opaque after every move. -/
theorem value_grid_of_le (m : Move) (lacks : s.channels ≤ c) (x y : Nat) :
    (m.grid s e).value x y c = 255 := by
  have picked (px py : Nat) : s.opaqueValue px py c = 255 := if_neg (Nat.not_lt.2 lacks)
  cases m with
  | crop x0 y0 x1 y1 => exact Samples.scaled_lacking lacks x y
  | resize => exact Samples.scaled_lacking lacks x y
  | resizeNearest => exact picked _ _
  | rotate degrees => exact picked _ _
  | flip axis => cases axis <;> exact picked _ _

end Move

/-- Two formats of the same colours have at least three channels each, or none. -/
theorem Format.channels_of_recast {a b : Format} (compatible : a.compatible b = true)
    (differ : a ≠ b) : (∃ n k, a.channels = some n ∧ b.channels = some k ∧ 3 ≤ n ∧ 3 ≤ k) ∨
      (a.channels = none ∧ b.channels = none) := by
  cases a <;> cases b <;> first
    | exact absurd compatible (by decide)
    | exact absurd rfl differ
    | exact .inr ⟨rfl, rfl⟩
    | exact .inl ⟨_, _, rfl, rfl, by decide⟩

/-- Pixels moved with all of their channels, and the channels then changed. -/
theorem Move.repacked_grid (m : Move) {s : Samples} {e e' : Extent} (size : e.size = e'.size)
    (channels : s.channels = e.channels) (colours : 3 ≤ e.channels) (colours' : 3 ≤ e'.channels) :
    ((m.grid (s.take (min e.channels s.channels)) e).repacked e').Agree
      (m.grid (s.take (min e'.channels s.channels)) e') := by
  refine ⟨(toExtent_grid _ _ _).symm, fun x y c _ _ hc => ?_⟩
  have hc : c < e'.channels := hc
  have extent := toExtent_grid m (s.take (min e.channels s.channels)) e
  have gray : e'.channels ≠ 1 := by omega
  simp only [Samples.repacked, Samples.opaqueValue]
  rw [extent, if_pos colours, if_neg gray]
  split
  · next has => exact m.value_grid_take size (by omega) (by omega) x y
  · next lacks =>
    have none_left : (s.take (min e'.channels s.channels)).channels ≤ c := by
      show min e'.channels s.channels ≤ c
      omega
    exact (m.value_grid_of_le none_left x y).symm

/-- A picture moved within its format and then converted is the picture moved into the other
format. -/
theorem Move.image_recast (m : Move) {source : Picture} {format targetFormat : Format} {size : Size}
    (targetSize : Size) (compatible : format.compatible targetFormat = true)
    (differ : format ≠ targetFormat) (hsource : source.grids = format.grids size) :
    ∃ image, (m.image source (format.grids targetSize)).recoloured (targetFormat.grids targetSize) =
      .ok image ∧ image.Agree (m.image source (targetFormat.grids targetSize)) := by
  rcases Format.channels_of_recast compatible differ with ⟨n, k, hn, hk, colours⟩ | ⟨hn, hk⟩
  · rw [Format.grids_packed hn] at hsource ⊢
    rw [Format.grids_packed hk]
    obtain ⟨s, rfl, hs⟩ := Picture.eq_packed hsource
    exact ⟨_, rfl, .packed (m.repacked_grid rfl (by rw [hs]) colours.1 colours.2)⟩
  · rw [Format.grids_yuv hn] at hsource ⊢
    rw [Format.grids_yuv hk]
    obtain ⟨y, u, v, rfl, -, -, -⟩ := Picture.eq_yuv hsource
    have copied (s : Samples) {e : Extent} (extent : s.toExtent = e) : (s.part 0 0 e).Agree s := by
      subst extent
      exact s.part_same
    exact ⟨_, rfl, .yuv (copied _ (toExtent_grid _ _ _)) (copied _ (toExtent_chromaGrid _ _ _))
      (copied _ (toExtent_chromaGrid _ _ _))⟩

/-- So is whatever shows the same as the picture moved within its format, once it is converted. -/
theorem Move.recoloured_of_agree (m : Move) {source shown : Picture} {format targetFormat : Format}
    {size targetSize : Size} (compatible : format.compatible targetFormat = true)
    (differ : format ≠ targetFormat) (hsource : source.grids = format.grids size)
    (grids : shown.grids = format.grids targetSize)
    (agree : shown.Agree (m.image source (format.grids targetSize))) :
    ∃ image, shown.recoloured (targetFormat.grids targetSize) = .ok image ∧
      image.Agree (m.image source (targetFormat.grids targetSize)) := by
  obtain ⟨image, himage, same⟩ := m.image_recast targetSize compatible differ hsource
  have converted : SamePicture (shown.recoloured (targetFormat.grids targetSize)) (.ok image) :=
    himage ▸ Picture.recoloured_agree grids agree
  obtain ⟨e, -, impossible⟩ | ⟨seen, image', hseen, himage', agree'⟩ := converted.error_or_ok
  · cases impossible
  · obtain rfl := Except.ok.inj himage'
    exact ⟨seen, hseen, agree'.trans same⟩

/-! ## Moves of frames -/

/-- Frames that differ in their format only, and the two formats have the same colours. -/
structure Frame.Recast (source between output : Frame) : Prop where
  compatible : source.format.compatible output.format = true
  differ : source.format ≠ output.format
  metadata : between.metadata = { output.metadata with format := source.format }

namespace Frame.Recast

variable {source between output : Frame}

theorem size_eq (h : source.Recast between output) : between.size = output.size :=
  congrArg Metadata.size h.metadata

theorem orientation_eq (h : source.Recast between output) :
    between.orientation = output.orientation :=
  congrArg Metadata.orientation h.metadata

theorem format_eq (h : source.Recast between output) : between.format = source.format :=
  congrArg Metadata.format h.metadata

end Frame.Recast

/-- Into another format a transform does what it does within the format of its input, followed by
a conversion; and it fails as it does within that format. -/
def Transform.Recasts (t : Transform) (input : Frame) : Prop :=
  ∀ {between output : Frame}, input.Recast between output → between.Sound → output.Sound →
    (t input output).status = (t input between).status ∧
      ((t input between).status = .ok () →
        t input output = Primitive.convert.run (t input between).frame output)

section

variable {input between output : Frame}

/-- The precondition of a move does not tell the two formats apart. -/
theorem Move.check_recast (m : Move) (h : input.Recast between output) :
    m.check input output = m.check input between := by
  have compatible : checkCompatible input output = checkCompatible input between := by
    unfold checkCompatible
    rw [checkFrames_eq, checkFrames_eq, h.size_eq, h.format_eq, if_pos h.compatible,
      if_pos (Format.compatible_refl _)]
  cases m <;> simp only [Move.check, checkCrop, checkResize, checkRotate, checkFlip, compatible,
    h.size_eq]

/-- A picture that the first frame shows after a move, converted into the second frame. -/
theorem Move.convert_run (m : Move) {source : Picture} {canvas : Canvas}
    (h : input.Recast between output) (sound : between.Sound) (hsource : input.picture = .ok source)
    (hcanvas : output.writable = .ok canvas) (passed : m.check input between = .ok ()) :
    Primitive.convert.run ((Primitive.move m).run input between).frame output =
      ⟨.ok (), output.painted canvas (m.image source (output.format.grids output.size))⟩ := by
  obtain ⟨target, htarget, apart⟩ := sound
  have grids := Frame.grids_picture hsource
  -- the move within the format of the input, and what is seen of it
  have accepts : (Primitive.move m).Accepts input.metadata between.metadata :=
    Primitive.check_eq_ok.1 passed
  rw [Primitive.run_of_image accepts hsource htarget rfl]
  have moved : (m.image source (between.format.grids between.size)).grids =
      between.format.grids between.size := Primitive.grids_image accepts grids rfl
  obtain ⟨shown, hshown, agree⟩ := Frame.picture_painted htarget apart moved
  have shown_grids := agree.grids.trans moved
  rw [h.size_eq, h.format_eq] at agree shown_grids
  -- its conversion
  obtain ⟨image, himage, same⟩ :=
    m.recoloured_of_agree h.compatible h.differ grids shown_grids agree
  have suits : Primitive.convert.Accepts (between.painted target
      (m.image source (between.format.grids between.size))).metadata output.metadata := by
    refine ⟨accepts.target_nonempty, Frame.nonempty_of_writable hcanvas, ?_, h.size_eq⟩
    show between.format ≠ output.format
    rw [h.format_eq]
    exact h.differ
  rw [Primitive.run_of_image suits hshown hcanvas himage]
  rw [Frame.painted_congr hcanvas same
    (Primitive.grids_image suits (Frame.grids_picture hshown) himage)]

theorem Move.run_recasts (m : Move) (input : Frame) :
    Transform.Recasts (Primitive.move m).run input := by
  intro between output h sound ⟨canvas, hcanvas, _⟩
  have check : (Primitive.move m).check input output = (Primitive.move m).check input between :=
    m.check_recast h
  cases hsource : input.picture with
  | error e =>
    rw [Primitive.status_run_unreadable _ hsource, Primitive.status_run_unreadable _ hsource, check]
    refine ⟨rfl, fun passed => ?_⟩
    obtain ⟨_, -, impossible⟩ := bind_eq_ok.1 passed
    cases impossible
  | ok source =>
    have ⟨target, htarget, _⟩ := sound
    rw [Move.status_run m hsource hcanvas, Move.status_run m hsource htarget]
    refine ⟨check, fun passed => ?_⟩
    have accepts : (Primitive.move m).Accepts input.metadata output.metadata :=
      Primitive.check_eq_ok.1 (check.trans passed)
    rw [Primitive.run_of_image accepts hsource hcanvas rfl,
      m.convert_run h sound hsource hcanvas passed]

end

/-! ## Changes of orientation -/

namespace Transform

variable {input scratch : Frame} {first second : Transform}

theorem recasts_failed (e : Error) (input : Frame) :
    Recasts (fun _ output => .failed e output) input := by
  intro between output _ _ _
  exact ⟨rfl, fun h => by cases h⟩

/-- On the way through a scratch frame of the format of the input, the last transform changes the
format. -/
theorem through_recasts (format : scratch.format = input.format) (lawful : first.Lawful)
    (h : ∀ turned, second.Recasts turned) : (through scratch first second).Recasts input := by
  intro between output recast sound sound'
  unfold through
  dsimp only
  have metadata := lawful.metadata input (scratch.stamped input.timestamp)
  generalize first input (scratch.stamped input.timestamp) = turned at metadata ⊢
  have format : turned.frame.format = input.format :=
    (congrArg Metadata.format metadata).trans format
  split
  · exact ⟨rfl, fun h => by cases h⟩
  · refine h turned.frame ⟨?_, ?_, ?_⟩ sound sound'
    · rw [format]
      exact recast.compatible
    · rw [format]
      exact recast.differ
    · rw [format]
      exact recast.metadata

end Transform

theorem Reorientation.transform_recasts (change : Reorientation) (input : Frame) :
    (change.transform input.metadata).Recasts input := by
  unfold transform
  split
  · exact Move.run_recasts _ input
  · exact Move.run_recasts _ input
  · exact Move.run_recasts _ input
  · split
    · exact Transform.recasts_failed _ input
    · next scratch zeroed =>
      obtain ⟨-, -, format⟩ := Metadata.mk.inj (Frame.metadata_ofBuffer zeroed)
      exact Transform.through_recasts format (Primitive.run_lawful _)
        fun turned => Move.run_recasts _ turned

theorem Engine.orient_recasts (input : Frame) : Transform.Recasts software.orient input := by
  intro between output h sound sound'
  rw [orient_eq, orient_eq, h.orientation_eq]
  exact Reorientation.transform_recasts _ input h sound sound'

/-! ## Requests -/

/-- The requests that move samples and keep their colours. -/
def Request.Moves : Request → Prop
  | call (.move _) | orient => True
  | _ => False

theorem Request.serve_recasts {r : Request} (moves : r.Moves) (input : Frame) :
    Transform.Recasts (r.serve Engine.software) input := by
  cases r with
  | call p =>
    cases p with
    | move m => exact m.run_recasts input
    | convert => exact moves.elim
  | orient => exact Engine.orient_recasts input
  | perform op => exact moves.elim
  | execute operations => exact moves.elim
  | preprocess roi uniform => exact moves.elim

/-- The taps of a request that keeps colours go by sizes, not by formats. -/
theorem Request.StaysInside.recast {r : Request} {input between output : Frame} (moves : r.Moves)
    (inside : r.StaysInside input.metadata output.metadata) (h : input.Recast between output) :
    r.StaysInside input.metadata between.metadata := by
  have call {m : Move} (inside : (Primitive.move m).StaysInside input.metadata output.metadata) :
      (Primitive.move m).StaysInside input.metadata between.metadata := by
    rw [h.metadata]
    intro accepts
    obtain ⟨-, suits⟩ := accepts.suits
    exact inside ⟨accepts.source_nonempty, accepts.target_nonempty, h.compatible, suits⟩
  cases r with
  | call p =>
    cases p with
    | move m => exact call inside
    | convert => exact moves.elim
  | orient =>
    intro still
    have same : between.metadata.orientation = output.metadata.orientation := h.orientation_eq
    rw [same] at still
    exact call (inside still)
  | perform op => exact moves.elim
  | execute operations => exact moves.elim
  | preprocess roi uniform => exact moves.elim

/-- A request that keeps colours and no tap of which leaves its region has an outcome on an output of
another format, and on a canonical frame of the format of its input. Both succeed or both fail for
one reason. The output then holds what the conversion of the canonical frame writes into it, and
shows what the conversion shows in any other frame of its metadata. -/
theorem Request.serve_recast (r : Request) (moves : r.Moves) {input between output : Frame}
    {bytes : Bytes} (compatible : input.format.compatible output.format = true)
    (differ : input.format ≠ output.format) (sound : output.Sound)
    (canonical : Frame.ofBuffer bytes { output.metadata with format := input.format } =
      .ok between) (inside : r.StaysInside input.metadata output.metadata) :
    ∃ direct kept : Outcome, r.serve Engine.checked input output = some direct ∧
      r.serve Engine.checked input between = some kept ∧ direct.status = kept.status ∧
        (kept.status = .ok () → direct = Primitive.convert.run kept.frame output ∧
          ∀ other : Frame, other.Sound → other.metadata = output.metadata →
            let converted := Primitive.convert.run kept.frame other
            converted.status = .ok () ∧ ∃ shown shown', direct.frame.picture = .ok shown ∧
              converted.frame.picture = .ok shown' ∧ shown.Agree shown') := by
  obtain ⟨-, -, -, metadata, -⟩ := Frame.ofBuffer_eq_ok.1 canonical
  have recast : input.Recast between output := ⟨compatible, differ, metadata⟩
  refine ⟨_, _, r.serve_checked inside, r.serve_checked (inside.recast moves recast), ?_⟩
  obtain ⟨status, same⟩ := serve_recasts moves input recast (Frame.sound_ofBuffer canonical) sound
  generalize (r.serve Engine.software input output : Outcome) = direct at status same ⊢
  generalize (r.serve Engine.software input between : Outcome) = kept at status same ⊢
  refine ⟨status, fun kept_ok => ⟨same kept_ok, fun other sound_other metadata_other => ?_⟩⟩
  have direct_ok : direct.status = .ok () := status.trans kept_ok
  have direct_eq : direct = Primitive.convert.run kept.frame output := same kept_ok
  rw [direct_eq] at direct_ok ⊢
  obtain ⟨statuses, alike⟩ :=
    Primitive.run_overwrites .convert kept.frame sound sound_other metadata_other.symm
  obtain ⟨canvas, hcanvas, apart⟩ := sound
  obtain ⟨-, -, shown, -, -, hshown, -⟩ :=
    Frame.readsBack_of_apart hcanvas apart .convert kept.frame direct_ok
  have pictures := (alike direct_ok).picture
  rw [hshown] at pictures ⊢
  obtain ⟨e, impossible, -⟩ | ⟨seen, shown', hseen, hshown', agree⟩ := pictures.error_or_ok
  · cases impossible
  · exact ⟨statuses.symm.trans direct_ok, seen, shown', hseen, hshown', agree⟩

/-- A column of three pixels in three planes, with a spare byte between rows of luma. -/
def Frame.yv21Column : Frame :=
  ⟨[⟨#[9, 9, 9, 9, 9], ⟨2, 1⟩⟩, ⟨#[9, 9], ⟨1, 1⟩⟩, ⟨#[9, 9], ⟨1, 1⟩⟩], ⟨1, 3⟩, .yv21, .leftTop,
    none, rfl, by simp [Stride.hasZero]⟩

/-- Interleaved chroma is taken apart on the way through a rotation and a flip. -/
theorem Request.serve_recast_column : ∃ direct kept : Outcome,
    Request.orient.serve Engine.checked .nv12Row .yv21Column = some direct ∧
      Request.orient.serve Engine.checked .nv12Row .nv12Column = some kept ∧
        direct.status = .ok () ∧ direct = Primitive.convert.run kept.frame .yv21Column ∧
          direct.frame.memory = #[1, 9, 2, 9, 3, 10, 11, 20, 21] := by
  have canonical : Frame.ofBuffer (.replicate 7 0)
      { Frame.yv21Column.metadata with format := Frame.nv12Row.format } = .ok .nv12Column := rfl
  obtain ⟨target, htarget⟩ : ∃ c, Frame.yv21Column.writable = .ok c := ⟨_, rfl⟩
  have sound : Frame.yv21Column.Sound :=
    ⟨target, htarget, (Frame.apart_iff rfl htarget).2 (by decide)⟩
  have inside : Request.orient.StaysInside Frame.nv12Row.metadata Frame.yv21Column.metadata :=
    fun _ => Primitive.staysInside_of_short _ (by decide) (by decide) _
  obtain ⟨direct, kept, hdirect, hkept, status, same⟩ :=
    @Request.serve_recast .orient trivial .nv12Row .nv12Column .yv21Column _
      (by decide) (by decide) sound canonical inside
  have kept_ok : (Request.orient.serve Engine.checked .nv12Row .nv12Column).map (·.status) =
      some (.ok ()) := by decide +kernel
  have memory : (Request.orient.serve Engine.checked .nv12Row .yv21Column).map (·.frame.memory) =
      some #[1, 9, 2, 9, 3, 10, 11, 20, 21] := by decide +kernel
  rw [hkept, Option.map_some, Option.some.injEq] at kept_ok
  rw [hdirect, Option.map_some, Option.some.injEq] at memory
  exact ⟨direct, kept, hdirect, hkept, status.trans kept_ok, (same kept_ok).1, memory⟩

/-- Three of the four channels of a pixel follow the row. They are enough for a row of three channels,
which is one pixel longer, and not for a row of four. -/
theorem Request.spare_pixel_read :
    let input : Frame := .blackRow .rgba 4 rfl 16777220 3 (by decide)
    let output : Frame := .blackRow .rgb 3 rfl 16777221 0 (by decide)
    let between : Frame := .blackRow .rgba 4 rfl 16777221 0 (by decide)
    (∃ direct, (Request.call (.move .resize)).serve Engine.checked input output = some direct ∧
      direct.status = .ok ()) ∧
      (Request.call (.move .resize)).serve Engine.checked input between = none := by
  intro input output between
  have rgb : Format.rgb.channels = some 3 := rfl
  have rgba : Format.rgba.channels = some 4 := rfl
  obtain ⟨done, long⟩ := Frame.resize_blackRow rgba 16777220 3 (by decide)
    rgb (m := 16777221) (by decide) rfl (by decide)
  obtain ⟨-, short⟩ := Frame.resize_blackRow rgba 16777220 3 (by decide)
    rgba (m := 16777221) (by decide) rfl (by decide)
  have reach := Tap.reach_centred_long
  refine ⟨⟨_, ?_, done⟩, ?_⟩
  · rw [serve_call_checked, long, reach]
    rfl
  · rw [serve_call_checked, short, reach]
    rfl

end Raster
