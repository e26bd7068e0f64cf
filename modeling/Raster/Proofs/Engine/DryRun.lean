import Raster.Proofs.Engine.Orientation
import Raster.Proofs.Engine.Stage

/-!
# Dry runs

Whether a chain succeeds, and with which error it fails, is a matter of metadata, once the
input can be read and the output has room for every sample. A dry run tells it without any
pixels.

* `Operation.verdict` — the status of one operation.
* `Operation.dryRun`, `Metadata.dryRun` — the metadata that an operation and a chain make, or
  why they fail.

Results: `Engine.status_perform` (an operation has the status of its verdict),
`Engine.status_finish` (all steps have the status of their dry run) and
`Engine.status_execute` (so has a chain).
-/

namespace Raster

/-! ## Verdicts -/

/-- Whether a box can be cropped from a frame of a size. -/
def Box.verdict (crop : Box) (frame : Size) : Except Error Unit := do
  let _ ← crop.toCrop
  if frame.containsBox crop then .ok ()
  else
    .error (.invalidArgument
      (.cropCorners crop.x crop.y (crop.right - 1) (crop.bottom - 1) frame))

/-- Whether a frame can be converted from one format to another. -/
def Format.verdict (source target : Format) : Except Error Unit :=
  if source = target then .error (.invalidArgument (.sameFormat source))
  else if source = .gray ∧ target.isYuv = true then .error (.unimplemented .grayToYuv)
  else .ok ()

/-- Whether an operation succeeds on a frame of given metadata. -/
def Operation.verdict (op : Operation) (m : Metadata) : Except Error Unit :=
  match op with
  | cropResize crop _ | uniformCropResize crop _ => crop.verdict m.size
  | convert format => m.format.verdict format
  | orient _ => .ok ()

/-- The metadata that an operation makes, or why it fails. There has to be a frame of that
metadata before the operation can run. -/
def Operation.dryRun (op : Operation) (m : Metadata) : Except Error Metadata := do
  let _ ← Frame.zeroed (op.outputMetadata m)
  op.verdict m
  return op.outputMetadata m

/-- The metadata that a chain makes, or why one of its operations fails. -/
def Metadata.dryRun (m : Metadata) (operations : List Operation) : Except Error Metadata :=
  operations.foldlM (fun m op => op.dryRun m) m

theorem Metadata.dryRun_cons (m : Metadata) (op : Operation) (rest : List Operation) :
    m.dryRun (op :: rest) = op.dryRun m >>= fun target => target.dryRun rest :=
  List.foldlM_cons

theorem Metadata.dryRun_append (m : Metadata) (first second : List Operation) :
    m.dryRun (first ++ second) = m.dryRun first >>= fun target => target.dryRun second :=
  List.foldlM_append

/-- With a frame for its result, only the verdict of an operation decides. -/
theorem Operation.dryRun_eq (op : Operation) {m : Metadata}
    (nonempty : (op.outputMetadata m).size.isEmpty = false)
    (known : (op.outputMetadata m).format ≠ .unknown) :
    op.dryRun m = op.verdict m >>= fun _ => .ok (op.outputMetadata m) := by
  obtain ⟨fresh, hfresh⟩ := Frame.zeroed_ok nonempty known
  rw [dryRun, hfresh]
  rfl

/-! ## Primitives -/

variable {input output : Frame} {source : Picture} {target : Canvas}

/-- Once both frames resolve, the precondition and the image decide. -/
theorem Primitive.status_run (p : Primitive) (hsource : input.picture = .ok source)
    (htarget : output.writable = .ok target) :
    (p.run input output).status =
      p.check input output >>= fun _ =>
        p.image source (output.format.grids output.size) >>= fun _ => .ok () := by
  have drawn : p.draw input output = p.check input output >>= fun _ =>
      p.image source target.components.grids >>= fun image => .ok (target, image) := by
    rw [draw, hsource, htarget]
    rfl
  rw [run_eq, drawn, ← Frame.grids_canvas (Frame.writable_eq_ok.1 htarget).1]
  cases p.check input output with
  | error e => rfl
  | ok u => cases p.image source target.components.grids <;> rfl

theorem Move.status_run (m : Move) (hsource : input.picture = .ok source)
    (htarget : output.writable = .ok target) :
    ((Primitive.move m).run input output).status = m.check input output := by
  rw [Primitive.status_run _ hsource htarget]
  show m.check input output >>= (fun _ => Except.ok ()) = m.check input output
  cases m.check input output <;> rfl

theorem checkCompatible_frames (nonempty : input.size.isEmpty = false)
    (nonempty' : output.size.isEmpty = false)
    (compatible : input.format.compatible output.format = true) :
    checkCompatible input output = .ok () :=
  checkCompatible_eq_ok.2 ⟨⟨nonempty, nonempty'⟩, compatible⟩

/-- The only conversion between formats that has no image is gray into luma and chroma. -/
theorem Picture.status_recoloured (targetSize : Size) {size : Size} {format targetFormat : Format}
    (known : format ≠ .unknown) (known' : targetFormat ≠ .unknown)
    (hsource : source.grids = format.grids size) :
    (source.recoloured (targetFormat.grids targetSize) >>= fun _ => Except.ok ()) =
      if format = .gray ∧ targetFormat.isYuv = true then .error (.unimplemented .grayToYuv)
      else .ok () := by
  have yuv := Format.channels_eq_none_iff known'
  cases hk : targetFormat.channels with
  | some k =>
    have packed : ¬targetFormat.isYuv = true := by simp [← yuv, hk]
    rw [Format.grids_packed hk, if_neg fun h => packed h.2]
    cases source <;> rfl
  | none =>
    have planar := yuv.1 hk
    rw [Format.grids_yuv hk]
    cases hn : format.channels with
    | none =>
      rw [Format.grids_yuv hn] at hsource
      obtain ⟨y, u, v, rfl, -, -, -⟩ := Picture.eq_yuv hsource
      have colours : format ≠ .gray := by
        rintro rfl
        cases hn
      rw [if_neg fun h => colours h.1]
      rfl
    | some n =>
      rw [Format.grids_packed hn] at hsource
      obtain ⟨s, rfl, hs⟩ := Picture.eq_packed hsource
      have few : s.channels < 3 ↔ format = .gray := by
        rw [show s.channels = n from congrArg Extent.channels hs]
        cases format <;> cases hn <;> decide
      simp only [recoloured, few, planar, and_true]
      split <;> rfl

/-! ## Operations -/

theorem Box.toCrop_eq_ok {crop : Box} {p : Primitive} (h : crop.toCrop = .ok p) :
    crop.isEmpty = false ∧
      p = .move (.crop crop.x crop.y (crop.right - 1) (crop.bottom - 1)) := by
  obtain ⟨nonempty, h⟩ := ite_error_eq_ok.1 h
  obtain ⟨x1, hx, h⟩ := bind_eq_ok.1 h
  obtain ⟨y1, hy, h⟩ := bind_eq_ok.1 h
  obtain ⟨-, rfl⟩ := ite_ok_eq_ok.1 hx
  obtain ⟨-, rfl⟩ := ite_ok_eq_ok.1 hy
  exact ⟨by simpa using nonempty, (Except.ok.inj h).symm⟩

/-- A box that is not empty lies inside of a frame exactly when its corners do. -/
theorem Size.containsBox_iff_corners {frame : Size} {crop : Box} (nonempty : crop.isEmpty = false) :
    frame.containsBox crop = true ↔ crop.x ≤ crop.right - 1 ∧ crop.right - 1 < frame.width ∧
      crop.y ≤ crop.bottom - 1 ∧ crop.bottom - 1 < frame.height := by
  obtain ⟨width, height⟩ := Size.isEmpty_eq_false.1 nonempty
  simp only [Box.size] at width height
  rw [containsBox_iff, Box.right, Box.bottom]
  omega

namespace Engine

theorem status_cropBox (crop : Box) (hsource : input.picture = .ok source)
    (htarget : output.writable = .ok target)
    (compatible : input.format.compatible output.format = true) :
    (software.cropBox crop input output : Outcome).status = crop.verdict input.size := by
  unfold cropBox Box.verdict
  cases h : crop.toCrop with
  | error e => rfl
  | ok p =>
    obtain ⟨nonempty, rfl⟩ := Box.toCrop_eq_ok h
    obtain ⟨canvas, hreadable, -⟩ := Frame.picture_eq_ok.1 hsource
    have source_nonempty := Frame.nonempty_of_writable (Frame.readable_iff_writable.1 hreadable)
    have target_nonempty := Frame.nonempty_of_writable htarget
    show ((Primitive.move _).run input output).status = _
    rw [Move.status_run _ hsource htarget]
    show checkCrop input output _ _ _ _ = (if input.size.containsBox crop = true then _ else _)
    rw [checkCrop, checkCompatible_frames source_nonempty target_nonempty compatible,
      if_congr (Size.containsBox_iff_corners nonempty) rfl rfl]
    rfl

theorem status_cropUniformly (crop : Box) (hsource : input.picture = .ok source)
    (htarget : output.writable = .ok target)
    (compatible : input.format.compatible output.format = true) :
    (software.cropUniformly crop input output : Outcome).status = crop.verdict input.size := by
  obtain ⟨planes, expanded, -, -⟩ := Frame.canvas_eq_ok.1 (Frame.writable_eq_ok.1 htarget).1
  obtain ⟨region, hregion, -, metadata⟩ := Frame.topLeft_eq_ok expanded
    (uniformFit_fitsInto crop.size (Frame.nonempty_of_writable htarget))
  obtain ⟨corner, hcorner, -, -⟩ := Frame.writable_topLeft hregion htarget
  have format : region.format = output.format := congrArg Metadata.format metadata
  unfold cropUniformly
  rw [hregion]
  exact status_cropBox crop hsource hcorner (by rwa [format])

theorem status_convert (hsource : input.picture = .ok source)
    (htarget : output.writable = .ok target) (size : output.size = input.size) :
    (Primitive.convert.run input output).status = input.format.verdict output.format := by
  obtain ⟨canvas, hreadable, -⟩ := Frame.picture_eq_ok.1 hsource
  have source_nonempty := Frame.nonempty_of_writable (Frame.readable_iff_writable.1 hreadable)
  have target_nonempty := Frame.nonempty_of_writable htarget
  have image := Picture.status_recoloured output.size input.format_ne_unknown
    output.format_ne_unknown (Frame.grids_picture hsource)
  rw [Primitive.status_run _ hsource htarget]
  show (checkConvert input output >>= fun _ => _) = _
  rw [checkConvert, checkFrames_eq_ok.2 ⟨source_nonempty, target_nonempty⟩, if_pos size.symm,
    checkConversion, Format.verdict]
  split
  · rfl
  · rw [if_neg (by simp [input.format_ne_unknown, output.format_ne_unknown])]
    exact image

theorem status_orient (hsource : input.picture = .ok source) (sound : output.Sound)
    (format : output.format = input.format)
    (size : output.size = orientedSize input.size input.orientation output.orientation) :
    (software.orient input output : Outcome).status = .ok () := by
  obtain ⟨canvas, hreadable, -⟩ := Frame.picture_eq_ok.1 hsource
  have nonempty := Frame.nonempty_of_writable (Frame.readable_iff_writable.1 hreadable)
  rw [orient_eq]
  exact (Reorientation.transform_carries _ nonempty hsource sound
    (by rw [format, Format.compatible_refl]) size).1

/-- An operation on a frame that can be read, into a sound frame of the metadata that it makes,
has the status of its verdict. -/
theorem status_perform (op : Operation) (hsource : input.picture = .ok source)
    (sound : output.Sound) (yields : output.metadata = op.outputMetadata input.metadata) :
    (software.perform op input output : Outcome).status = op.verdict input.metadata := by
  have ⟨target, htarget, _⟩ := sound
  obtain ⟨size, orientation, format⟩ := Metadata.mk.inj yields
  cases op with
  | cropResize crop scaled =>
    have format : output.format = input.format := format
    exact status_cropBox crop hsource htarget (by rw [format, Format.compatible_refl])
  | uniformCropResize crop scaled =>
    have format : output.format = input.format := format
    exact status_cropUniformly crop hsource htarget (by rw [format, Format.compatible_refl])
  | convert converted =>
    have format : output.format = converted := format
    rw [← format]
    exact status_convert hsource htarget size
  | orient oriented =>
    have orientation : output.orientation = oriented := orientation
    rw [← orientation] at size
    exact status_orient hsource sound format size

/-! ## Chains -/

/-- A step that is not the last fails as its dry run does, or makes a frame that can be read, of
the metadata that the dry run makes. -/
theorem advance_dryRun {s : Stage} (hsource : s.source.picture = .ok source) (op : Operation)
    (timestamp : Option Nat) :
    (∃ e, op.dryRun s.source.metadata = .error e ∧ s.advance timestamp op = .error e) ∨
      ∃ next shown, op.dryRun s.source.metadata = .ok (s.target op) ∧
        s.advance timestamp op = .ok next ∧ next.source.metadata = s.target op ∧
          next.source.picture = .ok shown := by
  rcases ofBuffer_grown s.spare (s.target op) with ⟨e, failed, no_room⟩ | ⟨blank, -, scratch, -⟩
  · refine .inl ⟨e, ?_, ?_⟩
    · show Frame.zeroed (s.target op) >>= _ = _
      rw [no_room]
      rfl
    · rw [Stage.advance, Stage.scratch, failed]
      rfl
  · have hblank : Frame.ofBuffer (s.scratch (byteSize (s.target op).size (s.target op).format))
        (s.target op) = .ok blank := scratch
    obtain ⟨nonempty, -, -, metadata, -⟩ := Frame.ofBuffer_eq_ok.1 hblank
    obtain ⟨-, next, hnext, -, advanced⟩ := Stage.advance_of_blank rfl hblank timestamp
    have next_metadata := Frame.metadata_ofBuffer hnext
    have dry := op.dryRun_eq (m := s.source.metadata) nonempty (Frame.known_of_ofBuffer hblank)
    have status := status_perform op hsource ((Frame.sound_ofBuffer hblank).stamped timestamp)
      metadata
    rw [advanced, status, dry]
    cases op.verdict s.source.metadata with
    | error e => exact .inl ⟨e, rfl, rfl⟩
    | ok u =>
      have shown := Frame.picture_eq_ok.2 ⟨_, Frame.canvas_ofBuffer hnext, rfl⟩
      exact .inr ⟨_, _, rfl, rfl, next_metadata, shown⟩

/-- Every step of a chain has the status of its dry run, so all of them have. -/
theorem status_finish (timestamp : Option Nat) (sound : output.Sound) {operations : List Operation}
    (nonempty : operations ≠ []) {s : Stage} (hsource : s.source.picture = .ok source)
    (yields : s.source.metadata.after operations = output.metadata) :
    (s.finish timestamp output operations).status =
      s.source.metadata.dryRun operations >>= fun _ => .ok () := by
  induction operations generalizing s source with
  | nil => exact absurd rfl nonempty
  | cons op rest ih =>
    rw [Metadata.dryRun_cons]
    cases rest with
    | nil =>
      have yields : op.outputMetadata s.source.metadata = output.metadata := yields
      have ⟨target, htarget, _⟩ := sound
      have drawable := op.dryRun_eq (m := s.source.metadata)
        (by rw [yields]; exact Frame.nonempty_of_writable htarget)
        (by rw [yields]; exact output.format_ne_unknown)
      show (software.perform op s.source output : Outcome).status = _
      rw [status_perform op hsource sound yields.symm, drawable]
      cases op.verdict s.source.metadata <;> rfl
    | cons following others =>
      rw [Stage.finish_cons (by simp)]
      rcases advance_dryRun hsource op timestamp with
        ⟨e, dry, failed⟩ | ⟨next, shown, dry, advanced, metadata, hshown⟩
      · rw [dry, failed]
        rfl
      · rw [dry, advanced]
        have later := ih (by simp) hshown (by rw [metadata]; exact yields)
        rw [metadata] at later
        exact later

/-- A chain that makes the metadata of the output has the status of its dry run. -/
theorem status_execute {operations : List Operation} (nonempty : operations ≠ [])
    (hsource : input.picture = .ok source) (sound : output.Sound)
    (yields : input.metadata.after operations = output.metadata) :
    (software.execute operations input output : Outcome).status =
      input.metadata.dryRun operations >>= fun _ => .ok () := by
  rw [execute_eq_finish nonempty yields]
  exact status_finish input.timestamp sound nonempty hsource yields

end Engine

end Raster
