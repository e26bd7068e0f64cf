import Raster.Proofs.Engine.DryRun
import Raster.Proofs.Engine.Plan

/-!
# When preprocessing succeeds

The plan of two frames crops at the size before orientation, then converts, then orients. On
canonical frames each of its steps does its work except in two cases: the region of interest
is no part of the input, or gray would have to become luma and chroma.

* `Size.Holds` — there is no region of interest, or it is a part of the frame.
* `Metadata.Leads` — where a chain leads, and what may keep it from getting there.

Results: `Metadata.leads_planTo` (a plan leads to the metadata of the output),
`Engine.status_preprocess` (the status of preprocessing) and `Engine.preprocess_ok_iff` (when
it succeeds on canonical frames, and with which error it fails).
-/

namespace Raster

/-! ## Regions of interest -/

/-- A region of interest, if there is one, has pixels and lies inside of the frame. -/
def Size.Holds (frame : Size) (roi : Option Box) : Prop :=
  ∀ box, roi = some box → box.isEmpty = false ∧ frame.containsBox box = true

theorem lastBefore_of_le {edge side : Nat} (h : edge ≤ side) (range : side < UInt32.size) :
    lastBefore edge = .ok (edge - 1) := by
  rw [lastBefore, if_pos (by omega)]

/-- A box can be cropped from a frame exactly when it is a part of it. -/
theorem Box.verdict_eq_ok {crop : Box} {frame : Size} (range : frame.InRange) :
    crop.verdict frame = .ok () ↔ crop.isEmpty = false ∧ frame.containsBox crop = true := by
  unfold verdict
  constructor
  · intro h
    obtain ⟨p, hp, h⟩ := bind_eq_ok.1 h
    exact ⟨(toCrop_eq_ok hp).1, ite_eq_ok.1 h⟩
  · rintro ⟨nonempty, inside⟩
    obtain ⟨right, bottom⟩ := Size.containsBox_iff.1 inside
    rw [toCrop, nonempty, lastBefore_of_le right range.1, lastBefore_of_le bottom range.2]
    exact if_pos inside

/-- A box that cannot be cropped is an invalid argument. -/
theorem Box.verdict_error {crop : Box} {frame : Size} {e : Error}
    (h : crop.verdict frame = .error e) : ∃ fault, e = .invalidArgument fault := by
  unfold verdict toCrop lastBefore at h
  split at h
  · cases h
    exact ⟨_, rfl⟩
  · split at h
    · split at h
      · simp only [bind, Except.bind, pure, Except.pure] at h
        split at h
        · cases h
        · cases h
          exact ⟨_, rfl⟩
      · cases h
        exact ⟨_, rfl⟩
    · cases h
      exact ⟨_, rfl⟩

/-- The status of the crop of a plan. -/
def Size.roiVerdict (frame : Size) : Option Box → Except Error Unit
  | none => .ok ()
  | some box => box.verdict frame

namespace Size

variable {frame : Size} {roi : Option Box}

theorem roiVerdict_eq_ok (range : frame.InRange) :
    frame.roiVerdict roi = .ok () ↔ frame.Holds roi := by
  cases roi with
  | none =>
    refine ⟨fun _ box h => ?_, fun _ => rfl⟩
    cases h
  | some box =>
    refine (Box.verdict_eq_ok range).trans ⟨fun h box' same => ?_, fun h => h box rfl⟩
    cases same
    exact h

theorem roiVerdict_error {e : Error} (h : frame.roiVerdict roi = .error e) :
    ∃ fault, e = .invalidArgument fault := by
  cases roi with
  | none => cases h
  | some box => exact Box.verdict_error h

/-- A whole frame can be cropped. -/
theorem verdict_ofSize (range : frame.InRange) (nonempty : frame.isEmpty = false) :
    (Box.ofSize frame).verdict frame = .ok () :=
  (Box.verdict_eq_ok range).2 ⟨nonempty, frame.containsBox_ofSize⟩

end Size

/-! ## Plans -/

/-- A chain leads from one metadata to another, and its dry run ends there or with the error of
a verdict. -/
structure Metadata.Leads (m : Metadata) (operations : List Operation)
    (verdict : Except Error Unit) (target : Metadata) : Prop where
  after : m.after operations = target
  dryRun : m.dryRun operations = verdict >>= fun _ => .ok target

namespace Metadata.Leads

variable {m target last : Metadata} {first second : List Operation}
  {verdict verdict' : Except Error Unit}

theorem nil (m : Metadata) : m.Leads [] (.ok ()) m := ⟨rfl, rfl⟩

theorem single {op : Operation} (h : op.outputMetadata m = target)
    (nonempty : target.size.isEmpty = false) (known : target.format ≠ .unknown) :
    m.Leads [op] (op.verdict m) target := by
  subst h
  refine ⟨rfl, ?_⟩
  rw [dryRun_cons, op.dryRun_eq nonempty known]
  cases op.verdict m <;> rfl

theorem append (h : m.Leads first verdict target) (h' : target.Leads second verdict' last) :
    m.Leads (first ++ second) (verdict >>= fun _ => verdict') last := by
  constructor
  · rw [after_append, h.after, h'.after]
  · rw [dryRun_append, h.dryRun]
    cases verdict with
    | error e => rfl
    | ok u => exact h'.dryRun

end Metadata.Leads

namespace Metadata

variable {input output : Metadata}

/-- The first part of a plan: a crop, or nothing where the whole frame has the wanted size. -/
theorem leads_cropping (output : Metadata) (range : input.size.InRange)
    (nonempty : input.size.isEmpty = false) (known : input.format ≠ .unknown)
    (scaled_nonempty : (input.scaledSize output).isEmpty = false) (roi : Option Box)
    (uniform : Bool) :
    input.Leads (input.cropping output roi uniform) (input.size.roiVerdict roi)
      { input with size := input.scaledSize output } := by
  have crop (box : Box) : input.Leads
      [if uniform then .uniformCropResize box (input.scaledSize output)
        else .cropResize box (input.scaledSize output)]
      (box.verdict input.size) { input with size := input.scaledSize output } := by
    cases uniform <;> exact .single rfl scaled_nonempty known
  cases roi with
  | some box => exact crop box
  | none =>
    by_cases same : input.scaledSize output = input.size
    · rw [cropping_eq_nil.2 ⟨rfl, same⟩, same]
      exact .nil input
    · have whole := crop (.ofSize input.size)
      rw [Size.verdict_ofSize range nonempty] at whole
      simp only [cropping, cropped?, if_neg same]
      exact whole

/-- The second part: a conversion, or nothing between equal formats. -/
theorem leads_converting (m : Metadata) (nonempty : m.size.isEmpty = false) {target : Format}
    (known : target ≠ .unknown) :
    m.Leads (converting m.format target)
      (if m.format = .gray ∧ target.isYuv = true then .error (.unimplemented .grayToYuv)
        else .ok ())
      { m with format := target } := by
  by_cases same : target = m.format
  · subst same
    have recolours : ¬(m.format = .gray ∧ m.format.isYuv = true) := by
      rintro ⟨gray, yuv⟩
      rw [gray] at yuv
      cases yuv
    rw [converting_eq_nil.2 rfl, if_neg recolours]
    exact .nil m
  · have convert : m.Leads [.convert target] (m.format.verdict target)
        { m with format := target } := .single rfl nonempty known
    rw [Format.verdict, if_neg (Ne.symm same)] at convert
    rw [converting, if_neg same]
    exact convert

/-- The third part: a change of orientation, or nothing between equal ones. -/
theorem leads_orienting (m : Metadata) (target : Orientation) (nonempty : m.size.isEmpty = false)
    (known : m.format ≠ .unknown) :
    m.Leads (orienting m.orientation target) (.ok ())
      { m with size := orientedSize m.size m.orientation target, orientation := target } := by
  by_cases same : target = m.orientation
  · subst same
    rw [orienting_eq_nil.2 rfl, Size.orientedSize_self]
    exact .nil m
  · rw [orienting, if_neg same]
    refine .single rfl ?_ known
    rwa [Size.isEmpty_orientedSize]

/-- The status of the plan from one metadata to another. -/
def verdictTo (input output : Metadata) (roi : Option Box) : Except Error Unit :=
  input.size.roiVerdict roi >>= fun _ =>
    if input.format = .gray ∧ output.format.isYuv = true then .error (.unimplemented .grayToYuv)
    else .ok ()

/-- A plan makes the metadata of the output, or fails with its verdict. -/
theorem leads_planTo (input output : Metadata) (range : input.size.InRange)
    (nonempty : input.size.isEmpty = false) (known : input.format ≠ .unknown)
    (target_nonempty : output.size.isEmpty = false) (target_known : output.format ≠ .unknown)
    (roi : Option Box) (uniform : Bool) :
    input.Leads (input.planTo output roi uniform) (input.verdictTo output roi) output := by
  let scaled : Metadata := { input with size := input.scaledSize output }
  let recoloured : Metadata := { scaled with format := output.format }
  have scaled_nonempty : scaled.size.isEmpty = false :=
    (Size.isEmpty_orientedSize ..).trans target_nonempty
  have cropped := leads_cropping output range nonempty known scaled_nonempty roi uniform
  have converted := leads_converting scaled scaled_nonempty target_known
  have oriented := leads_orienting recoloured output.orientation scaled_nonempty target_known
  have parts : input.Leads (input.planTo output roi uniform)
      (input.verdictTo output roi >>= fun _ => .ok ()) _ :=
    (cropped.append converted).append oriented
  have makes := parts.after.symm.trans (after_plan input output roi uniform)
  have verdict : (input.verdictTo output roi >>= fun _ => Except.ok ()) =
    input.verdictTo output roi := bind_pure_unit
  rwa [makes, verdict] at parts

section Verdict

variable {roi : Option Box}

theorem verdictTo_of_holds (range : input.size.InRange) (h : input.size.Holds roi) :
    input.verdictTo output roi =
      if input.format = .gray ∧ output.format.isYuv = true then .error (.unimplemented .grayToYuv)
      else .ok () := by
  rw [verdictTo, (Size.roiVerdict_eq_ok range).2 h]
  rfl

/-- A region of interest that is no part of the input is an invalid argument. -/
theorem verdictTo_of_not_holds (output : Metadata) (range : input.size.InRange)
    (h : ¬input.size.Holds roi) :
    ∃ fault, input.verdictTo output roi = .error (.invalidArgument fault) := by
  unfold verdictTo
  cases verdict : input.size.roiVerdict roi with
  | ok u => exact absurd ((Size.roiVerdict_eq_ok range).1 verdict) h
  | error e =>
    obtain ⟨fault, rfl⟩ := Size.roiVerdict_error verdict
    exact ⟨fault, rfl⟩

end Verdict

end Metadata

/-! ## Preprocessing -/

namespace Engine

variable {input output : Frame} {source : Picture}

/-- Preprocessing has the status of its plan. -/
theorem status_preprocess (range : input.size.InRange) (hsource : input.picture = .ok source)
    (sound : output.Sound) (roi : Option Box) (uniform : Bool) :
    (software.preprocess roi uniform input output : Outcome).status =
      input.metadata.verdictTo output.metadata roi := by
  have ⟨target, htarget, _⟩ := sound
  obtain ⟨canvas, hreadable, -⟩ := Frame.picture_eq_ok.1 hsource
  have nonempty := Frame.nonempty_of_writable (Frame.readable_iff_writable.1 hreadable)
  have target_nonempty := Frame.nonempty_of_writable htarget
  have leads := Metadata.leads_planTo input.metadata output.metadata range nonempty
    input.format_ne_unknown target_nonempty output.format_ne_unknown roi uniform
  generalize input.metadata.verdictTo output.metadata roi = verdict at leads ⊢
  by_cases still : input.metadata.planTo output.metadata roi uniform = []
  · -- nothing changes, so a resize copies
    rw [still] at leads
    have format : input.format = output.format := congrArg Metadata.format leads.after
    obtain ⟨⟨⟩, done, -⟩ := bind_eq_ok.1 leads.dryRun.symm
    rw [preprocess_of_nothing _ still, done]
    show ((Primitive.move .resize).run input output).status = _
    rw [Move.status_run .resize hsource htarget]
    exact checkCompatible_frames nonempty target_nonempty (by rw [format, Format.compatible_refl])
  · rw [preprocess_of_plan _ still rfl, status_execute still hsource sound leads.after,
      leads.dryRun]
    cases verdict <;> rfl

/-- Preprocessing between canonical frames succeeds exactly when the region of interest is a
part of the input and gray need not become luma and chroma. If the region is no part of it,
that is an invalid argument; otherwise the conversion is not implemented. The plan always
makes the metadata of the output. -/
theorem preprocess_ok_iff {bytes bytes' : Bytes} {m m' : Metadata}
    (hinput : Frame.ofBuffer bytes m = .ok input) (houtput : Frame.ofBuffer bytes' m' = .ok output)
    (range : m.size.InRange) (roi : Option Box) (uniform : Bool) :
    let status := (software.preprocess roi uniform input output : Outcome).status
    let grayToYuv := m.format = .gray ∧ m'.format.isYuv = true
    (status = .ok () ↔ m.size.Holds roi ∧ ¬grayToYuv) ∧
      (m.size.Holds roi → grayToYuv → status = .error (.unimplemented .grayToYuv)) ∧
      (¬m.size.Holds roi → ∃ fault, status = .error (.invalidArgument fault)) ∧
      ∀ fault, status ≠ .error (.metadataMismatch fault) := by
  obtain ⟨-, -, -, hm, -⟩ := Frame.ofBuffer_eq_ok.1 hinput
  obtain ⟨-, -, -, hm', -⟩ := Frame.ofBuffer_eq_ok.1 houtput
  have shown := Frame.picture_eq_ok.2 ⟨_, Frame.canvas_ofBuffer hinput, rfl⟩
  have status := status_preprocess (by rwa [← hm] at range) shown (Frame.sound_ofBuffer houtput) roi
    uniform
  dsimp only
  rw [status, hm, hm']
  by_cases holds : m.size.Holds roi
  · rw [Metadata.verdictTo_of_holds range holds]
    by_cases grayToYuv : m.format = .gray ∧ m'.format.isYuv = true
    · simp [holds, grayToYuv]
    · simp only [if_neg grayToYuv]
      simp [holds, grayToYuv]
  · obtain ⟨fault, verdict⟩ := Metadata.verdictTo_of_not_holds m' range holds
    rw [verdict]
    simp [holds]

/-- Two pixels of a row are cropped, converted and stood upright; three would leave the frame. -/
theorem preprocess_ok_iff_row :
    ∃ output, Frame.zeroed ⟨⟨1, 2⟩, .leftTop, .rgb⟩ = .ok output ∧
      (software.preprocess (some ⟨1, 0, 2, 1⟩) true .nv12Row output : Outcome).status = .ok () ∧
        (software.preprocess (some ⟨1, 0, 3, 1⟩) true .nv12Row output : Outcome).status ≠ .ok () := by
  obtain ⟨output, houtput⟩ := Frame.zeroed_ok (m := ⟨⟨1, 2⟩, .leftTop, .rgb⟩) rfl (by decide)
  have hinput : Frame.ofBuffer #[1, 2, 3, 10, 20, 11, 21] ⟨⟨3, 1⟩, .topLeft, .nv12⟩ =
      .ok .nv12Row := rfl
  have range : Size.InRange ⟨3, 1⟩ := ⟨by decide, by decide⟩
  refine ⟨output, houtput, ?_, ?_⟩
  · refine (preprocess_ok_iff hinput houtput range _ true).1.2 ⟨?_, by decide⟩
    rintro box ⟨⟩
    exact ⟨rfl, rfl⟩
  · intro done
    obtain ⟨holds, -⟩ := (preprocess_ok_iff hinput houtput range _ true).1.1 done
    exact absurd (holds _ rfl).2 (by decide)

end Engine

end Raster
