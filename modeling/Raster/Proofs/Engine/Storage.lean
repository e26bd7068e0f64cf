import Raster.Proofs.Engine.Checked
import Raster.Proofs.Engine.Orientation

/-!
# Requests and the storage of their input

A picture can lie in one plane, in two or in three, with gaps between samples, between rows and
after planes. A request reads the picture and nothing else, as long as no tap leaves the region that
it scales: frames that are alike get the same answer, and the output holds the same bytes after it.

Results: `Engine.steps_reads` (a chain on frames that are alike, at any times),
`Request.serve_reads` (every request) and `Request.serve_of_same_picture` (frames of the same
metadata that show the same picture).
-/

namespace Raster

/-! ## Chains -/

theorem Outcome.status_stamped (r : Outcome) (t : Option Nat) :
    (r.stamped t).status = r.status := rfl

theorem Outcome.memory_stamped (r : Outcome) (t : Option Nat) :
    (r.stamped t).frame.memory = r.frame.memory := rfl

namespace Engine

/-- A chain makes the same of frames that are alike. Its intermediate frames carry the time of the
input, which no step reads. -/
theorem steps_reads (time time' : Option Nat) (output : Frame) (operations : List Operation)
    {source source' : Frame} (held spare : Bytes) (alike : source.Alike source')
    (yields : source.metadata.after operations = output.metadata)
    (inside : source.metadata.StaysInside operations) :
    (software.steps time output operations source held spare : Outcome) =
      software.steps time' output operations source' held spare := by
  induction operations generalizing source source' held spare with
  | nil => rfl
  | cons op rest ih =>
    have lawful := perform_lawful op
    obtain ⟨here, later⟩ := inside
    have yields : (op.outputMetadata source.metadata).after rest = output.metadata := yields
    cases rest with
    | nil => exact perform_reads op alike output (yields ▸ here)
    | cons next others =>
      have step {bytes : Bytes} {scratch : Frame}
          (h : Frame.ofBuffer bytes (op.outputMetadata source.metadata) = .ok scratch) :
          (software.perform op source (scratch.stamped time) : Outcome) =
            (software.perform op source' scratch : Outcome).stamped time := by
        rw [lawful.stamps, perform_reads op alike scratch (Frame.metadata_ofBuffer h ▸ here)]
      have step' (scratch : Frame) :
          (software.perform op source' (scratch.stamped time') : Outcome) =
            (software.perform op source' scratch : Outcome).stamped time' := lawful.stamps _ _ _
      unfold steps
      dsimp only
      rw [← alike.metadata]
      split
      · rfl
      · next scratch hscratch =>
        simp only [bind, pure]
        rw [step hscratch, step', Outcome.status_stamped, Outcome.status_stamped, Outcome.memory_stamped,
          Outcome.memory_stamped]
        split
        · rfl
        · split
          · rfl
          · next following hfollowing =>
            rw [← Frame.metadata_ofBuffer hfollowing] at later yields
            exact ih _ _ (.stamped _ _ _) yields later

theorem execute_reads (operations : List Operation) {a b : Frame} (alike : a.Alike b)
    (output : Frame) (inside : a.metadata.after operations = output.metadata →
      a.metadata.StaysInside operations) :
    (software.execute operations a output : Outcome) = software.execute operations b output := by
  unfold execute
  dsimp only
  rw [← alike.metadata]
  split
  · rfl
  · split
    · rfl
    · next yields =>
      have yields := Decidable.not_not.1 yields
      exact steps_reads _ _ output operations _ _ alike yields (inside yields)

theorem preprocess_reads (roi : Option Box) (uniform : Bool) {a b : Frame} (alike : a.Alike b)
    (output : Frame)
    (inside : a.metadata.StaysInside (a.metadata.planTo output.metadata roi uniform)) :
    (software.preprocess roi uniform a output : Outcome) =
      software.preprocess roi uniform b output := by
  unfold preprocess
  dsimp only
  rw [← alike.metadata]
  split
  · next nothing =>
    exact Primitive.run_reads alike output (Metadata.resize_staysInside (List.isEmpty_iff.1 nothing))
  · exact execute_reads _ alike output fun _ => inside

end Engine

/-! ## All requests -/

/-- Frames that are alike are served alike. -/
theorem Request.serve_reads (r : Request) {a b : Frame} (alike : a.Alike b) (output : Frame)
    (inside : r.StaysInside a.metadata output.metadata) :
    (r.serve Engine.software a output : Outcome) = r.serve Engine.software b output := by
  cases r with
  | call p => exact Primitive.run_reads alike output inside
  | orient => exact Engine.orient_reads alike output inside
  | perform op => exact Engine.perform_reads op alike output inside
  | execute operations => exact Engine.execute_reads operations alike output inside
  | preprocess roi uniform => exact Engine.preprocess_reads roi uniform alike output inside

/-- Two frames of the same metadata that can be read and show the same samples get the same answer
to every request, and leave the same output: planes, strides, spare bytes and times make no
difference. No tap may leave the region that it scales, and then no read leaves its slice either. -/
theorem Request.serve_of_same_picture (r : Request) {a b : Frame} {p q : Picture}
    (metadata : a.metadata = b.metadata) (shown : a.picture = .ok p) (shown' : b.picture = .ok q)
    (agree : p.Agree q) (output : Frame) (inside : r.StaysInside a.metadata output.metadata) :
    let answer : Outcome := r.serve Engine.software a output
    (r.serve Engine.software b output : Outcome) = answer ∧
      r.serve Engine.checked a output = some answer ∧
        r.serve Engine.checked b output = some answer := by
  intro answer
  have alike : a.Alike b := ⟨metadata, by rw [shown, shown']; exact .ok agree⟩
  have same : (r.serve Engine.software b output : Outcome) = answer :=
    (r.serve_reads alike output inside).symm
  refine ⟨same, r.serve_checked inside, ?_⟩
  rw [r.serve_checked (metadata ▸ inside), same]

/-- The row of `nv12Row` in a single plane: spare bytes after luma, and one after chroma. -/
def Frame.nv12Strip (spare : UInt8) : Frame :=
  ⟨[⟨#[1, 2, 3, spare, spare, 10, 20, 11, 21, spare], ⟨5, 1⟩⟩], ⟨3, 1⟩, .nv12, .topLeft, some 60,
    rfl, by simp [Stride.hasZero]⟩

/-- Grids of one row are equal if they are, sample by sample. -/
theorem Samples.agree_of_row {s t : Samples} {width : Nat} (hs : s.toExtent = ⟨width, 1, 1⟩)
    (ht : t.toExtent = ⟨width, 1, 1⟩) (same : ∀ x < width, s.value x 0 0 = t.value x 0 0) :
    s.Agree t := by
  refine ⟨hs.trans ht.symm, fun x y c hx hy hc => ?_⟩
  rw [hs] at hx hy hc
  obtain rfl : y = 0 := Nat.lt_one_iff.1 hy
  obtain rfl : c = 0 := Nat.lt_one_iff.1 hc
  exact same x hx

/-- A chain that scales the row, fits the result into one pixel and drops its chroma. -/
theorem Request.serve_of_same_picture_strip :
    let chain : Request := .execute [.cropResize ⟨0, 0, 3, 1⟩ ⟨2, 2⟩,
      .uniformCropResize ⟨0, 0, 2, 2⟩ ⟨1, 1⟩, .convert .gray]
    let answer (input : Frame) : Outcome := chain.serve Engine.software input (.grayDot 0)
    answer (.nv12Strip 99) = answer .nv12Row ∧ (answer .nv12Row).status = .ok () := by
  intro chain answer
  obtain ⟨y, u, v, shown⟩ : ∃ y u v, (Frame.nv12Strip 99).picture = .ok (.yuv y u v) :=
    ⟨_, _, _, rfl⟩
  obtain ⟨y', u', v', shown'⟩ : ∃ y u v, Frame.nv12Row.picture = .ok (.yuv y u v) := ⟨_, _, _, rfl⟩
  have agree : Picture.Agree (.yuv y u v) (.yuv y' u' v') := by
    cases shown
    cases shown'
    exact .yuv (Samples.agree_of_row rfl rfl (by decide)) (Samples.agree_of_row rfl rfl (by decide))
      (Samples.agree_of_row rfl rfl (by decide))
  have inside : chain.StaysInside (Frame.nv12Strip 99).metadata (Frame.grayDot 0).metadata :=
    fun _ => Metadata.staysInside_of_short (by decide)
  have answers := Request.serve_of_same_picture chain (a := .nv12Strip 99) (b := .nv12Row) rfl shown
    shown' agree (.grayDot 0) inside
  exact ⟨answers.1.symm, by decide +kernel⟩

/-- Two rows of equal samples, one of them in a plane with a byte to spare, are scaled to one pixel
more. Where reads are watched there is an outcome for the row that goes on, and none for the other. -/
theorem Request.spare_byte_read :
    let a : Frame := .blackRow .gray 1 rfl 16777220 1 (by decide)
    let b : Frame := .blackRow .gray 1 rfl 16777220 0 (by decide)
    let output : Frame := .blackRow .gray 1 rfl 16777221 0 (by decide)
    (a.metadata = b.metadata ∧ ∃ p q, a.picture = .ok p ∧ b.picture = .ok q ∧ p.Agree q) ∧
      (∃ answer, (Request.call (.move .resize)).serve Engine.checked a output = some answer ∧
        answer.status = .ok ()) ∧
      (Request.call (.move .resize)).serve Engine.checked b output = none := by
  intro a b output
  have gray : Format.gray.channels = some 1 := rfl
  obtain ⟨done, long⟩ := Frame.resize_blackRow gray 16777220 1 (by decide)
    gray (m := 16777221) (by decide) rfl (by decide)
  obtain ⟨-, short⟩ := Frame.resize_blackRow gray 16777220 0 (by decide)
    gray (m := 16777221) (by decide) rfl (by decide)
  have reach := Tap.reach_centred_long
  refine ⟨Frame.picture_blackRow gray 16777220 1 (by decide) 0, ⟨_, ?_, done⟩, ?_⟩
  · rw [serve_call_checked, long, reach]
    rfl
  · rw [serve_call_checked, short, reach]
    rfl

end Raster
