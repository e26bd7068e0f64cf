import Raster.Proofs.Engine.DryRun
import Raster.Proofs.Engine.Failure
import Raster.Proofs.Frame.Factories

/-!
# Requests between frames that resolve

Whether the strides and the length of a frame make sense is found out when its grids are resolved.
Frames that resolve are never refused for their storage after that, and neither is one of the
frames that an engine makes for itself on the way.

* `Error.isStorage`, `Admits` — complaints about storage, and a step without them.

Results: `Engine.orient_admits`, `Engine.perform_admits`, `Stage.finish_admits` (single requests
and chains), `Request.serve_admits` (every request between frames that resolve) and
`FrameSource.resolves_iff` (which of the frames that factories accept are never refused).
-/

namespace Raster

/-- The error is about a stride or the length of a buffer. -/
def Error.isStorage : Error → Bool
  | .frame (.invalidStride ..) | .frame (.bufferTooSmall ..) => true
  | _ => false

/-- No error of the step is about a stride or the length of a buffer. -/
def Admits {α : Type} (step : Except Error α) : Prop := Raises (fun e => e.isStorage = false) step

/-! ## Frames -/

namespace Frame

variable {bytes : Bytes} {m : Metadata} {f g : Frame}

/-- The region of a proportional crop always exists and resolves with its frame. -/
theorem Resolves.exists_topLeft (h : f.Resolves) (crop : Size) :
    ∃ region, f.topLeft (uniformFit crop f.size) = .ok region ∧ region.Resolves := by
  obtain ⟨c, -, hc⟩ := h
  obtain ⟨planes, expanded, -, -⟩ := canvas_eq_ok.1 (writable_eq_ok.1 hc).1
  obtain ⟨region, hregion, -⟩ :=
    topLeft_eq_ok expanded (Engine.uniformFit_fitsInto crop (nonempty_of_writable hc))
  obtain ⟨corner, hcorner, -⟩ := writable_topLeft hregion hc
  exact ⟨region, hregion, .of_writable hcorner⟩

/-- A canonical frame resolves, whatever was written into it. -/
theorem resolves_of_room (h : ofBuffer bytes m = .ok f) (metadata : g.metadata = m)
    (room : g.planes.map Plane.room = f.planes.map Plane.room) : g.Resolves :=
  (sound_ofBuffer (ofBuffer_memory h metadata room)).resolves.stamped g.timestamp

/-- A buffer that is long enough is refused for the size or the format. -/
theorem ofBuffer_admits (long : byteSize m.size m.format ≤ bytes.size) :
    Admits (ofBuffer bytes m) := by
  intro e h
  by_cases nonempty : m.size.isEmpty = true
  · rw [ofBuffer, if_pos nonempty] at h
    cases h
    rfl
  · by_cases unknown : m.format = .unknown
    · rw [ofBuffer, if_neg nonempty, splitPlanes, if_neg (by omega), unknown] at h
      cases h
      rfl
    · obtain ⟨f, hf⟩ := ofBuffer_ok (by simpa using nonempty) unknown long
      rw [hf] at h
      cases h

theorem zeroed_admits (m : Metadata) : Admits (zeroed m) :=
  ofBuffer_admits (Nat.le_of_eq Array.size_replicate.symm)

end Frame

theorem Transform.Lawful.resolves {t : Transform} (lawful : t.Lawful) {bytes : Bytes}
    {m : Metadata} {scratch : Frame} (h : Frame.ofBuffer bytes m = .ok scratch) (input : Frame)
    (time : Option Nat) : (t input (scratch.stamped time)).frame.Resolves := by
  have metadata := Frame.metadata_ofBuffer h
  exact Frame.resolves_of_room h ((lawful.metadata _ _).trans metadata) (lawful.room _ _)

/-! ## Single requests -/

variable {input output : Frame}

theorem Primitive.check_admits (p : Primitive) : Admits (p.check input output) :=
  p.check_raises (fun _ => rfl) fun _ => rfl

theorem Primitive.image_admits (p : Primitive) (source : Picture) (target : Grids) :
    Admits (p.image source target) := by
  cases p with
  | move m => exact .ok _
  | convert =>
    show Admits (source.recoloured target)
    exact source.recoloured_raises (fun _ => rfl) target

theorem Primitive.run_admits (p : Primitive) (hi : input.Resolves) (ho : output.Resolves) :
    Admits (p.run input output).status := by
  obtain ⟨source, hsource⟩ := hi.exists_picture
  obtain ⟨target, -, htarget⟩ := ho
  rw [status_run p hsource htarget]
  exact .bind p.check_admits fun _ => .bind (p.image_admits _ _) fun _ => .ok _

theorem Admits.after {step next : Outcome} (h : Admits step.status)
    (h' : Admits next.status) : Admits (match step.status with
      | .error e => Outcome.failed e output
      | .ok () => next).status := by
  cases hs : step.status with
  | error e => exact .error (h e hs)
  | ok u => exact h'

namespace Engine

theorem orient_admits (hi : input.Resolves) (ho : output.Resolves) :
    Admits (software.orient input output : Outcome).status := by
  unfold orient
  dsimp only
  split
  · exact Primitive.run_admits _ hi ho
  · exact Primitive.run_admits _ hi ho
  · exact Primitive.run_admits _ hi ho
  · split
    · next failed => exact .error (Frame.zeroed_admits _ _ failed)
    · next scratch zeroed =>
      have blank := (Frame.sound_ofBuffer zeroed).resolves.stamped input.timestamp
      have turned (p : Primitive) := (p.run_lawful).resolves zeroed input input.timestamp
      exact .after (Primitive.run_admits _ hi blank) (Primitive.run_admits _ (turned _) ho)

theorem cropBox_admits (crop : Box) (hi : input.Resolves) (ho : output.Resolves) :
    Admits (software.cropBox crop input output : Outcome).status := by
  have argument : Admits crop.toCrop := crop.toCrop_raises fun _ => rfl
  unfold cropBox
  split
  · next failed => exact .error (argument _ failed)
  · exact Primitive.run_admits _ hi ho

theorem cropUniformly_admits (crop : Box) (hi : input.Resolves) (ho : output.Resolves) :
    Admits (software.cropUniformly crop input output : Outcome).status := by
  obtain ⟨region, taken, resolves⟩ := ho.exists_topLeft crop.size
  unfold cropUniformly
  rw [taken]
  exact cropBox_admits crop hi resolves

theorem perform_admits (op : Operation) (hi : input.Resolves) (ho : output.Resolves) :
    Admits (software.perform op input output : Outcome).status := by
  cases op with
  | cropResize crop size => exact cropBox_admits crop hi ho
  | convert format => exact Primitive.run_admits _ hi ho
  | orient orientation => exact orient_admits hi ho
  | uniformCropResize crop size => exact cropUniformly_admits crop hi ho

end Engine

/-! ## Chains -/

namespace Stage

variable {s next : Stage}

/-- A step that is not the last finds its scratch long enough, and leaves a frame that resolves. -/
theorem advance_admits (h : s.source.Resolves) (timestamp : Option Nat) (op : Operation) :
    Admits (s.advance timestamp op) ∧
      ∀ next, s.advance timestamp op = .ok next → next.source.Resolves := by
  have long := Nat.le_of_eq
    (s.size_scratch (byteSize (s.target op).size (s.target op).format)).symm
  cases hblank : Frame.ofBuffer (s.scratch (byteSize (s.target op).size (s.target op).format))
      (s.target op) with
  | error e =>
    have failed : s.advance timestamp op = .error e := by
      rw [advance, hblank]
      rfl
    rw [failed]
    exact ⟨.error (Frame.ofBuffer_admits long e hblank), fun next h => by cases h⟩
  | ok blank =>
    obtain ⟨-, following, hfollowing, -, advanced⟩ := advance_of_blank rfl hblank timestamp
    have sound := (Frame.sound_ofBuffer hblank).resolves.stamped timestamp
    rw [advanced]
    refine ⟨.bind (Engine.perform_admits op h sound) fun _ => .ok _, fun next done => ?_⟩
    obtain ⟨-, -, hnext⟩ := bind_eq_ok.1 done
    obtain rfl := Except.ok.inj hnext
    exact (Frame.sound_ofBuffer hfollowing).resolves.stamped timestamp

theorem finish_admits (timestamp : Option Nat) (ho : output.Resolves) (operations : List Operation)
    (h : s.source.Resolves) : Admits (s.finish timestamp output operations).status := by
  induction operations generalizing s with
  | nil => exact .ok _
  | cons op rest ih =>
    cases rest with
    | nil => exact Engine.perform_admits op h ho
    | cons following others =>
      rw [finish_cons (by simp)]
      obtain ⟨admits, resolves⟩ := advance_admits h timestamp op
      cases advanced : s.advance timestamp op with
      | error e => exact .error (admits e advanced)
      | ok next => exact ih (resolves next advanced)

end Stage

namespace Engine

theorem execute_admits (operations : List Operation) (hi : input.Resolves) (ho : output.Resolves) :
    Admits (software.execute operations input output : Outcome).status := by
  unfold execute
  dsimp only
  split
  · exact .error rfl
  · split
    · exact .error rfl
    · exact Stage.finish_admits (s := .start input) input.timestamp ho operations hi

theorem preprocess_admits (roi : Option Box) (uniform : Bool) (hi : input.Resolves)
    (ho : output.Resolves) :
    Admits (software.preprocess roi uniform input output : Outcome).status := by
  unfold preprocess
  dsimp only
  split
  · exact Primitive.run_admits _ hi ho
  · exact execute_admits _ hi ho

end Engine

/-! ## All requests -/

/-- Between frames that resolve no request is refused for a stride or the length of a buffer. -/
theorem Request.serve_admits (r : Request) (hi : input.Resolves) (ho : output.Resolves) :
    Admits (r.serve Engine.software input output : Outcome).status := by
  cases r with
  | call p => exact p.run_admits hi ho
  | orient => exact Engine.orient_admits hi ho
  | perform op => exact Engine.perform_admits op hi ho
  | execute operations => exact Engine.execute_admits operations hi ho
  | preprocess roi uniform => exact Engine.preprocess_admits roi uniform hi ho

/-! ## Frames that factories accept -/

namespace FrameSource

/-- A frame that a factory accepts resolves exactly if its chroma rows do not overlap. If they do,
every transform that gets to reading it refuses it for its stride. If they do not, no request from
it or into it is refused for a stride or the length of a buffer. -/
theorem resolves_iff {source : FrameSource} {orientation : Orientation} {f : Frame}
    (accepted : source.frame orientation = .ok f) (nonempty : source.size.isEmpty = false) :
    (f.Resolves ↔ ¬source.ChromaRowsOverlap) ∧
      (source.ChromaRowsOverlap → ∃ stride least width,
        let fault : Error := .frame (.invalidStride stride least width)
        f.readable = .error fault ∧ f.writable = .error fault ∧
          ∀ (p : Primitive) (output : Frame), p.check f output = .ok () →
            (p.run f output).status = .error fault) ∧
      (¬source.ChromaRowsOverlap → ∀ (r : Request) (other : Frame), other.Resolves →
        Admits (r.serve Engine.software f other : Outcome).status ∧
          Admits (r.serve Engine.software other f : Outcome).status) := by
  refine ⟨⟨fun ⟨c, hc, _⟩ overlap => ?_, resolves accepted nonempty⟩, fun overlap => ?_,
    fun apart r other ho => ?_⟩
  · obtain ⟨_, _, _, read, -⟩ := refused accepted overlap
    rw [read] at hc
    cases hc
  · obtain ⟨stride, least, width, read, write⟩ := refused accepted overlap
    refine ⟨stride, least, width, read, write, fun p output passed => ?_⟩
    have unreadable : f.picture = .error (.frame (.invalidStride stride least width)) := by
      rw [Frame.picture, read]
      rfl
    rw [p.status_run_unreadable unreadable, passed]
    rfl
  · have hf := resolves accepted nonempty apart
    exact ⟨r.serve_admits hf ho, r.serve_admits ho hf⟩

/-- A single row of chroma may be longer than the distance to the next one. -/
theorem resolves_iff_row :
    let source : FrameSource := .components ⟨.replicate 8 16, #[1, 0, 2], #[3, 0, 4], 4, ⟨1, 2⟩⟩
      ⟨4, 2⟩ .nv12
    ∃ f, source.frame .topLeft = .ok f ∧ f.Resolves ∧
      ∀ r : Request, Admits (r.serve Engine.software f (.grayDot 0) : Outcome).status := by
  intro source
  obtain ⟨f, hf⟩ : ∃ f, source.frame .topLeft = .ok f := ⟨_, rfl⟩
  obtain ⟨resolves, -, admits⟩ := FrameSource.resolves_iff hf (by decide)
  have apart : ¬source.ChromaRowsOverlap := by decide
  have gray : (Frame.grayDot 0).Resolves := ⟨_, rfl, rfl⟩
  exact ⟨f, hf, resolves.2 apart, fun r => (admits apart r _ gray).1⟩

/-- Two rows of two interleaved samples, three bytes long, start two bytes apart. The frame is
accepted and does not resolve, and its luma cannot be had as gray. -/
theorem overlapping_rows_accepted :
    let source : FrameSource := .components
      ⟨.replicate 16 16, .replicate 5 128, .replicate 5 128, 4, ⟨2, 2⟩⟩ ⟨4, 4⟩ .nv12
    source.size.isEmpty = false ∧ ∃ f gray, source.frame .topLeft = .ok f ∧ ¬f.Resolves ∧
      Frame.zeroed ⟨⟨4, 4⟩, .topLeft, .gray⟩ = .ok gray ∧
        (Primitive.convert.run f gray).status = .error (.frame (.invalidStride 2 3 2)) := by
  refine ⟨rfl, _, _, rfl, ?_, rfl, by rfl⟩
  rintro ⟨c, read, -⟩
  cases read

end FrameSource

end Raster
