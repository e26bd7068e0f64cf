import Raster.Engine.Preprocess
import Raster.Proofs.Engine.Run

/-!
# Requests that fail

A request to the portable engine fails before it writes into its output, and it never
blames a kernel: preconditions and the resolution of both frames find every fault.

* `Orderly` — a step whose errors blame no kernel.
* `Outcome.Clean` — an outcome that is orderly and leaves the output as it was on failure.
* `Request` — everything that an engine can be asked for.

Results: `Primitive.run_clean`, `Engine.orient_clean`, `Engine.perform_clean`,
`Engine.steps_clean` (each kind of request is clean) and `Request.serve_failure` (all are).
-/

namespace Raster

/-! ## Kinds of errors -/

section

variable {kind : Error → Prop}

/-- The only conversion without an image is one that does not exist. -/
theorem Picture.recoloured_raises (missing : ∀ feature, kind (.unimplemented feature))
    (source : Picture) (target : Grids) : Raises kind (source.recoloured target) := by
  unfold recoloured
  split
  · exact .ok _
  · exact .ok _
  · exact .refuse (missing _) (.ok _)
  · exact .ok _

/-- A crop that is no primitive is a bad argument. -/
theorem Box.toCrop_raises (argument : ∀ fault, kind (.invalidArgument fault)) (crop : Box) :
    Raises kind crop.toCrop :=
  .refuse (argument _) (.bind (.require (argument _) (.ok _)) fun _ =>
    .bind (.require (argument _) (.ok _)) fun _ => .ok _)

end

/-! ## Errors that blame no kernel -/

/-- No error of the step is the failure of a kernel. -/
def Orderly {α : Type} (step : Except Error α) : Prop :=
  Raises (fun e => e.isBackend = false) step

variable {input output f : Frame}

theorem Primitive.check_orderly (p : Primitive) : Orderly (p.check input output) :=
  p.check_raises (fun _ => rfl) fun _ => rfl

/-! ## Frames -/

theorem Shape.check_orderly (s : Shape) (length : Nat) : Orderly (s.check length) :=
  .refuse rfl (.refuse rfl (.refuse rfl (.refuse rfl (.ok _))))

theorem Component.checkRead_orderly (c : Component) (planes : List Plane) :
    Orderly (c.checkRead planes) :=
  .refuse rfl (Shape.check_orderly _ _)

theorem Canvas.checkRead_orderly (c : Canvas) : Orderly c.checkRead := by
  unfold checkRead
  split
  · exact Component.checkRead_orderly _ _
  · refine .bind (Component.checkRead_orderly _ _) fun _ => .ite ?_ ?_
    · intro _
      exact .bind (Component.checkRead_orderly _ _) fun _ => Component.checkRead_orderly _ _
    · intro _
      exact .bind (Component.checkRead_orderly _ _) fun _ => Component.checkRead_orderly _ _

theorem Canvas.checkWrite_orderly (c : Canvas) : Orderly c.checkWrite := by
  unfold checkWrite
  split
  · exact Shape.check_orderly _ _
  · exact .bind (Shape.check_orderly _ _) fun _ =>
      .bind (Shape.check_orderly _ _) fun _ => Shape.check_orderly _ _

theorem cutFrom_orderly (bytes : Bytes) (start : Nat) (stops : List Nat) :
    Orderly (cutFrom bytes start stops) := by
  induction stops generalizing start with
  | nil => exact .ok _
  | cons stop rest ih => exact .refuse rfl (.bind (ih stop) fun _ => .ok _)

theorem cutPlanes_orderly (bytes : Bytes) (layout : List PlaneLayout) :
    Orderly (cutPlanes bytes layout) :=
  .bind (cutFrom_orderly _ _ _) fun _ => .ok _

theorem yuvLayout_orderly (size : Size) (format : Format) (row : Nat) :
    Orderly (yuvLayout size format row) :=
  .bind (.refuse rfl (.require rfl (.ok _))) fun _ => .ok _

theorem planeLayout_orderly (size : Size) (format : Format) : Orderly (planeLayout size format) := by
  unfold planeLayout
  split
  · exact .ok _
  · exact .require rfl (yuvLayout_orderly _ _ _)

namespace Frame

theorem expandedPlanes_orderly (f : Frame) : Orderly f.expandedPlanes := by
  unfold expandedPlanes
  split
  · exact .bind (yuvLayout_orderly _ _ _) fun _ => cutPlanes_orderly _ _
  · exact .ok _

theorem canvas_orderly (f : Frame) : Orderly f.canvas :=
  .bind f.expandedPlanes_orderly fun _ => .refuse rfl (.ok _)

theorem picture_orderly (f : Frame) : Orderly f.picture :=
  .bind (.bind f.canvas_orderly fun c => .bind c.checkRead_orderly fun _ => .ok _) fun _ => .ok _

theorem writable_orderly (f : Frame) : Orderly f.writable :=
  .bind f.canvas_orderly fun c => .bind c.checkWrite_orderly fun _ => .ok _

theorem topLeft_orderly (f : Frame) (size : Size) : Orderly (f.topLeft size) := by
  refine .refuse rfl ?_
  intro e h
  split at h
  · next failed =>
    cases h
    exact f.expandedPlanes_orderly _ failed
  · cases h

theorem ofPlanes_orderly (planes : List Plane) (size : Size) (format : Format)
    (orientation : Orientation) : Orderly (ofPlanes planes size format orientation) := by
  refine .refuse rfl ?_
  intro e h
  split at h
  · split at h
    · cases h
      rfl
    · cases h
  · cases h
    rfl

theorem ofBuffer_orderly (bytes : Bytes) (m : Metadata) : Orderly (ofBuffer bytes m) :=
  .refuse rfl (.bind (.refuse rfl (.bind (planeLayout_orderly _ _) fun _ => cutPlanes_orderly _ _))
    fun _ => ofPlanes_orderly _ _ _ _)

end Frame

/-! ## Primitives -/

theorem Primitive.draw_orderly (p : Primitive) : Orderly (p.draw input output) := by
  refine .bind p.check_orderly fun _ => .bind input.picture_orderly fun source =>
    .bind output.writable_orderly fun target => .bind ?_ fun _ => .ok _
  cases p with
  | move m => exact .ok _
  | convert =>
    show Orderly (source.recoloured _)
    exact source.recoloured_raises (fun _ => rfl) _

/-- On failure no kernel is to blame and the output is as it was. -/
def Outcome.Clean (r : Outcome) (output : Frame) : Prop :=
  ∀ e, r.status = .error e → e.isBackend = false ∧ r.frame = output

namespace Outcome.Clean

theorem failed {e : Error} (h : e.isBackend = false) (output : Frame) :
    (Outcome.failed e output).Clean output := by
  intro e' h'
  cases h'
  exact ⟨h, rfl⟩

theorem done (f output : Frame) : (⟨.ok (), f⟩ : Outcome).Clean output := by
  intro e h
  cases h

/-- The outcome of a request whose steps before the last wrote elsewhere. -/
theorem after {step : Outcome} {scratch output : Frame} {next : Outcome}
    (h : step.Clean scratch) (h' : next.Clean output) :
    (match step.status with
      | .error e => Outcome.failed e output
      | .ok () => next).Clean output := by
  cases hs : step.status with
  | error e => exact failed (h e hs).1 output
  | ok u => exact h'

end Outcome.Clean

theorem Primitive.run_clean (p : Primitive) (input output : Frame) :
    (p.run input output).Clean output := by
  rw [run_eq]
  cases h : p.draw input output with
  | error e => exact .failed (p.draw_orderly e h) output
  | ok drawing => exact .done _ _

/-! ## Operations and chains -/

theorem Box.toCrop_orderly (crop : Box) : Orderly crop.toCrop := crop.toCrop_raises fun _ => rfl

namespace Engine

theorem orient_clean (input output : Frame) :
    Outcome.Clean (software.orient input output) output := by
  unfold orient
  dsimp only
  split
  · exact Primitive.run_clean _ _ _
  · exact Primitive.run_clean _ _ _
  · exact Primitive.run_clean _ _ _
  · split
    · next failed => exact .failed (Frame.ofBuffer_orderly _ _ _ failed) output
    · exact .after (Primitive.run_clean _ _ _) (Primitive.run_clean _ _ _)

theorem cropBox_clean (crop : Box) (input output : Frame) :
    Outcome.Clean (software.cropBox crop input output) output := by
  unfold cropBox
  split
  · next failed => exact .failed (crop.toCrop_orderly _ failed) output
  · exact Primitive.run_clean _ _ _

theorem cropUniformly_clean (crop : Box) (input output : Frame) :
    Outcome.Clean (software.cropUniformly crop input output) output := by
  unfold cropUniformly
  split
  · next failed => exact .failed (output.topLeft_orderly _ _ failed) output
  · next region taken =>
    intro e h
    obtain ⟨blameless, same⟩ := cropBox_clean crop input region e h
    refine ⟨blameless, ?_⟩
    show output.withRegion (software.cropBox crop input region : Outcome).frame = output
    rw [same]
    exact Frame.withRegion_topLeft taken

theorem perform_clean (op : Operation) (input output : Frame) :
    Outcome.Clean (software.perform op input output) output := by
  cases op with
  | cropResize crop size => exact cropBox_clean crop input output
  | convert format => exact Primitive.run_clean _ input output
  | orient orientation => exact orient_clean input output
  | uniformCropResize crop size => exact cropUniformly_clean crop input output

/-- Every step but the last writes into scratch memory, so the last one decides. -/
theorem steps_clean (timestamp : Option Nat) (output : Frame) (operations : List Operation)
    (source : Frame) (held spare : Bytes) :
    Outcome.Clean (software.steps timestamp output operations source held spare) output := by
  induction operations generalizing source held spare with
  | nil => exact .done _ _
  | cons op rest ih =>
    cases rest with
    | nil => exact perform_clean op source output
    | cons next others =>
      unfold steps
      dsimp only
      split
      · next failed => exact .failed (Frame.ofBuffer_orderly _ _ _ failed) output
      · refine .after (perform_clean _ _ _) ?_
        split
        · next failed => exact .failed (Frame.ofBuffer_orderly _ _ _ failed) output
        · exact ih _ _ _

theorem execute_clean (operations : List Operation) (input output : Frame) :
    Outcome.Clean (software.execute operations input output) output := by
  unfold execute
  dsimp only
  split
  · exact .failed rfl output
  · split
    · exact .failed rfl output
    · exact steps_clean _ _ _ _ _ _

theorem preprocess_clean (roi : Option Box) (uniform : Bool) (input output : Frame) :
    Outcome.Clean (software.preprocess roi uniform input output) output := by
  unfold preprocess
  dsimp only
  split
  · exact Primitive.run_clean _ _ _
  · exact execute_clean _ _ _

end Engine

/-! ## All requests -/

/-- Everything that an engine can be asked for. -/
inductive Request where
  | call (p : Primitive)
  | orient
  | perform (op : Operation)
  | execute (operations : List Operation)
  | preprocess (roi : Option Box) (uniform : Bool)
  deriving DecidableEq

/-- The answer of an engine. -/
def Request.serve {m : Type → Type} [Monad m] (r : Request) (e : Engine m)
    (input output : Frame) : m Outcome :=
  match r with
  | call p => e.call p input output
  | orient => e.orient input output
  | perform op => e.perform op input output
  | execute operations => e.execute operations input output
  | preprocess roi uniform => e.preprocess roi uniform input output

theorem Request.serve_clean (r : Request) (input output : Frame) :
    Outcome.Clean (r.serve .software input output) output := by
  cases r with
  | call p => exact p.run_clean input output
  | orient => exact Engine.orient_clean input output
  | perform op => exact Engine.perform_clean op input output
  | execute operations => exact Engine.execute_clean operations input output
  | preprocess roi uniform => exact Engine.preprocess_clean roi uniform input output

/-- A request that fails blames no kernel, and every byte of the output is as it was. Where
the output is a region of another frame, so is every byte of that frame. -/
theorem Request.serve_failure (r : Request) (input output : Frame) (e : Error)
    (h : (r.serve Engine.software input output : Outcome).status = .error e) :
    e.isBackend = false ∧ (r.serve Engine.software input output : Outcome).frame = output ∧
      ∀ (whole : Frame) (size : Size), whole.topLeft size = .ok output →
        whole.withRegion (r.serve Engine.software input output : Outcome).frame = whole := by
  obtain ⟨blameless, same⟩ := r.serve_clean input output e h
  refine ⟨blameless, same, fun whole size taken => ?_⟩
  rw [same]
  exact Frame.withRegion_topLeft taken

/-- Gray is not converted into luma and chroma, and the luma plane stays as it was too. -/
theorem Request.serve_failure_gray :
    let r : Outcome :=
      (Request.call .convert).serve Engine.software (.grayDot 7) (.nv12Dot 1 2 3)
    r.status = .error (.unimplemented .grayToYuv) ∧ r.frame.memory = #[1, 2, 3] := by
  have failed : ((Request.call .convert).serve Engine.software (.grayDot 7)
      (.nv12Dot 1 2 3) : Outcome).status = .error (.unimplemented .grayToYuv) := by decide
  obtain ⟨-, same, -⟩ := Request.serve_failure _ _ _ _ failed
  refine ⟨failed, ?_⟩
  rw [same]
  rfl

end Raster
