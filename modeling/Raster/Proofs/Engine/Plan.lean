import Raster.Engine.Preprocess

/-!
# Plans

A plan is made backwards: the size of its crop is that of the output, taken back through the change
of orientation. A chain runs forwards, and finds the metadata of each step from that of the step
before. Both meet in the metadata of the output, for all sizes and orientations, whether there is
anything to crop, to convert and to orient or not.

* `Metadata.cropping`, `Metadata.converting`, `Metadata.orienting` — the three parts of a plan.
* `Operation.rank` — the order of the parts.

Results: `Metadata.after_plan` (a plan makes the metadata of the output), `Metadata.plan_eq_nil_iff`
(when there is nothing to do), `Metadata.planTo_makes` (both, and which steps there are) and
`Engine.preprocess_of_plan` (what any engine does with a plan).
-/

namespace Raster

/-- Crops come first, then conversions, then changes of orientation. -/
def Operation.rank : Operation → Nat
  | cropResize .. | uniformCropResize .. => 0
  | convert _ => 1
  | orient _ => 2

/-! ## Sizes before a change of orientation -/

namespace Size

/-- A change of orientation, made twice, does nothing to a size. -/
theorem orientedSize_orientedSize (s : Size) (source target : Orientation) :
    orientedSize (orientedSize s source target) source target = s := by
  unfold orientedSize Reorientation.size Rotation.size
  split <;> rfl

theorem orientedSize_self (s : Size) (orientation : Orientation) :
    orientedSize s orientation orientation = s := by
  cases orientation <;> rfl

theorem isEmpty_orientedSize (s : Size) (source target : Orientation) :
    (orientedSize s source target).isEmpty = s.isEmpty := by
  unfold orientedSize Reorientation.size Rotation.size
  split
  · exact Bool.or_comm _ _
  · rfl

end Size

namespace Metadata

/-! ## Parts of a plan -/

/-- The size of the output before it is oriented. -/
def scaledSize (input output : Metadata) : Size :=
  orientedSize output.size input.orientation output.orientation

/-- The region of interest, or the whole frame where its size has to change. -/
def cropped? (input output : Metadata) (roi : Option Box) : Option Box :=
  match roi with
  | some box => some box
  | none => if input.scaledSize output = input.size then none else some (.ofSize input.size)

/-- The crop of a plan, if there is one. -/
def cropping (input output : Metadata) (roi : Option Box) (uniform : Bool) : List Operation :=
  match input.cropped? output roi with
  | none => []
  | some box =>
    [if uniform then .uniformCropResize box (input.scaledSize output)
      else .cropResize box (input.scaledSize output)]

/-- The conversion of a plan, if there is one. -/
def converting (source target : Format) : List Operation :=
  if target = source then [] else [.convert target]

/-- The change of orientation of a plan, if there is one. -/
def orienting (source target : Orientation) : List Operation :=
  if target = source then [] else [.orient target]

variable {input output : Metadata} {roi : Option Box} {uniform : Bool}

theorem planTo_eq (input output : Metadata) (roi : Option Box) (uniform : Bool) :
    input.planTo output roi uniform =
      input.cropping output roi uniform ++ converting input.format output.format ++
        orienting input.orientation output.orientation := rfl

/-- Without a region of interest there is no crop exactly where the size stays. -/
theorem cropped?_eq_none :
    input.cropped? output roi = none ↔ roi = none ∧ input.scaledSize output = input.size := by
  cases roi with
  | none => simp [cropped?]
  | some box => simp [cropped?]

theorem cropping_eq_nil :
    input.cropping output roi uniform = [] ↔
      roi = none ∧ input.scaledSize output = input.size := by
  rw [← cropped?_eq_none, cropping]
  cases input.cropped? output roi <;> simp

theorem converting_eq_nil {source target : Format} :
    converting source target = [] ↔ target = source := by
  simp [converting]

theorem orienting_eq_nil {source target : Orientation} :
    orienting source target = [] ↔ target = source := by
  simp [orienting]

/-! ## What the parts make of the metadata -/

theorem after_append (m : Metadata) (first second : List Operation) :
    m.after (first ++ second) = (m.after first).after second := List.foldl_append

theorem after_cropping (input output : Metadata) (roi : Option Box) (uniform : Bool) :
    input.after (input.cropping output roi uniform) =
      { input with size := input.scaledSize output } := by
  unfold cropping
  cases h : input.cropped? output roi with
  | some box => cases uniform <;> rfl
  | none =>
    -- without a crop the frame has the wanted size already
    obtain ⟨-, same⟩ := cropped?_eq_none.1 h
    rw [same]
    rfl

theorem after_converting (m : Metadata) (target : Format) :
    m.after (converting m.format target) = { m with format := target } := by
  unfold converting
  split
  · next same =>
    subst same
    rfl
  · rfl

theorem after_orienting (m : Metadata) (target : Orientation) :
    m.after (orienting m.orientation target) =
      { m with size := orientedSize m.size m.orientation target, orientation := target } := by
  unfold orienting
  split
  · next same =>
    subst same
    rw [Size.orientedSize_self]
    rfl
  · rfl

/-- A plan makes the metadata of the output. -/
theorem after_plan (input output : Metadata) (roi : Option Box) (uniform : Bool) :
    input.after (input.planTo output roi uniform) = output := by
  have converted := after_converting { input with size := input.scaledSize output } output.format
  have oriented := after_orienting
    { input with size := input.scaledSize output, format := output.format } output.orientation
  rw [planTo_eq, after_append, after_append, after_cropping, converted, oriented]
  -- the size that was taken back through the change of orientation goes through it again
  simp only [scaledSize, Size.orientedSize_orientedSize]

/-- There is nothing to do exactly between equal metadata without a region of interest. -/
theorem plan_eq_nil_iff :
    input.planTo output roi uniform = [] ↔ input = output ∧ roi = none := by
  constructor
  · intro empty
    have yields := after_plan input output roi uniform
    rw [empty] at yields
    rw [planTo_eq, List.append_eq_nil_iff, List.append_eq_nil_iff, cropping_eq_nil] at empty
    exact ⟨yields, empty.1.1.1⟩
  · rintro ⟨rfl, rfl⟩
    rw [planTo_eq, List.append_eq_nil_iff, List.append_eq_nil_iff]
    exact ⟨⟨cropping_eq_nil.2 ⟨rfl, Size.orientedSize_self ..⟩, converting_eq_nil.2 rfl⟩,
      orienting_eq_nil.2 rfl⟩

/-- Where its size has to change, the whole frame is the region of interest anyway. -/
theorem planTo_whole_of_resized (resized : input.scaledSize output ≠ input.size) :
    input.planTo output (some (.ofSize input.size)) uniform =
      input.planTo output none uniform := by
  simp only [planTo_eq, cropping, cropped?, if_neg resized]

/-- Elsewhere it only puts a crop in front of the plan. -/
theorem planTo_whole_of_same (same : input.scaledSize output = input.size) :
    input.planTo output (some (.ofSize input.size)) false =
      .cropResize (.ofSize input.size) input.size :: input.planTo output none false := by
  rw [planTo_eq, planTo_eq, cropping_eq_nil.2 ⟨rfl, same⟩, cropping, same]
  rfl

/-! ## Which steps there are -/

/-- At most one step, of this rank. -/
def Single (rank : Nat) (operations : List Operation) : Prop :=
  operations.length ≤ 1 ∧ ∀ op ∈ operations, op.rank = rank

theorem single_cropping (input output : Metadata) (roi : Option Box) (uniform : Bool) :
    Single 0 (input.cropping output roi uniform) := by
  unfold cropping
  split
  · simp [Single]
  · cases uniform <;> simp [Single, Operation.rank]

theorem single_converting (source target : Format) : Single 1 (converting source target) := by
  unfold converting
  split <;> simp [Single, Operation.rank]

theorem single_orienting (source target : Orientation) : Single 2 (orienting source target) := by
  unfold orienting
  split <;> simp [Single, Operation.rank]

theorem Single.not_mem {rank : Nat} {operations : List Operation} (h : Single rank operations)
    (op : Operation) (differs : op.rank ≠ rank) : op ∉ operations :=
  fun member => differs (h.2 op member)

theorem Single.pairwise {rank : Nat} {operations : List Operation} (h : Single rank operations) :
    operations.Pairwise (fun a b => a.rank < b.rank) := by
  obtain ⟨short, -⟩ := h
  match operations with
  | [] => exact .nil
  | [op] => exact List.pairwise_singleton _ op
  | _ :: _ :: _ => simp at short

/-- The ranks of a plan increase, so that no kind of step is there twice. -/
theorem rank_planTo (input output : Metadata) (roi : Option Box) (uniform : Bool) :
    (input.planTo output roi uniform).Pairwise (fun a b => a.rank < b.rank) := by
  have crop := single_cropping input output roi uniform
  have convert := single_converting input.format output.format
  have orient := single_orienting input.orientation output.orientation
  rw [planTo_eq, List.pairwise_append, List.pairwise_append]
  refine ⟨⟨crop.pairwise, convert.pairwise, fun a ha b hb => ?_⟩, orient.pairwise,
    fun a ha b hb => ?_⟩
  · rw [crop.2 a ha, convert.2 b hb]
    decide
  · rw [orient.2 b hb]
    rcases List.mem_append.1 ha with ha | ha
    · rw [crop.2 a ha]
      decide
    · rw [convert.2 a ha]
      decide

theorem convert_mem_planTo {format : Format} :
    .convert format ∈ input.planTo output roi uniform ↔
      format = output.format ∧ input.format ≠ output.format := by
  have crop := (single_cropping input output roi uniform).not_mem (.convert format) nofun
  have orient := (single_orienting input.orientation output.orientation).not_mem
    (.convert format) nofun
  simp only [planTo_eq, List.mem_append, crop, orient, false_or, or_false, converting]
  split
  · next same => simp [same]
  · next differs => simp [Ne.symm differs]

theorem orient_mem_planTo {orientation : Orientation} :
    .orient orientation ∈ input.planTo output roi uniform ↔
      orientation = output.orientation ∧ input.orientation ≠ output.orientation := by
  have crop := (single_cropping input output roi uniform).not_mem (.orient orientation) nofun
  have convert := (single_converting input.format output.format).not_mem
    (.orient orientation) nofun
  simp only [planTo_eq, List.mem_append, crop, convert, false_or, orienting]
  split
  · next same => simp [same]
  · next differs => simp [Ne.symm differs]

/-- Without kept proportions, no step of a plan keeps them. -/
theorem not_mem_planTo (input output : Metadata) (roi : Option Box) (crop : Box) (size : Size) :
    .uniformCropResize crop size ∉ input.planTo output roi false := by
  have cropped : .uniformCropResize crop size ∉ input.cropping output roi false := by
    unfold cropping
    split <;> simp
  have converted := (single_converting input.format output.format).not_mem
    (.uniformCropResize crop size) nofun
  have oriented := (single_orienting input.orientation output.orientation).not_mem
    (.uniformCropResize crop size) nofun
  simp only [planTo_eq, List.mem_append, cropped, converted, oriented, or_self, not_false_eq_true]

/-- A plan makes the metadata of the output from that of the input, whatever they are. It has no
step exactly if both are equal and there is no region of interest. It converts to the format of the
output exactly between different formats, and turns to the orientation of the output exactly between
different orientations; a crop comes before both and a conversion before a change of orientation,
each of them once. -/
theorem planTo_makes (input output : Metadata) (roi : Option Box) (uniform : Bool) :
    let plan := input.planTo output roi uniform
    input.after plan = output ∧ (plan = [] ↔ input = output ∧ roi = none) ∧
      (∀ format, .convert format ∈ plan ↔
        format = output.format ∧ input.format ≠ output.format) ∧
      (∀ orientation, .orient orientation ∈ plan ↔
        orientation = output.orientation ∧ input.orientation ≠ output.orientation) ∧
      plan.Pairwise (fun a b => a.rank < b.rank) :=
  ⟨after_plan input output roi uniform, plan_eq_nil_iff, fun _ => convert_mem_planTo,
    fun _ => orient_mem_planTo, rank_planTo input output roi uniform⟩

/-- A frame on its side, halved and shown upright in colour. -/
example :
    let input : Metadata := ⟨⟨4, 2⟩, .rightTop, .nv21⟩
    input.planTo ⟨⟨1, 2⟩, .topLeft, .rgb⟩ none false =
      [.cropResize ⟨0, 0, 4, 2⟩ ⟨2, 1⟩, .convert .rgb, .orient .topLeft] := by
  decide

end Metadata

/-! ## Preprocessing -/

namespace Engine

variable {m : Type → Type} [Monad m] {input output : Frame} {roi : Option Box} {uniform : Bool}

/-- Where there is nothing to do, preprocessing is a resize. -/
theorem preprocess_of_nothing (e : Engine m)
    (nothing : input.metadata.planTo output.metadata roi uniform = []) :
    e.preprocess roi uniform input output = e.call (.move .resize) input output := by
  unfold preprocess
  dsimp only
  rw [nothing]
  rfl

/-- Elsewhere it is the plan, executed. -/
theorem preprocess_of_plan (e : Engine m) {plan : List Operation} (nonempty : plan ≠ [])
    (h : input.metadata.planTo output.metadata roi uniform = plan) :
    e.preprocess roi uniform input output = e.execute plan input output := by
  unfold preprocess
  dsimp only
  rw [h, if_neg (by simpa using nonempty)]

end Engine

end Raster
