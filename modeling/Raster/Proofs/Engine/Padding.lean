import Raster.Proofs.Engine.Plan
import Raster.Proofs.Engine.Stage

/-!
# Pixels beside a fitted picture

Preprocessing that keeps proportions fits the picture into the top-left corner of a frame. If
nothing else is to be done, that frame is the output, and its other pixels stay as they were. If
the format or the orientation changes as well, the frame is a scratch frame, and the last step
writes the whole output from it.

* `Frame.pixelByte` — a channel of a pixel of a packed frame.

Results: `Engine.execute_paints` (a chain whose last step is not a proportional crop paints its
output), `Engine.preprocess_overwrites` (so does preprocessing that changes format or
orientation) and `Engine.preprocess_padding` (what becomes of the pixels beside a fitted picture).
-/

namespace Raster

/-! ## Pixels of packed frames -/

namespace Frame

/-- The bytes of a packed frame. -/
def pixels (f : Frame) : Bytes := (f.planes.getD 0 default).bytes

/-- The byte where a packed frame keeps a channel of a pixel. -/
def pixelAddress (f : Frame) (x y channel : Nat) : Nat :=
  let stride := (f.planes.getD 0 default).stride
  y * stride.row + x * stride.pixel + channel

/-- A channel of a pixel of a packed frame. -/
def pixelByte (f : Frame) (x y channel : Nat) : UInt8 :=
  f.pixels.getD (f.pixelAddress x y channel) 0

variable {f : Frame} {c : Canvas} {n : Nat}

theorem isContiguousYuv_of_packed (packed : f.format.channels = some n) :
    f.isContiguousYuv = false := by
  have known := Format.isYuv_eq_channels_isNone f.format_ne_unknown
  rw [isContiguousYuv, known, packed]
  rfl

/-- The pixels of a packed frame are its only grid. -/
theorem canvas_of_packed (packed : f.format.channels = some n) (h : f.writable = .ok c) :
    c = ⟨f.planes, .packed (Canvas.component f.planes f.size n 0 0)⟩ := by
  obtain ⟨planes, expanded, -, rfl⟩ := canvas_eq_ok.1 (writable_eq_ok.1 h).1
  rw [expandedPlanes_of_separate (isContiguousYuv_of_packed packed)] at expanded
  obtain rfl := Except.ok.inj expanded
  rw [Canvas.ofPlanes, packed]

/-- A packed frame that can be written is sound, since its only grid has no other to meet. -/
theorem sound_of_packed (packed : f.format.channels = some n) (h : f.writable = .ok c) :
    f.Sound := by
  refine ⟨c, h, ?_⟩
  rw [canvas_of_packed packed h]
  exact List.pairwise_singleton _ _

/-- No two channels of pixels share a byte, if the frame can be written. -/
theorem pixelAddress_inj (packed : f.format.channels = some n) (h : f.writable = .ok c)
    {x y k x' y' k' : Nat} (hx : x < f.size.width) (hy : y < f.size.height) (hk : k < n)
    (hx' : x' < f.size.width) (hy' : y' < f.size.height) (hk' : k' < n)
    (same : f.pixelAddress x y k = f.pixelAddress x' y' k') : x = x' ∧ y = y' ∧ k = k' := by
  have inside := (writable_eq_ok.1 h).2
  rw [canvas_of_packed packed h] at inside
  exact Shape.address_inj (inside _ (List.mem_singleton.2 rfl)) hx hy hk hx' hy' hk' same

end Frame

/-- Planes of the same room lay out pixels alike. -/
theorem Frame.pixelAddress_of_room {a b : Frame}
    (h : a.planes.map Plane.room = b.planes.map Plane.room) : a.pixelAddress = b.pixelAddress := by
  have stride : (a.planes.getD 0 default).stride = (b.planes.getD 0 default).stride := by
    have strides := congrArg (fun strides => strides[0]?) (Plane.strides_of_room h)
    simp only [List.getElem?_map] at strides
    rw [List.getD_eq_getElem?_getD, List.getD_eq_getElem?_getD]
    cases first : a.planes[0]? <;> cases first' : b.planes[0]? <;> simp_all
  funext x y channel
  simp only [pixelAddress, stride]

/-! ## Chains that paint their output -/

namespace Engine

variable {first : List Operation} {last : Operation} {input output : Frame}

/-- All steps of a chain but the last run without its output, of which they know the metadata. -/
theorem execute_append_singleton (first : List Operation) (last : Operation) (input : Frame)
    (m : Metadata) :
    (∃ e, ∀ output : Frame, output.metadata = m →
      (software.execute (first ++ [last]) input output : Outcome) = .failed e output) ∨
    ∃ stage, (Stage.start input).after input.timestamp first = .ok stage ∧
      ∀ output : Frame, output.metadata = m →
        (software.execute (first ++ [last]) input output : Outcome) =
          software.perform last stage.source output := by
  have nonempty : first ++ [last] ≠ [] := by simp
  by_cases yields : input.metadata.after (first ++ [last]) = m
  · have cut (output : Frame) (same : output.metadata = m) :=
      (execute_eq_finish nonempty (yields.trans same.symm)).trans
        (Stage.finish_append first (List.cons_ne_nil last []))
    cases run : (Stage.start input).after input.timestamp first with
    | error e =>
      refine .inl ⟨e, fun output same => ?_⟩
      rw [cut output same, run]
    | ok stage =>
      refine .inr ⟨stage, rfl, fun output same => ?_⟩
      rw [cut output same, run]
      rfl
  · refine .inl ⟨.metadataMismatch (.chain (input.metadata.after (first ++ [last])) m),
      fun output same => ?_⟩
    subst same
    exact execute_of_not_yields nonempty yields

/-- A chain whose last step is not a proportional crop paints its output. -/
theorem execute_paints (whole : ∀ crop size, last ≠ .uniformCropResize crop size) :
    Transform.Paints (software.execute (first ++ [last])) := by
  refine fun input => .of_metadata fun m => ?_
  rcases execute_append_singleton first last input m with ⟨e, failed⟩ | ⟨stage, -, run⟩
  · exact ⟨_, .failed e, failed⟩
  · exact ⟨_, perform_paints last whole stage.source, run⟩

/-- A chain of one step is that step, for any engine. -/
theorem execute_eq_perform {m : Type → Type} [Monad m] (e : Engine m)
    (yields : last.outputMetadata input.metadata = output.metadata) :
    e.execute [last] input output = e.perform last input output :=
  execute_eq_steps e (List.cons_ne_nil _ _) yields

/-- A chain of one step that succeeds is that step. -/
theorem execute_singleton
    (done : (software.execute [last] input output : Outcome).status = .ok ()) :
    (software.execute [last] input output : Outcome) = software.perform last input output := by
  rcases execute_append_singleton [] last input output.metadata with ⟨e, failed⟩ | ⟨stage, none, run⟩
  · have failed : (software.execute [last] input output : Outcome) = _ := failed output rfl
    rw [failed] at done
    cases done
  · obtain rfl := Except.ok.inj none
    exact run output rfl

/-! ## One step -/

variable {crop : Box} {n : Nat}

/-- A proportional crop into a packed frame changes no byte but those of the fitted pixels. -/
theorem getD_pixels_cropUniformly (packed : output.format.channels = some n)
    (done : (software.cropUniformly crop input output : Outcome).status = .ok ()) {i : Nat}
    (apart : ∀ x y k, x < (uniformFit crop.size output.size).width →
      y < (uniformFit crop.size output.size).height → k < n → output.pixelAddress x y k ≠ i) :
    (software.cropUniformly crop input output : Outcome).frame.pixels.getD i 0 =
      output.pixels.getD i 0 := by
  have metadata : (software.cropUniformly crop input output : Outcome).frame.metadata =
    output.metadata := (cropUniformly_lawful crop).metadata _ _
  have format : (software.cropUniformly crop input output : Outcome).frame.format =
    output.format := congrArg Metadata.format metadata
  obtain ⟨planes, planes', expanded, expanded', -, keeps⟩ := cropUniformly_keeps done
  rw [Frame.expandedPlanes_of_separate (Frame.isContiguousYuv_of_packed packed)] at expanded
  rw [Frame.expandedPlanes_of_separate (Frame.isContiguousYuv_of_packed
    ((congrArg Format.channels format).trans packed))] at expanded'
  obtain rfl := Except.ok.inj expanded
  obtain rfl := Except.ok.inj expanded'
  refine keeps 0 i ?_
  simp only [Canvas.ofPlanes, packed, Components.list, List.mem_singleton]
  rintro place rfl - x y k hx hy hk same
  exact apart x y k hx hy hk ((Nat.zero_add _).symm.trans same)

/-- So it keeps the pixels beside the fitted ones, if all pixels have bytes of their own. -/
theorem pixelByte_cropUniformly {c : Canvas} (packed : output.format.channels = some n)
    (done : (software.cropUniformly crop input output : Outcome).status = .ok ())
    (writable : output.writable = .ok c) {x y k : Nat} (hx : x < output.size.width)
    (hy : y < output.size.height) (hk : k < n)
    (beside : (uniformFit crop.size output.size).width ≤ x ∨
      (uniformFit crop.size output.size).height ≤ y) :
    (software.cropUniformly crop input output : Outcome).frame.pixelByte x y k =
      output.pixelByte x y k := by
  have fits := uniformFit_fitsInto crop.size (Frame.nonempty_of_writable writable)
  have room := Frame.pixelAddress_of_room ((cropUniformly_lawful crop).room input output)
  rw [Frame.pixelByte, Frame.pixelByte, room]
  refine getD_pixels_cropUniformly packed done fun x' y' k' hx' hy' hk' same => ?_
  have wide := Nat.lt_of_lt_of_le hx' fits.width_le
  have high := Nat.lt_of_lt_of_le hy' fits.height_le
  obtain ⟨rfl, rfl, -⟩ := Frame.pixelAddress_inj packed writable wide high hk' hx hy hk same
  omega

end Engine

/-! ## Plans -/

namespace Metadata

variable {input output : Metadata} {roi : Option Box} {uniform : Bool}

/-- Nothing follows the crop of a plan where format and orientation stay. -/
theorem planTo_of_same {crop : Box} {scaled : Size}
    (starts : (input.planTo output roi uniform).head? = some (.uniformCropResize crop scaled))
    (format : output.format = input.format) (orientation : output.orientation = input.orientation) :
    input.planTo output roi uniform = [.uniformCropResize crop scaled] := by
  rw [planTo_eq, converting_eq_nil.2 format, orienting_eq_nil.2 orientation, List.append_nil,
    List.append_nil, cropping] at starts ⊢
  split at starts
  · cases starts
  · exact congrArg (fun op => [op]) (Option.some.inj starts)

/-- The last step of any other plan is no proportional crop. -/
theorem planTo_of_not_same (input output : Metadata) (roi : Option Box) (uniform : Bool)
    (differs : ¬(output.format = input.format ∧ output.orientation = input.orientation)) :
    ∃ first last, input.planTo output roi uniform = first ++ [last] ∧
      ∀ crop size, last ≠ .uniformCropResize crop size := by
  rw [planTo_eq]
  by_cases orientation : output.orientation = input.orientation
  · have format : output.format ≠ input.format := fun format => differs ⟨format, orientation⟩
    rw [orienting_eq_nil.2 orientation, List.append_nil, converting, if_neg format]
    exact ⟨_, .convert output.format, rfl, fun _ _ h => by cases h⟩
  · rw [orienting, if_neg orientation]
    exact ⟨_, .orient output.orientation, rfl, fun _ _ h => by cases h⟩

end Metadata

/-! ## Preprocessing -/

namespace Engine

variable {input output : Frame} {roi : Option Box} {crop : Box} {scaled : Size} {n : Nat}

/-- Where format and orientation stay, preprocessing that begins with a proportional crop is that
crop. -/
theorem preprocess_eq_cropUniformly {uniform : Bool}
    (starts : (input.metadata.planTo output.metadata roi uniform).head? =
      some (.uniformCropResize crop scaled))
    (format : output.format = input.format) (orientation : output.orientation = input.orientation)
    (done : (software.preprocess roi uniform input output : Outcome).status = .ok ()) :
    (software.preprocess roi uniform input output : Outcome) =
      software.cropUniformly crop input output := by
  have plan := Metadata.planTo_of_same starts format orientation
  rw [preprocess_of_plan _ (by simp) plan] at done ⊢
  exact execute_singleton done

section Changes

variable {uniform : Bool}
  (differs : ¬(output.format = input.format ∧ output.orientation = input.orientation))

include differs

/-- Where format or orientation change, preprocessing overwrites its output. -/
theorem preprocess_overwrites {other : Frame} (sound : output.Sound) (sound' : other.Sound)
    (metadata : other.metadata = output.metadata) :
    let r : Outcome := software.preprocess roi uniform input output
    let r' : Outcome := software.preprocess roi uniform input other
    r.status = r'.status ∧ (r.status = .ok () → r.frame.Alike r'.frame) := by
  obtain ⟨first, last, plan, whole⟩ := Metadata.planTo_of_not_same input.metadata output.metadata
    roi uniform differs
  have plan' : input.metadata.planTo other.metadata roi uniform = first ++ [last] := by
    rw [metadata, plan]
  intro r r'
  have run : r = software.execute (first ++ [last]) input output :=
    preprocess_of_plan _ (by simp) plan
  have run' : r' = software.execute (first ++ [last]) input other :=
    preprocess_of_plan _ (by simp) plan'
  rw [run, run']
  exact (execute_paints whole input).overwrites sound sound' metadata.symm

/-- So it needs room for all samples of the output. -/
theorem preprocess_needsRoom
    (done : (software.preprocess roi uniform input output : Outcome).status = .ok ()) :
    ∃ c, output.writable = .ok c := by
  obtain ⟨first, last, plan, whole⟩ := Metadata.planTo_of_not_same input.metadata output.metadata
    roi uniform differs
  rw [preprocess_of_plan _ (by simp) plan] at done
  exact (execute_paints whole input).needsRoom done

end Changes

/-- Preprocessing with kept proportions into a packed frame. If format and orientation stay, it
keeps all bytes but those of the fitted pixels, and so the pixels beside them. If not, it
overwrites the whole frame: no matter what the output held before, the result is the same. -/
theorem preprocess_padding (packed : output.format.channels = some n)
    (starts : (input.metadata.planTo output.metadata roi true).head? =
      some (.uniformCropResize crop scaled))
    (done : (software.preprocess roi true input output : Outcome).status = .ok ()) :
    let r : Outcome := software.preprocess roi true input output
    let fit := uniformFit crop.size output.size
    let same := output.format = input.format ∧ output.orientation = input.orientation
    (same →
      (∀ i, (∀ x y k, x < fit.width → y < fit.height → k < n → output.pixelAddress x y k ≠ i) →
        r.frame.pixels.getD i 0 = output.pixels.getD i 0) ∧
      ((∃ c, output.writable = .ok c) → ∀ x y k, x < output.size.width → y < output.size.height →
        k < n → fit.width ≤ x ∨ fit.height ≤ y →
          r.frame.pixelByte x y k = output.pixelByte x y k)) ∧
    (¬same → ∀ other : Frame, other.metadata = output.metadata → (∃ c, other.writable = .ok c) →
      let r' : Outcome := software.preprocess roi true input other
      r'.status = .ok () ∧ r.frame.Alike r'.frame) := by
  intro r fit same
  constructor
  · rintro ⟨format, orientation⟩
    have run : r = software.cropUniformly crop input output :=
      preprocess_eq_cropUniformly starts format orientation done
    have done : r.status = .ok () := done
    rw [run] at done ⊢
    exact ⟨fun i apart => getD_pixels_cropUniformly packed done apart,
      fun ⟨c, writable⟩ x y k hx hy hk beside =>
        pixelByte_cropUniformly packed done writable hx hy hk beside⟩
  · rintro differs other metadata ⟨c', writable'⟩
    have packed' : other.format.channels = some n :=
      (congrArg (fun m : Metadata => m.format.channels) metadata).trans packed
    obtain ⟨c, writable⟩ := preprocess_needsRoom differs done
    obtain ⟨status, frames⟩ := preprocess_overwrites differs
      (Frame.sound_of_packed packed writable) (Frame.sound_of_packed packed' writable') metadata
    exact ⟨status.symm.trans done, frames done⟩

end Engine

/-! ## Columns of two pixels -/

/-- A column of two gray pixels. -/
def Frame.grayColumn (top bottom : UInt8) : Frame :=
  ⟨[⟨#[top, bottom], ⟨1, 1⟩⟩], ⟨1, 2⟩, .gray, .topLeft, none, rfl, by simp [Stride.hasZero]⟩

/-- A column of two colour pixels, all of one value. -/
def Frame.rgbColumn (value : UInt8) : Frame :=
  ⟨[⟨.replicate 6 value, ⟨3, 3⟩⟩], ⟨1, 2⟩, .rgb, .topLeft, none, rfl, by simp [Stride.hasZero]⟩

namespace Engine

/-- A pixel fitted into a gray column leaves the pixel below it as it was. -/
theorem preprocess_padding_column :
    let r : Outcome := software.preprocess none true (.grayDot 9) (.grayColumn 5 5)
    r.frame.pixelByte 0 1 0 = 5 := by
  have done : (software.preprocess none true (.grayDot 9) (.grayColumn 5 5) : Outcome).status =
    .ok () := by decide +kernel
  have starts : ((Frame.grayDot 9).metadata.planTo (Frame.grayColumn 5 5).metadata none true).head? =
    some (.uniformCropResize ⟨0, 0, 1, 1⟩ ⟨1, 2⟩) := rfl
  have kept := (preprocess_padding rfl starts done).1 ⟨rfl, rfl⟩
  exact kept.2 ⟨_, rfl⟩ 0 1 0 (by decide) (by decide) (by decide) (.inr (by decide +kernel))

/-- A pixel fitted into a column of another format does not: the pixel below it becomes black. -/
theorem padding_overwritten :
    let r : Outcome := software.preprocess none true (.grayDot 9) (.rgbColumn 5)
    (Frame.grayDot 9).metadata.planTo (Frame.rgbColumn 5).metadata none true =
        [.uniformCropResize ⟨0, 0, 1, 1⟩ ⟨1, 2⟩, .convert .rgb] ∧
      uniformFit ⟨1, 1⟩ ⟨1, 2⟩ = ⟨1, 1⟩ ∧ r.status = .ok () ∧
        (Frame.rgbColumn 5).pixelByte 0 1 0 = 5 ∧ r.frame.pixelByte 0 1 0 = 0 := by
  decide +kernel

end Engine

end Raster
