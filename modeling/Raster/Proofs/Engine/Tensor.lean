import Raster.Proofs.Engine.Cropping
import Raster.Proofs.Engine.Padding
import Raster.Proofs.Frame.Factories
import Raster.Proofs.Frame.Tiling
import Raster.Tensor

/-!
# Tensors of whole frames

An upright RGB frame of the size that a model asks for needs no engine: its rows are put together
without the gaps between them. The gaps between rows go that way, but not the gaps between pixels.
A frame with those is refused as too short, which it is not, while preprocessing takes it.

* `Frame.Lists` — the pixels of a packed frame, one after the other.
* `Frame.pixelStride` — the distance between neighbours in a row.

Results: `Frame.lists_rgbBytes` (the rows put together are the pixels), `Frame.rgbBytes_of_gaps`
(gaps between pixels are refused), `Engine.preprocess_whole_lists` (preprocessing lists the same
pixels) and `Engine.prepareTensor_whole` (where the two agree).
-/

namespace Raster

/-! ## Pieces of one length -/

section

variable {pieces : List Bytes} {length k : Nat}

theorem startOf_of_length (same : ∀ piece ∈ pieces, piece.size = length) (hk : k ≤ pieces.length) :
    startOf pieces k = k * length := by
  induction pieces generalizing k with
  | nil =>
    obtain rfl := Nat.le_zero.1 hk
    rw [startOf_zero, Nat.zero_mul]
  | cons piece rest ih =>
    cases k with
    | zero => rw [startOf_zero, Nat.zero_mul]
    | succ k =>
      rw [startOf_cons_succ, same piece List.mem_cons_self, Nat.succ_mul, Nat.add_comm,
        ih (fun piece h => same piece (List.mem_cons_of_mem _ h)) (Nat.le_of_succ_le_succ hk)]

theorem size_join_of_length (same : ∀ piece ∈ pieces, piece.size = length) :
    (join pieces).size = pieces.length * length := by
  rw [← startOf_of_length same (Nat.le_refl _), startOf, List.take_length]

theorem getD_extract {bytes : Bytes} {start stop i : Nat} (hi : start + i < stop) :
    (bytes.extract start stop).getD i 0 = bytes.getD (start + i) 0 := by
  rw [Array.getD_eq_getD_getElem?, Array.getD_eq_getD_getElem?, Array.getElem?_extract]
  split
  · rfl
  · rw [Array.getElem?_eq_none (by omega)]

/-- A place in one of `n` pieces. -/
theorem mul_add_lt_mul {i n j : Nat} (hi : i < n) (hj : j < length) :
    i * length + j < n * length := by
  have next : (i + 1) * length ≤ n * length := Nat.mul_le_mul_right _ hi
  rw [Nat.succ_mul] at next
  omega

end

/-! ## Lists of pixels -/

namespace Frame

/-- The distance between neighbours in a row of a packed frame. -/
def pixelStride (f : Frame) : Nat := (f.planes.getD 0 default).stride.pixel

/-- The distance between rows of a packed frame. -/
def rowStride (f : Frame) : Nat := (f.planes.getD 0 default).stride.row

/-- The pixels of a packed frame of `n` channels, row after row and without gaps. -/
structure Lists (f : Frame) (n : Nat) (bytes : Bytes) : Prop where
  size : bytes.size = f.size.height * (f.size.width * n)
  value : ∀ x y k, x < f.size.width → y < f.size.height → k < n →
    bytes.getD (y * (f.size.width * n) + x * n + k) 0 = f.pixelByte x y k

variable {f g : Frame} {n : Nat} {bytes bytes' : Bytes} {p : Picture}

theorem Lists.unique (h : f.Lists n bytes) (h' : f.Lists n bytes') : bytes = bytes' :=
  bytes_eq_of_address h.size h'.size fun x y k hx hy hk =>
    (h.value x y k hx hy hk).trans (h'.value x y k hx hy hk).symm

/-- Frames with the same pixels list them alike. -/
theorem Lists.congr (h : f.Lists n bytes) (size : g.size = f.size)
    (same : ∀ x y k, x < f.size.width → y < f.size.height → k < n →
      g.pixelByte x y k = f.pixelByte x y k) : g.Lists n bytes := by
  refine ⟨by rw [size]; exact h.size, fun x y k hx hy hk => ?_⟩
  rw [size] at hx hy ⊢
  exact (h.value x y k hx hy hk).trans (same x y k hx hy hk).symm

/-- A plane without gaps begins with the list. -/
theorem lists_of_planes (planes : f.planes = [⟨bytes, ⟨f.size.width * n, n⟩⟩])
    (long : f.size.height * (f.size.width * n) ≤ bytes.size) :
    f.Lists n (bytes.extract 0 (f.size.height * (f.size.width * n))) := by
  refine ⟨by rw [Array.size_extract]; omega, fun x y k hx hy hk => ?_⟩
  have row : x * n + k < f.size.width * n := mul_add_lt_mul hx hk
  have inside : y * (f.size.width * n) + (x * n + k) < f.size.height * (f.size.width * n) :=
    mul_add_lt_mul hy row
  rw [pixelByte, pixels, pixelAddress, planes]
  rw [getD_extract (by omega), Nat.zero_add]
  rfl

/-- A canonical packed frame begins with the list. -/
theorem lists_of_ofBuffer {m : Metadata} (packed : m.format.channels = some n)
    (h : ofBuffer bytes m = .ok f) :
    f.Lists n (bytes.extract 0 (m.size.height * (m.size.width * n))) := by
  obtain ⟨-, long, ⟨layout, hlayout, hcut⟩, rfl, -⟩ := ofBuffer_eq_ok.1 h
  have planes := planes_of_packed packed (bind_eq_ok.2 ⟨layout, hlayout, hcut⟩)
  rw [byteSize_packed packed, Nat.mul_comm f.metadata.size.width, Nat.mul_assoc] at long
  exact lists_of_planes planes long

/-- The pixels of a packed frame are its picture. -/
theorem value_eq_pixelByte (packed : f.format.channels = some n) (h : f.picture = .ok p) :
    ∃ s, p = .packed s ∧ s.toExtent = ⟨f.size.width, f.size.height, n⟩ ∧ s.value = f.pixelByte := by
  obtain ⟨c, readable, rfl⟩ := picture_eq_ok.1 h
  rw [canvas_of_packed packed (readable_iff_writable.1 readable)]
  refine ⟨_, rfl, rfl, ?_⟩
  funext x y k
  show (f.planes.getD 0 default).bytes.getD (0 + f.pixelAddress x y k) 0 = _
  rw [Nat.zero_add]
  rfl

/-- A frame that shows carried samples holds them as its bytes. -/
theorem pixelByte_of_carried {motion : Motion} {size : Size} {s : Samples} {x y k : Nat}
    (packed : f.format.channels = some n) (h : f.picture = .ok p)
    (carried : (Picture.packed s).Carried motion size p) (channels : s.channels = n)
    (hx : x < size.width) (hy : y < size.height) (hk : k < n) :
    f.pixelByte (motion.point size x y).1 (motion.point size x y).2 k = s.value x y k := by
  obtain ⟨t, rfl, extent, value⟩ := value_eq_pixelByte packed h
  cases carried with
  | packed pixels =>
    have moved := pixels x y k hx hy (by rw [extent]; exact hk)
    rw [value] at moved
    exact moved.trans (if_pos (channels ▸ hk))

/-! ## Gaps -/

theorem headD_planes (f : Frame) : f.planes.headD default = f.planes.getD 0 default := by
  cases f.planes <;> rfl

/-- The rows of an RGB frame, without what follows them. -/
def pixelRows (f : Frame) : List Bytes :=
  (List.range f.size.height).map fun y =>
    f.pixels.extract (y * f.rowStride) (y * f.rowStride + f.size.width * 3)

theorem size_of_mem_pixelRows
    (long : (f.size.height - 1) * f.rowStride + f.size.width * 3 ≤ f.pixels.size) :
    ∀ row ∈ f.pixelRows, row.size = f.size.width * 3 := by
  intro row member
  obtain ⟨y, hy, rfl⟩ := List.mem_map.1 member
  have above : y * f.rowStride ≤ (f.size.height - 1) * f.rowStride :=
    Nat.mul_le_mul_right _ (Nat.le_sub_one_of_lt (List.mem_range.1 hy))
  rw [Array.size_extract]
  omega

/-- Rows put together are the pixels, if there are no gaps between these. -/
theorem lists_pixelRows (dense : f.pixelStride = 3)
    (long : (f.size.height - 1) * f.rowStride + f.size.width * 3 ≤ f.pixels.size) :
    f.Lists 3 (join f.pixelRows) := by
  have same := size_of_mem_pixelRows long
  have count : f.pixelRows.length = f.size.height := by
    rw [pixelRows, List.length_map, List.length_range]
  refine ⟨by rw [size_join_of_length same, count], fun x y k hx hy hk => ?_⟩
  have present : y < f.pixelRows.length := count.symm ▸ hy
  have inside : x * 3 + k < f.size.width * 3 := mul_add_lt_mul hx hk
  have row : f.pixelRows.getD y #[] =
      f.pixels.extract (y * f.rowStride) (y * f.rowStride + f.size.width * 3) := by
    simp [pixelRows, List.getD_eq_getElem?_getD, hy]
  have within : x * 3 + k < (f.pixelRows.getD y #[]).size := by
    rwa [List.getD_eq_getElem?_getD, List.getElem?_eq_getElem present, Option.getD_some,
      same _ (List.getElem_mem present)]
  rw [Nat.add_assoc, ← startOf_of_length same present.le, getD_join within, row,
    getD_extract (by omega), pixelByte, pixelAddress, ← Nat.add_assoc, ← dense]
  rfl

theorem rgbBytes_of_dense (dense : f.pixelStride = 3)
    (long : (f.size.height - 1) * f.rowStride + f.size.width * 3 ≤ f.pixels.size) :
    f.rgbBytes = .ok (join f.pixelRows) := by
  rw [rgbBytes, headD_planes]
  exact if_neg fun refused => refused.elim (Nat.not_lt.2 long) (absurd dense)

/-- Gaps between pixels are refused, as if the frame were too short. -/
theorem rgbBytes_of_gaps (gaps : f.pixelStride ≠ 3) : f.rgbBytes =
    .error (.frame (.bufferTooSmall ((f.size.height - 1) * f.rowStride + f.size.width * 3)
      f.pixels.size)) := by
  rw [rgbBytes, headD_planes]
  exact if_pos (.inr gaps)

/-! ## Frames of the factories -/

variable {size : Size} {stride : Stride} {orientation : Orientation}

/-- What is known of an RGB frame with a stride of its own. -/
theorem of_rgbRows (h : ofPackedRows bytes size .rgb stride orientation = .ok f) :
    f.metadata = ⟨size, orientation, .rgb⟩ ∧ f.pixels = bytes ∧ f.pixelStride = stride.pixel ∧
      (size.isEmpty = false →
        (size.height - 1) * f.rowStride + size.width * 3 ≤ f.pixels.size) := by
  obtain ⟨checked, hf⟩ := check_bind_eq_ok.1 h
  obtain ⟨planes, metadata, -⟩ := planes_of_ofPlanes hf
  obtain ⟨pixel, -, span⟩ := of_checkPacked checked
  have first : f.planes.getD 0 default = ⟨bytes, stride⟩ := by rw [planes]; rfl
  refine ⟨metadata, by rw [pixels, first], by rw [pixelStride, first], fun nonempty => ?_⟩
  rw [spannedBytes_eq nonempty] at span
  obtain ⟨width, -⟩ := Size.isEmpty_eq_false.1 nonempty
  have row : (size.width - 1) * 3 ≤ (size.width - 1) * stride.pixel :=
    Nat.mul_le_mul_left _ pixel
  rw [rowStride, pixels, first]
  show (size.height - 1) * stride.row + size.width * 3 ≤ bytes.size
  omega

end Frame

/-! ## Preprocessing of whole frames -/

namespace Engine

variable {input output : Frame} {size : Size} {source : Picture} {buffer : Bytes} {n : Nat}

/-- A frame preprocessed for an output of its own metadata is copied. -/
theorem preprocess_whole (same : output.metadata = input.metadata)
    (nonempty : input.size.isEmpty = false) (range : input.size.InRange) :
    (software.preprocess (some (.ofSize input.size)) false input output : Outcome) =
      software.call (.move (Box.ofSize input.size).crop) input output := by
  have plan : input.metadata.planTo output.metadata (some (.ofSize input.size)) false =
      [.cropResize (.ofSize input.size) input.size] := by
    have nothing : input.metadata.planTo output.metadata none false = [] :=
      Metadata.plan_eq_nil_iff.2 ⟨same.symm, rfl⟩
    have keeps : input.metadata.scaledSize output.metadata = input.size := by
      rw [same]
      exact Size.orientedSize_self ..
    rw [← nothing]
    exact Metadata.planTo_whole_of_same keeps
  have yields : (Operation.cropResize (.ofSize input.size) input.size).outputMetadata
    input.metadata = output.metadata := same.symm
  rw [preprocess_of_plan _ (List.cons_ne_nil _ _) plan, execute_eq_perform _ yields]
  have pixels : (Box.ofSize input.size).isEmpty = false := nonempty
  exact cropBox_eq_crop pixels (Size.containsBox_ofSize _) range input output

/-- What was drawn into a canonical packed frame is listed by its memory. -/
theorem lists_of_draws {r : Outcome} {image : Picture} {m : Metadata}
    (packed : m.format.channels = some n) (canonical : Frame.ofBuffer buffer m = .ok output)
    (drawn : r.Draws image output) :
    r.frame.Lists n (r.frame.memory.extract 0 (m.size.height * (m.size.width * n))) := by
  obtain rfl := drawn.metadata.trans (Frame.metadata_ofBuffer canonical)
  have room : r.frame.planes.map Plane.room = output.planes.map Plane.room := by
    obtain ⟨c, writable, rfl⟩ := drawn.painted
    exact Frame.room_painted writable _
  have listed := Frame.lists_of_ofBuffer packed (Frame.ofBuffer_memory canonical rfl room)
  exact ⟨listed.size, listed.value⟩

/-- Preprocessing lists the pixels of a whole frame in a canonical one. -/
theorem preprocess_whole_lists (packed : input.format.channels = some n)
    (hsource : input.picture = .ok source) (range : input.size.InRange)
    (canonical : Frame.ofBuffer buffer input.metadata = .ok output) :
    let r : Outcome := software.preprocess (some (.ofSize input.size)) false input output
    r.status = .ok () ∧ input.Lists n
      (r.frame.memory.extract 0 (input.size.height * (input.size.width * n))) := by
  intro r
  have nonempty := Frame.nonempty_of_picture hsource
  have same := Frame.metadata_ofBuffer canonical
  have sound := Frame.sound_ofBuffer canonical
  obtain ⟨target, htarget, -⟩ := id sound
  obtain ⟨size, -, format⟩ := Metadata.mk.inj same
  have copied : r.Carries (.turn .deg0) input.size (source.cut (.ofSize input.size)) output := by
    rw [show r = _ from preprocess_whole same nonempty range]
    exact Primitive.crop_carries hsource htarget (by rw [format, Format.compatible_refl]) nonempty
      (Size.containsBox_ofSize _) size
  obtain ⟨shown, hshown, moved⟩ := copied.shows sound size
  obtain ⟨image, drawn, -⟩ := id copied
  obtain ⟨shown_size, -, shown_format⟩ := Metadata.mk.inj (copied.metadata.trans same)
  refine ⟨copied.status, (lists_of_draws packed canonical drawn).congr shown_size.symm
    fun x y k hx hy hk => ?_⟩
  rw [shown_size] at hx hy
  -- both frames show the same value there
  obtain ⟨s, rfl, extent, value⟩ := Frame.value_eq_pixelByte packed hsource
  have channels : (s.cut (.ofSize input.size)).channels = n := congrArg Extent.channels extent
  have kept := Frame.pixelByte_of_carried
    ((congrArg Format.channels shown_format).trans packed) hshown moved channels hx hy hk
  have whole : (s.cut (.ofSize input.size)).value x y k = input.pixelByte x y k := by
    show s.value (0 + x) (0 + y) k = _
    rw [Nat.zero_add, Nat.zero_add, value]
  exact whole.symm.trans kept.symm

/-! ## Tensors -/

variable {f : Frame} {s : TensorSpecs} {roi : Option Box} {stride : Stride} {bytes : Bytes}

/-- Frames that are as wanted need no engine. -/
theorem prepareTensor_of_image {m : Type → Type} [Monad m] [LawfulMonad m] (e : Engine m)
    (valid : s.check = .ok ()) (type : s.type = .uint8)
    (whole : roi = none ∨ roi = some (.ofSize f.size)) (image : f.metadata = s.image) :
    e.prepareTensor s roi f = pure (f.rgbBytes.map .uint8) := by
  have region : roi.getD (.ofSize f.size) = .ofSize f.size := by
    rcases whole with rfl | rfl <;> rfl
  have enough : s.needsPreprocessing f (.ofSize f.size) = false := by
    simp [TensorSpecs.needsPreprocessing, image]
  have fill : s.fill = fun pixels => .ok (.uint8 pixels) := by
    funext pixels
    rw [TensorSpecs.fill, type]
  unfold prepareTensor tensorPixels
  rw [valid, type, region, enough, fill]
  simp only [reduceCtorEq, if_false, Bool.false_eq_true, pure_bind]
  cases f.rgbBytes <;> rfl

/-- An RGB frame of a packed factory, upright and of the size that a model asks for, is a tensor of
bytes exactly if there are no gaps between its pixels. Then the tensor holds the bytes that
preprocessing the frame writes. With gaps the frame is refused as too short, though it is as long
as the refusal asks for and preprocessing takes it. -/
theorem prepareTensor_whole
    (accepted : Frame.ofPacked bytes s.size .rgb .topLeft = .ok f ∨
      Frame.ofPackedRows bytes s.size .rgb stride .topLeft = .ok f)
    (range : s.size.InRange) (valid : s.check = .ok ()) (type : s.type = .uint8)
    (whole : roi = none ∨ roi = some (.ofSize s.size))
    (canonical : Frame.ofBuffer buffer s.image = .ok output) :
    let r : Outcome := software.preprocess (some (.ofSize s.size)) false f output
    let written := r.frame.memory.extract 0 (s.size.height * (s.size.width * 3))
    let tensor : Except Error Tensor := software.prepareTensor s roi f
    (r.status = .ok () ∧ written.size = s.size.height * (s.size.width * 3)) ∧
      (f.pixelStride = 3 → tensor = .ok (.uint8 written)) ∧
      (f.pixelStride ≠ 3 → ∃ required ≤ bytes.size,
        tensor = .error (.frame (.bufferTooSmall required bytes.size))) := by
  obtain ⟨stride, accepted⟩ : ∃ stride,
      Frame.ofPackedRows bytes s.size .rgb stride .topLeft = .ok f :=
    accepted.elim (fun h => ⟨_, h⟩) fun h => ⟨_, h⟩
  have nonempty : s.size.isEmpty = false := by
    unfold TensorSpecs.check at valid
    split at valid
    · cases valid
    · split at valid
      · cases valid
      · next full => exact Bool.eq_false_of_not_eq_true full
  obtain ⟨metadata, pixels, -, long⟩ := Frame.of_rgbRows accepted
  have size : f.size = s.size := congrArg Metadata.size metadata
  have packed : f.format.channels = some 3 := congrArg (·.format.channels) metadata
  have long := long nonempty
  have resolves := Frame.resolves_ofPackedRows nonempty accepted
  obtain ⟨source, hsource⟩ := resolves.exists_picture
  have tensor : (software.prepareTensor s roi f : Except Error Tensor) = f.rgbBytes.map .uint8 :=
    prepareTensor_of_image _ valid type (by rwa [size]) metadata
  rw [← size] at range whole long ⊢
  obtain ⟨done, listed⟩ := preprocess_whole_lists packed hsource range
    (by rw [metadata]; exact canonical)
  refine ⟨⟨done, listed.size⟩, fun dense => ?_, fun gaps => ⟨_, pixels ▸ long, ?_⟩⟩
  · have same := (Frame.lists_pixelRows dense long).unique listed
    rw [tensor, Frame.rgbBytes_of_dense dense long, same]
    rfl
  · rw [tensor, Frame.rgbBytes_of_gaps gaps, pixels]
    rfl

end Engine

/-- Bytes of a size, as they are. -/
def TensorSpecs.plain (size : Size) : TensorSpecs := ⟨size, .rgb, .uint8, none⟩

/-- Two pixels above each other, with a gap between their rows. -/
def Frame.rgbPadded : Frame :=
  ⟨[⟨#[1, 2, 3, 0, 4, 5, 6], ⟨4, 3⟩⟩], ⟨1, 2⟩, .rgb, .topLeft, none, rfl, by simp [Stride.hasZero]⟩

/-- A pixel that is followed by a gap. -/
def Frame.rgbSpaced : Frame :=
  ⟨[⟨#[1, 2, 3, 9], ⟨4, 4⟩⟩], ⟨1, 1⟩, .rgb, .topLeft, none, rfl, by simp [Stride.hasZero]⟩

namespace Engine

/-- The gap between two rows is left out. -/
theorem prepareTensor_whole_padded : ∃ blank : Frame,
    Frame.zeroed (TensorSpecs.plain ⟨1, 2⟩).image = .ok blank ∧
      let r : Outcome := software.preprocess (some ⟨0, 0, 1, 2⟩) false .rgbPadded blank
      (software.prepareTensor (.plain ⟨1, 2⟩) none .rgbPadded : Except Error Tensor) =
        .ok (.uint8 (r.frame.memory.extract 0 6)) := by
  obtain ⟨blank, canonical⟩ := Frame.zeroed_ok (m := (TensorSpecs.plain ⟨1, 2⟩).image) rfl nofun
  have accepted : Frame.ofPackedRows #[1, 2, 3, 0, 4, 5, 6] ⟨1, 2⟩ .rgb ⟨4, 3⟩ .topLeft =
    .ok .rgbPadded := rfl
  obtain ⟨-, dense, -⟩ := prepareTensor_whole (s := .plain ⟨1, 2⟩) (.inr accepted)
    ⟨by decide, by decide⟩ rfl rfl (.inl rfl) canonical
  exact ⟨blank, canonical, dense rfl⟩

/-- A pixel that is followed by a gap is refused as too short, with a byte to spare. Preprocessing
takes it. -/
theorem spaced_pixel_refused :
    Frame.ofPackedRows #[1, 2, 3, 9] ⟨1, 1⟩ .rgb ⟨4, 4⟩ .topLeft = .ok .rgbSpaced ∧
      (TensorSpecs.plain ⟨1, 1⟩).check = .ok () ∧
      (software.prepareTensor (.plain ⟨1, 1⟩) none .rgbSpaced : Except Error Tensor) =
        .error (.frame (.bufferTooSmall 3 4)) ∧
      ∃ blank : Frame, Frame.zeroed (TensorSpecs.plain ⟨1, 1⟩).image = .ok blank ∧
        let r : Outcome := software.preprocess (some ⟨0, 0, 1, 1⟩) false .rgbSpaced blank
        r.status = .ok () ∧ r.frame.memory = #[1, 2, 3] := by
  refine ⟨rfl, rfl, rfl, ⟨[⟨#[0, 0, 0], ⟨3, 3⟩⟩], ⟨1, 1⟩, .rgb, .topLeft, none, rfl, ?_⟩, rfl, ?_⟩
  · simp [Stride.hasZero]
  · decide +kernel

end Engine

end Raster
