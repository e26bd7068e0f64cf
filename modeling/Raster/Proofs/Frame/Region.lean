import Raster.Proofs.Frame.Canonical

/-!
# Regions of frames

The top-left region of a frame shares the planes and the strides of the whole frame, so each
of its grids is the corner of a grid of the whole frame: it starts at the same byte, and the
sample at `(x, y)` lies where the whole frame keeps its sample at `(x, y)`.

* `Component.CornerOf` — a place that holds the top-left samples of another.

Results: `Frame.topLeft_eq_ok` (which regions there are), `Frame.writable_topLeft` and
`Frame.Sound.topLeft` (a region of a frame that can be written can be written, and it is
sound where the frame is).
-/

namespace Raster

/-! ## Corners of grids -/

/-- The place of the top-left samples of a grid: the same channels at the same distances, from
the same byte on. -/
structure Component.CornerOf (part whole : Component) : Prop where
  plane : part.plane = whole.plane
  offset : part.offset = whole.offset
  rowStride : part.shape.rowStride = whole.shape.rowStride
  pixelStride : part.shape.pixelStride = whole.shape.pixelStride
  channels : part.shape.channels = whole.shape.channels
  width_pos : 0 < part.shape.width
  width_le : part.shape.width ≤ whole.shape.width
  height_pos : 0 < part.shape.height
  height_le : part.shape.height ≤ whole.shape.height

namespace Component.CornerOf

variable {part whole part' whole' : Component} {planes : List Plane}

theorem bytes (h : part.CornerOf whole) (planes : List Plane) :
    part.bytes planes = whole.bytes planes := by
  rw [Component.bytes, Component.bytes, h.plane]

theorem address (h : part.CornerOf whole) (x y c : Nat) :
    part.shape.address x y c = whole.shape.address x y c := by
  rw [Shape.address, Shape.address, h.rowStride, h.pixelStride]

theorem rowSpan_le (h : part.CornerOf whole) : part.shape.rowSpan ≤ whole.shape.rowSpan := by
  have width := h.width_le
  have columns : (part.shape.width - 1) * whole.shape.pixelStride ≤
      (whole.shape.width - 1) * whole.shape.pixelStride := Nat.mul_le_mul_right _ (by omega)
  rw [Shape.rowSpan, Shape.rowSpan, h.pixelStride, h.channels]
  omega

theorem fits (h : part.CornerOf whole) {length : Nat} (fits : whole.shape.Fits length) :
    part.shape.Fits length where
  width_pos := h.width_pos
  height_pos := h.height_pos
  channels_pos := by
    rw [h.channels]
    exact fits.channels_pos
  channels_le := by
    rw [h.channels, h.pixelStride]
    exact fits.channels_le
  row_le several := by
    rw [h.rowStride]
    exact Nat.le_trans h.rowSpan_le (fits.row_le (Nat.lt_of_lt_of_le several h.height_le))
  span_le := by
    have rows : (part.shape.height - 1) * whole.shape.rowStride ≤
        (whole.shape.height - 1) * whole.shape.rowStride :=
      Nat.mul_le_mul_right _ (Nat.sub_le_sub_right h.height_le 1)
    refine Nat.le_trans ?_ fits.span_le
    rw [Shape.span, Shape.span, h.rowStride]
    exact Nat.add_le_add rows h.rowSpan_le

/-- A plane that holds a grid holds its corner. -/
theorem inside (h : part.CornerOf whole) (inside : whole.Inside planes) : part.Inside planes := by
  unfold Inside
  rw [h.bytes, h.offset]
  exact h.fits inside

/-- Corners of grids that lie apart lie apart. -/
theorem apart (h : part.CornerOf whole) (h' : part'.CornerOf whole') (apart : whole.Apart whole') :
    part.Apart part' := by
  intro same x y c x' y' c' hx hy hc hx' hy' hc'
  have same_plane : whole.plane = whole'.plane := by rw [← h.plane, ← h'.plane, same]
  rw [h.address, h'.address, h.offset, h'.offset]
  exact apart same_plane x y c x' y' c' (Nat.lt_of_lt_of_le hx h.width_le)
    (Nat.lt_of_lt_of_le hy h.height_le) (h.channels ▸ hc) (Nat.lt_of_lt_of_le hx' h'.width_le)
    (Nat.lt_of_lt_of_le hy' h'.height_le) (h'.channels ▸ hc')

end Component.CornerOf

/-! ## Corners of canvases -/

/-- A size that is not empty and fits into another, side by side. -/
structure Size.FitsInto (part whole : Size) : Prop where
  nonempty : part.isEmpty = false
  width_le : part.width ≤ whole.width
  height_le : part.height ≤ whole.height

theorem Size.FitsInto.whole_nonempty {part whole : Size} (h : part.FitsInto whole) :
    whole.isEmpty = false := by
  obtain ⟨width, height⟩ := Size.isEmpty_eq_false.1 h.nonempty
  exact Size.isEmpty_eq_false.2 ⟨Nat.lt_of_lt_of_le width h.width_le,
    Nat.lt_of_lt_of_le height h.height_le⟩

theorem Size.FitsInto.halved {part whole : Size} (h : part.FitsInto whole) :
    part.halved.FitsInto whole.halved where
  nonempty := by rw [Size.isEmpty_halved, h.nonempty]
  width_le := by
    have := h.width_le
    simp only [Size.halved]
    omega
  height_le := by
    have := h.height_le
    simp only [Size.halved]
    omega

namespace Canvas

variable {part whole : Size}

theorem component_cornerOf (h : part.FitsInto whole) (planes : List Plane)
    (channels plane offset : Nat) :
    (component planes part channels plane offset).CornerOf
      (component planes whole channels plane offset) where
  plane := rfl
  offset := rfl
  rowStride := rfl
  pixelStride := rfl
  channels := rfl
  width_pos := (Size.isEmpty_eq_false.1 h.nonempty).1
  width_le := h.width_le
  height_pos := (Size.isEmpty_eq_false.1 h.nonempty).2
  height_le := h.height_le

/-- On the same planes, every grid of a smaller frame is the corner of one of a larger frame. -/
theorem ofPlanes_cornerOf (h : part.FitsInto whole) (planes : List Plane) (format : Format) :
    List.Forall₂ Component.CornerOf (ofPlanes planes part format).components.list
      (ofPlanes planes whole format).components.list := by
  have luma := component_cornerOf h planes
  have chroma := component_cornerOf h.halved planes
  unfold ofPlanes
  cases format.channels with
  | some channels => exact .cons (luma channels 0 0) .nil
  | none =>
    dsimp only
    split
    · split
      · exact .cons (luma 1 0 0) (.cons (chroma 1 1 1) (.cons (chroma 1 1 0) .nil))
      · exact .cons (luma 1 0 0) (.cons (chroma 1 1 0) (.cons (chroma 1 1 1) .nil))
    · split
      · exact .cons (luma 1 0 0) (.cons (chroma 1 1 0) (.cons (chroma 1 2 0) .nil))
      · exact .cons (luma 1 0 0) (.cons (chroma 1 2 0) (.cons (chroma 1 1 0) .nil))

end Canvas

theorem Component.inside_corners {parts wholes : List Component} {planes : List Plane}
    (corners : List.Forall₂ CornerOf parts wholes) (inside : ∀ place ∈ wholes, place.Inside planes) :
    ∀ place ∈ parts, place.Inside planes := by
  induction corners with
  | nil => exact inside
  | cons corner rest ih =>
    obtain ⟨first, others⟩ := List.forall_mem_cons.1 inside
    exact List.forall_mem_cons.2 ⟨corner.inside first, ih others⟩

theorem Component.apart_corners {parts wholes : List Component}
    (corners : List.Forall₂ CornerOf parts wholes) (apart : wholes.Pairwise Apart) :
    parts.Pairwise Apart := by
  have length := corners.length_eq
  rw [List.pairwise_iff_getElem] at apart ⊢
  intro i j hi hj before
  exact (corners.get hi (length ▸ hi)).apart (corners.get hj (length ▸ hj))
    (apart i j (length ▸ hi) (length ▸ hj) before)

/-! ## Regions -/

namespace Frame

variable {f region : Frame} {c : Canvas} {size : Size}

/-- A frame that can be read or written is not empty. -/
theorem nonempty_of_writable (h : f.writable = .ok c) : f.size.isEmpty = false := by
  obtain ⟨hc, inside⟩ := writable_eq_ok.1 h
  obtain ⟨planes, -, -, rfl⟩ := canvas_eq_ok.1 hc
  rw [Size.isEmpty_eq_false]
  -- the first grid has as many samples as the frame has pixels
  revert inside
  unfold Canvas.Inside Canvas.ofPlanes
  cases f.format.channels with
  | some channels =>
    intro inside
    have pixels := inside _ (List.mem_singleton.2 rfl)
    exact ⟨pixels.width_pos, pixels.height_pos⟩
  | none =>
    intro inside
    have luma : (Canvas.component planes f.size 1 0 0).Inside planes := by
      refine inside _ ?_
      dsimp only
      split <;> split <;> exact List.mem_cons_self
    exact ⟨luma.width_pos, luma.height_pos⟩

theorem nonempty_of_picture {p : Picture} (h : f.picture = .ok p) : f.size.isEmpty = false := by
  obtain ⟨c, readable, -⟩ := picture_eq_ok.1 h
  exact nonempty_of_writable (readable_iff_writable.1 readable)

/-- There is a region of every size that is not empty and fits into the frame. -/
theorem topLeft_eq_ok {planes : List Plane} (expanded : f.expandedPlanes = .ok planes)
    (fits : size.FitsInto f.size) : ∃ region, f.topLeft size = .ok region ∧
      region.planes = planes ∧ region.metadata = ⟨size, f.orientation, f.format⟩ := by
  have refused : ¬(size.isEmpty = true ∨ f.size.width < size.width ∨
      f.size.height < size.height) := by
    rw [fits.nonempty, not_or, not_or]
    exact ⟨by simp, Nat.not_lt.2 fits.width_le, Nat.not_lt.2 fits.height_le⟩
  unfold topLeft
  rw [if_neg refused]
  split
  · next failed =>
    rw [expanded] at failed
    cases failed
  · next planes' expanded' =>
    rw [expanded] at expanded'
    obtain rfl := Except.ok.inj expanded'
    exact ⟨_, rfl, rfl, rfl⟩

theorem fitsInto_of_topLeft (h : f.topLeft size = .ok region) :
    size.FitsInto f.size ∧ region.metadata = ⟨size, f.orientation, f.format⟩ := by
  obtain ⟨fits, h⟩ := ite_error_eq_ok.1 h
  simp only [not_or, Bool.not_eq_true, Nat.not_lt] at fits
  split at h
  · cases h
  · cases h
    exact ⟨⟨fits.1, fits.2.1, fits.2.2⟩, rfl⟩

/-- The planes of a region need no cutting: luma and chroma are planes of their own. -/
theorem isContiguousYuv_topLeft (h : f.topLeft size = .ok region) :
    region.isContiguousYuv = false := by
  have format : region.format = f.format := congrArg Metadata.format (fitsInto_of_topLeft h).2
  rw [isContiguousYuv, format]
  cases yuv : f.format.isYuv with
  | false => rfl
  | true =>
    have count := length_expandedPlanes yuv (expandedPlanes_of_topLeft h)
    rw [Bool.true_and, beq_eq_false_iff_ne]
    omega

/-- A region of a frame that can be written can be written, and each of its grids is the corner
of a grid of the frame. -/
theorem writable_topLeft (h : f.topLeft size = .ok region) (hc : f.writable = .ok c) :
    ∃ corner, region.writable = .ok corner ∧ corner.planes = c.planes ∧
      List.Forall₂ Component.CornerOf corner.components.list c.components.list := by
  obtain ⟨hcanvas, inside⟩ := writable_eq_ok.1 hc
  obtain ⟨planes, expanded, -, rfl⟩ := canvas_eq_ok.1 hcanvas
  obtain ⟨fits, metadata⟩ := fitsInto_of_topLeft h
  obtain ⟨region_size, -, region_format⟩ := Metadata.mk.inj metadata
  have planes_eq : region.planes = planes :=
    Except.ok.inj ((expandedPlanes_of_topLeft h).symm.trans expanded)
  have corners := Canvas.ofPlanes_cornerOf fits planes f.format
  refine ⟨.ofPlanes planes size f.format, writable_eq_ok.2 ⟨canvas_eq_ok.2 ⟨planes, ?_, ?_, ?_⟩, ?_⟩,
    rfl, corners⟩
  · rw [expandedPlanes_of_separate (isContiguousYuv_topLeft h), planes_eq]
  · rw [region_size, fits.nonempty]
    simp
  · rw [region_size, region_format]
  · exact Component.inside_corners corners inside

/-- A region of a sound frame is sound. -/
theorem Sound.topLeft (sound : f.Sound) (h : f.topLeft size = .ok region) : region.Sound := by
  obtain ⟨c, hc, apart⟩ := sound
  obtain ⟨corner, writable, -, corners⟩ := writable_topLeft h hc
  exact ⟨corner, writable, Component.apart_corners corners apart⟩

end Frame

end Raster
