import Raster.Proofs.Frame.Canonical

/-!
# Interleaved chroma

The chroma grids of a semi-planar frame share a plane, one of them a byte after the other. Each
of them is checked on its own, so strides pass that leave room for one grid only: then a U
sample and a V sample are the same byte.

* `Components.Distinct` — every channel of every sample has a byte of its own.
* `Stride.Collides` — a grid and the grid one byte after it share a byte.
* `Frame.ChromaCollides` — the strides of interleaved chroma are such.

Results: `Shape.meets_next_iff` (when a grid meets the grid after it),
`Components.distinct_iff_apart` and `Frame.apart_iff` (the grids of a YUV frame lie apart
exactly when its chroma does not collide).
-/

namespace Raster

/-! ## A byte for every sample -/

/-- The plane that holds a channel of a sample, and its byte there. -/
def Component.byteOf (c : Component) (x y channel : Nat) : Nat × Nat :=
  (c.plane, c.offset + c.shape.address x y channel)

/-- Every channel of every sample has a byte of its own, in all grids together. -/
def Components.Distinct (c : Components) : Prop :=
  ∀ (i j : Nat) (a b : Component), c.list[i]? = some a → c.list[j]? = some b →
    ∀ x y k x' y' k', x < a.extent.width → y < a.extent.height → k < a.extent.channels →
      x' < b.extent.width → y' < b.extent.height → k' < b.extent.channels →
        a.byteOf x y k = b.byteOf x' y' k' → i = j ∧ x = x' ∧ y = y' ∧ k = k'

theorem Component.Apart.byteOf_ne {a b : Component} (h : a.Apart b) {x y k x' y' k' : Nat}
    (hx : x < a.extent.width) (hy : y < a.extent.height) (hk : k < a.extent.channels)
    (hx' : x' < b.extent.width) (hy' : y' < b.extent.height) (hk' : k' < b.extent.channels) :
    a.byteOf x y k ≠ b.byteOf x' y' k' := by
  intro same
  obtain ⟨plane, byte⟩ := Prod.mk.inj same
  exact h plane x y k x' y' k' hx hy hk hx' hy' hk' byte

/-- Inside of their planes no two samples of one grid share a byte, so grids that lie apart are
all that is asked for. -/
theorem Components.distinct_iff_apart {c : Canvas} (inside : c.Inside) :
    c.components.Distinct ↔ c.components.Apart := by
  unfold Apart
  rw [List.pairwise_iff_getElem]
  constructor
  · intro distinct i j hi hj before plane x y k x' y' k' hx hy hk hx' hy' hk' byte
    have same := distinct i j _ _ (List.getElem?_eq_getElem hi) (List.getElem?_eq_getElem hj)
      x y k x' y' k' hx hy hk hx' hy' hk' (Prod.ext plane byte)
    exact absurd same.1 (Nat.ne_of_lt before)
  · intro apart i j a b ha hb x y k x' y' k' hx hy hk hx' hy' hk' same
    obtain ⟨hi, rfl⟩ := List.getElem?_eq_some_iff.1 ha
    obtain ⟨hj, rfl⟩ := List.getElem?_eq_some_iff.1 hb
    rcases Nat.lt_trichotomy i j with before | rfl | after
    · exact absurd same ((apart i j hi hj before).byteOf_ne hx hy hk hx' hy' hk')
    · have byte := Nat.add_left_cancel (congrArg Prod.snd same)
      exact ⟨rfl, Shape.address_inj (inside _ (List.getElem_mem hi)) hx hy hk hx' hy' hk' byte⟩
    · exact absurd same.symm ((apart j i hj hi after).byteOf_ne hx' hy' hk' hx hy hk)

/-! ## A grid and the grid after it -/

/-- Grids of this size and stride, one a byte after the other, share a byte: neighbours in a row
lie too close, or the end of a row meets the start of the next. -/
def Stride.Collides (s : Stride) (grid : Size) : Prop :=
  (2 ≤ grid.width ∧ s.pixel = 1) ∨ (2 ≤ grid.height ∧ s.row = (grid.width - 1) * s.pixel + 1)

instance (s : Stride) (grid : Size) : Decidable (s.Collides grid) :=
  inferInstanceAs (Decidable (_ ∨ _))

namespace Shape

variable {s : Shape} {length x y x' y' : Nat}

/-- A sample that lies a byte after another is its right neighbour at distance one, or it
starts the next row where the row ends. -/
theorem collides_of_address_succ (fits : s.Fits length) (hx : x < s.width) (hy : y < s.height)
    (hx' : x' < s.width) (hy' : y' < s.height)
    (next : s.address x y 0 = s.address x' y' 0 + 1) :
    Stride.Collides ⟨s.rowStride, s.pixelStride⟩ s.size := by
  have channels := fits.channels_pos
  have off : x * s.pixelStride ≤ (s.width - 1) * s.pixelStride :=
    Nat.mul_le_mul_right _ (by omega)
  have off' : x' * s.pixelStride ≤ (s.width - 1) * s.pixelStride :=
    Nat.mul_le_mul_right _ (by omega)
  unfold address at next
  rcases Nat.lt_trichotomy y y' with above | rfl | below
  · -- the second sample lies in a later row, a whole row further on
    have rows : (y + 1) * s.rowStride ≤ y' * s.rowStride := Nat.mul_le_mul_right _ above
    have row := fits.row_le (by omega)
    rw [Nat.succ_mul] at rows
    unfold rowSpan at row
    omega
  · have columns : x * s.pixelStride = x' * s.pixelStride + 1 := by omega
    have after : x' < x := Nat.lt_of_mul_lt_mul_right (by omega : x' * s.pixelStride < x * s.pixelStride)
    have step : (x' + 1) * s.pixelStride ≤ x * s.pixelStride := Nat.mul_le_mul_right _ after
    have pixel := fits.channels_le
    rw [Nat.succ_mul] at step
    refine .inl ⟨?_, ?_⟩
    · show 2 ≤ s.width
      omega
    · show s.pixelStride = 1
      omega
  · have rows : (y' + 1) * s.rowStride ≤ y * s.rowStride := Nat.mul_le_mul_right _ below
    have row := fits.row_le (by omega)
    rw [Nat.succ_mul] at rows
    unfold rowSpan at row
    refine .inr ⟨?_, ?_⟩
    · show 2 ≤ s.height
      omega
    · show s.rowStride = (s.width - 1) * s.pixelStride + 1
      omega

/-- A grid shares a byte with the grid one byte after it exactly when its stride collides. -/
theorem meets_next_iff (fits : s.Fits length) :
    (∃ x y x' y', (x < s.width ∧ y < s.height ∧ x' < s.width ∧ y' < s.height) ∧
      s.address x y 0 = s.address x' y' 0 + 1) ↔
        Stride.Collides ⟨s.rowStride, s.pixelStride⟩ s.size := by
  constructor
  · rintro ⟨x, y, x', y', ⟨hx, hy, hx', hy'⟩, next⟩
    exact collides_of_address_succ fits hx hy hx' hy' next
  · have width := fits.width_pos
    have height := fits.height_pos
    rintro (⟨wide, pixel⟩ | ⟨high, row⟩)
    · have pixel : s.pixelStride = 1 := pixel
      refine ⟨1, 0, 0, 0, ⟨wide, height, width, height⟩, ?_⟩
      unfold address
      omega
    · have row : s.rowStride = (s.width - 1) * s.pixelStride + 1 := row
      refine ⟨0, 1, s.width - 1, 0, ⟨width, high, by omega, height⟩, ?_⟩
      unfold address
      omega

end Shape

theorem Component.apart_comm {a b : Component} : a.Apart b ↔ b.Apart a := ⟨.symm, .symm⟩

theorem Component.apart_next_iff {a b : Component} {planes : List Plane} (inside : a.Inside planes)
    (plane : a.plane = b.plane) (shape : b.shape = a.shape) (next : b.offset = a.offset + 1)
    (channels : a.shape.channels = 1) :
    a.Apart b ↔ ¬Stride.Collides ⟨a.shape.rowStride, a.shape.pixelStride⟩ a.shape.size := by
  rw [← Shape.meets_next_iff inside]
  constructor
  · rintro apart ⟨x, y, x', y', ⟨hx, hy, hx', hy'⟩, byte⟩
    have hc : 0 < a.shape.channels := by omega
    refine apart plane x y 0 x' y' 0 hx hy hc ?_ ?_ ?_ ?_
    · rwa [extent, shape]
    · rwa [extent, shape]
    · rwa [extent, shape]
    · rw [shape, next, byte]
      omega
  · intro meets _ x y c x' y' c' hx hy hc hx' hy' hc' byte
    rw [extent, shape] at hx' hy' hc'
    rw [shape, next] at byte
    have hc : c < a.shape.channels := hc
    obtain rfl : c = 0 := by omega
    obtain rfl : c' = 0 := by omega
    exact meets ⟨x, y, x', y', ⟨hx, hy, hx', hy'⟩, by omega⟩

/-! ## The grids of a frame -/

/-- Luma lies in a plane of its own, so only the chroma grids can meet. -/
theorem Canvas.apart_yuv_iff {planes : List Plane} {size : Size} {first second u v : Nat}
    (hu : u ≠ 0) (hv : v ≠ 0) :
    (Components.yuv (component planes size 1 0 0) (component planes size.halved 1 u first)
      (component planes size.halved 1 v second)).Apart ↔
        (component planes size.halved 1 u first).Apart (component planes size.halved 1 v second) := by
  have luma (k offset : Nat) (hk : k ≠ 0) :
      (component planes size 1 0 0).Apart (component planes size.halved 1 k offset) :=
    Component.apart_of_plane_ne (Ne.symm hk)
  simp only [Components.Apart, Components.list, List.pairwise_cons, List.mem_cons,
    List.not_mem_nil, or_false, forall_eq_or_imp, forall_eq, luma u first hu, luma v second hv,
    true_and, List.Pairwise.nil, and_true, false_implies, implies_true]

theorem Canvas.apart_interleaved_iff {planes : List Plane} {size : Size} {format : Format}
    (channels : format.channels = none) (count : planes.length = 2)
    (inside : (ofPlanes planes size format).Inside) :
    (ofPlanes planes size format).components.Apart ↔
      ¬(planes.getD 1 default).stride.Collides size.halved := by
  obtain ⟨first, second, turns, canvas⟩ := ofPlanes_interleaved size channels count
  rw [canvas] at inside ⊢
  rw [apart_yuv_iff Nat.one_ne_zero Nat.one_ne_zero]
  have blue : (component planes size.halved 1 1 first).Inside planes :=
    inside _ (by simp [Components.list])
  have red : (component planes size.halved 1 1 second).Inside planes :=
    inside _ (by simp [Components.list])
  obtain ⟨rfl, rfl⟩ | ⟨rfl, rfl⟩ : (first = 0 ∧ second = 1) ∨ (first = 1 ∧ second = 0) := by omega
  · exact Component.apart_next_iff blue rfl rfl rfl rfl
  · rw [Component.apart_comm]
    exact Component.apart_next_iff red rfl rfl rfl rfl

namespace Frame

variable {f : Frame} {c : Canvas}

/-- The chroma of a frame of two planes is interleaved with strides that let U meet V. -/
def ChromaCollides (f : Frame) : Prop :=
  f.planes.length = 2 ∧ (f.planes.getD 1 default).stride.Collides f.size.halved

instance (f : Frame) : Decidable f.ChromaCollides := inferInstanceAs (Decidable (_ ∧ _))

/-- One plane cut into luma and interleaved chroma leaves an even number of bytes for a row of
pairs, so U and V never meet. -/
theorem not_collides_of_contiguous {planes : List Plane} (h : f.isContiguousYuv = true)
    (expanded : f.expandedPlanes = .ok planes) (count : planes.length = 2) :
    ¬(planes.getD 1 default).stride.Collides f.size.halved := by
  obtain ⟨plane, -, -, hcut, -⟩ := cutPlanes_of_contiguous h expanded
  have strides := (cutPlanes_of_ok (yuvPlanes_ne_nil _ _ _) hcut).2
  have second := congrArg (fun strides => strides[1]?) strides
  simp only [List.getElem?_map] at second
  have present : 1 < planes.length := by omega
  rw [List.getD_eq_getElem?_getD]
  rw [List.getElem?_eq_getElem present] at second ⊢
  unfold yuvPlanes at second strides
  split at second
  · simp only [Option.map_some, List.getElem?_cons_succ, List.getElem?_cons_zero,
      Option.some.injEq] at second
    rw [Option.getD_some, second]
    rintro (⟨-, pixel⟩ | ⟨-, row⟩)
    · cases pixel
    · simp only at row
      omega
  · next planar =>
    have length := congrArg List.length strides
    rw [if_neg planar, List.length_map, List.length_map] at length
    exact absurd (count.symm.trans length) (by simp)

/-- The grids of a YUV frame lie apart exactly when its chroma does not collide. -/
theorem apart_iff (yuv : f.format.isYuv = true) (h : f.writable = .ok c) :
    c.components.Apart ↔ ¬f.ChromaCollides := by
  obtain ⟨hc, inside⟩ := writable_eq_ok.1 h
  obtain ⟨planes, expanded, -, rfl⟩ := canvas_eq_ok.1 hc
  have channels := (Format.channels_eq_none_iff f.format_ne_unknown).2 yuv
  rcases length_expandedPlanes yuv expanded with count | count
  · rw [Canvas.apart_interleaved_iff channels count inside]
    refine not_congr ?_
    unfold ChromaCollides
    cases contiguous : f.isContiguousYuv with
    | true =>
      obtain ⟨plane, hplane, -⟩ := cutPlanes_of_contiguous contiguous expanded
      have single : ¬f.planes.length = 2 := by simp [hplane]
      have apart := not_collides_of_contiguous contiguous expanded count
      exact ⟨fun h => absurd h apart, fun h => absurd h.1 single⟩
    | false =>
      rw [expandedPlanes_of_separate contiguous] at expanded
      obtain rfl := Except.ok.inj expanded
      exact ⟨fun h => ⟨count, h⟩, fun h => h.2⟩
  · obtain ⟨u, v, order, canvas⟩ := Canvas.ofPlanes_planar f.size channels count
    have apart : (Canvas.ofPlanes planes f.size f.format).components.Apart := by
      rw [canvas]
      refine (Canvas.apart_yuv_iff (by omega) (by omega)).2 (Component.apart_of_plane_ne ?_)
      show u ≠ v
      omega
    refine ⟨fun _ => ?_, fun _ => apart⟩
    rintro ⟨two, -⟩
    -- two planes of the frame are its expansion
    have separate : f.isContiguousYuv = false := by simp [isContiguousYuv, two]
    rw [expandedPlanes_of_separate separate] at expanded
    obtain rfl := Except.ok.inj expanded
    omega

end Frame

end Raster
