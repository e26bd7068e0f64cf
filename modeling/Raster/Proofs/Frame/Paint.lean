import Raster.Engine.Stroke
import Raster.Proofs.Samples.Agreement

/-!
# Painting grids into planes

Painting a grid into its place changes the bytes of its samples and no other byte,
so it reads back as it was painted, and a grid apart from it reads as before.

* `Component.Inside` — the plane of the place holds the whole grid.
* `Component.Apart` — no byte belongs to a sample of both places.
* `Plane.room` — what painting keeps of a plane: its stride and its length.
* `paintGrids` — several grids painted in order.

Results: `read_paintGrids` (every grid reads back, if all places lie apart from each
other), `read_paintGrids_of_apart` (a place apart from all of them reads as before) and
`room_paintGrids` (no plane changes its room).
-/

namespace Raster

/-! ## One grid in a buffer -/

namespace Shape

variable {s : Shape} {bytes : Bytes} {offset : Nat}

/-- Painting from an offset on replaces the bytes of samples and keeps every other byte. -/
theorem paintFrom_eq_mapIdx (fits : s.Fits (bytes.size - offset))
    (value : (x y channel : Nat) → UInt8) :
    s.paintFrom value bytes offset =
      bytes.mapIdx fun i old => if i < offset then old else s.repaint value (i - offset) old := by
  have fits' : s.Fits (bytes.extract offset bytes.size).size := by simpa using fits
  rw [paintFrom, paint_eq_mapIdx fits']
  apply Array.ext
  · simp only [Array.size_append, Array.size_extract, Array.size_mapIdx]
    omega
  · intro i h1 h2
    simp only [Array.size_mapIdx] at h2
    simp only [Array.getElem_append, Array.size_extract, Array.getElem_extract,
      Array.getElem_mapIdx, Nat.zero_add, Nat.sub_zero]
    by_cases h : i < offset
    · rw [dif_pos (by omega), if_pos h]
    · rw [dif_neg (by omega), if_neg h]
      have hmin : min offset bytes.size = offset := by omega
      have hi : offset + (i - offset) = i := by omega
      simp only [hmin, hi]

theorem size_paintFrom (fits : s.Fits (bytes.size - offset))
    (value : (x y channel : Nat) → UInt8) :
    (s.paintFrom value bytes offset).size = bytes.size := by
  rw [paintFrom_eq_mapIdx fits, Array.size_mapIdx]

/-- A painted sample reads back. -/
theorem getD_paintFrom_address (fits : s.Fits (bytes.size - offset))
    (value : (x y channel : Nat) → UInt8) {x y c : Nat} (hx : x < s.width) (hy : y < s.height)
    (hc : c < s.channels) :
    (s.paintFrom value bytes offset).getD (offset + s.address x y c) 0 = value x y c := by
  have inside := address_lt fits hx hy hc
  have small : offset + s.address x y c < bytes.size := by omega
  rw [paintFrom_eq_mapIdx fits, Array.getD_eq_getD_getElem?,
    Array.getElem?_eq_getElem (by simpa using small), Option.getD_some, Array.getElem_mapIdx,
    if_neg (by omega), Nat.add_sub_cancel_left, repaint_address fits hx hy hc]

/-- A byte that belongs to no sample is kept. -/
theorem getD_paintFrom_of_ne (fits : s.Fits (bytes.size - offset))
    (value : (x y channel : Nat) → UInt8) {i : Nat}
    (apart : ∀ x y c, x < s.width → y < s.height → c < s.channels → offset + s.address x y c ≠ i) :
    (s.paintFrom value bytes offset).getD i 0 = bytes.getD i 0 := by
  rw [paintFrom_eq_mapIdx fits, Array.getD_eq_getD_getElem?, Array.getD_eq_getD_getElem?,
    Array.getElem?_mapIdx]
  cases hi : bytes[i]? with
  | none => rfl
  | some old =>
    simp only [Option.map_some, Option.getD_some]
    split
    · rfl
    · next above =>
      refine repaint_of_ne fits (fun x y c hx hy hc at_i => ?_) value old
      exact apart x y c hx hy hc (by omega)

/-- What is painted are the values inside of the shape. -/
theorem paintFrom_congr {value value' : (x y channel : Nat) → UInt8}
    (h : ∀ x y c, x < s.width → y < s.height → c < s.channels → value x y c = value' x y c)
    (bytes : Bytes) (offset : Nat) :
    s.paintFrom value bytes offset = s.paintFrom value' bytes offset := by
  unfold paintFrom paint mapRows
  congr 3
  apply List.map_congr_left
  intro y hy
  show s.paintRow _ _ = s.paintRow _ _
  unfold paintRow
  congr 1
  funext i old
  split
  · next inside => exact h _ _ _ inside.1 (List.mem_range.1 hy) inside.2
  · rfl

end Shape

/-! ## One grid in its plane -/

/-- The stride of a plane and the number of its bytes. -/
def Plane.room (p : Plane) : Stride × Nat := (p.stride, p.bytes.size)

theorem Plane.map_room (planes : List Plane) : planes.map room =
    (planes.map (·.stride)).zip ((planes.map (·.bytes)).map Array.size) := by
  rw [List.map_map, List.zip_map']
  rfl

theorem Plane.strides_of_room {planes planes' : List Plane}
    (h : planes'.map room = planes.map room) : planes'.map (·.stride) = planes.map (·.stride) := by
  have strides := congrArg (List.map Prod.fst) h
  simp only [List.map_map] at strides
  exact strides

theorem Plane.sizes_of_room {planes planes' : List Plane} (h : planes'.map room = planes.map room) :
    (planes'.map (·.bytes)).map Array.size = (planes.map (·.bytes)).map Array.size := by
  have sizes := congrArg (List.map Prod.snd) h
  simp only [List.map_map] at sizes ⊢
  exact sizes

namespace Component

/-- The plane holds the whole grid. -/
def Inside (c : Component) (planes : List Plane) : Prop :=
  c.shape.Fits ((c.bytes planes).size - c.offset)

/-- No byte belongs to a sample of both grids. -/
def Apart (a b : Component) : Prop :=
  a.plane = b.plane → ∀ x y c x' y' c', x < a.extent.width → y < a.extent.height →
    c < a.extent.channels → x' < b.extent.width → y' < b.extent.height → c' < b.extent.channels →
    a.offset + a.shape.address x y c ≠ b.offset + b.shape.address x' y' c'

variable {a b c : Component} {planes planes' : List Plane}

theorem Apart.symm (h : a.Apart b) : b.Apart a :=
  fun same x y c x' y' c' hx hy hc hx' hy' hc' =>
    (h same.symm x' y' c' x y c hx' hy' hc' hx hy hc).symm

theorem checkWrite_eq_ok : c.checkWrite planes = .ok () ↔ c.Inside planes := Shape.check_eq_ok

/-- A grid that fits has a sample, so the plane reaches the start of the grid. -/
theorem Inside.offset_lt (h : c.Inside planes) : c.offset < (c.bytes planes).size := by
  have := Shape.address_lt h h.width_pos h.height_pos h.channels_pos
  omega

theorem checkRead_eq_ok : c.checkRead planes = .ok () ↔ c.Inside planes := by
  unfold checkRead
  rw [ite_error_eq_ok, Shape.check_eq_ok]
  exact and_iff_right_of_imp fun inside : c.Inside planes =>
    Nat.not_lt.2 (Nat.le_of_lt inside.offset_lt)

theorem bytes_size_of_room (h : planes'.map Plane.room = planes.map Plane.room) :
    (c.bytes planes').size = (c.bytes planes).size := by
  have at_plane := congrArg (fun rooms => (rooms[c.plane]?).map Prod.snd) h
  simp only [List.getElem?_map, Option.map_map] at at_plane
  unfold bytes
  rw [List.getD_eq_getElem?_getD, List.getD_eq_getElem?_getD]
  cases h1 : planes'[c.plane]? <;> cases h2 : planes[c.plane]? <;>
    simp_all [Plane.room]

theorem Inside.of_room (h : planes'.map Plane.room = planes.map Plane.room)
    (inside : c.Inside planes) : c.Inside planes' := by
  unfold Inside
  rw [bytes_size_of_room h]
  exact inside

theorem bytes_paint (inside : c.Inside planes) (s : Samples) :
    c.bytes (c.paint s planes) = c.shape.paintFrom s.value (c.bytes planes) c.offset := by
  have present : c.plane < planes.length := by
    rcases Nat.lt_or_ge c.plane planes.length with present | absent
    · exact present
    · have size := inside.offset_lt
      rw [bytes, List.getD_eq_getElem?_getD, List.getElem?_eq_none absent] at size
      exact absurd size (by simp [default])
  unfold bytes paint
  rw [List.getD_eq_getElem?_getD, List.getD_eq_getElem?_getD, List.getElem?_modify,
    List.getElem?_eq_getElem present]
  simp

theorem bytes_paint_of_ne (s : Samples) (h : a.plane ≠ b.plane) :
    b.bytes (a.paint s planes) = b.bytes planes := by
  unfold bytes paint
  rw [List.getD_eq_getElem?_getD, List.getD_eq_getElem?_getD, List.getElem?_modify]
  simp [h]

theorem room_paint (inside : c.Inside planes) (s : Samples) :
    (c.paint s planes).map Plane.room = planes.map Plane.room := by
  have size := Shape.size_paintFrom inside s.value
  apply List.ext_getElem?
  intro k
  simp only [paint, List.getElem?_map, List.getElem?_modify]
  cases hk : planes[k]? with
  | none => rfl
  | some plane =>
    by_cases same : c.plane = k
    · rw [bytes, List.getD_eq_getElem?_getD, same, hk, Option.getD_some] at size
      simp only [same, if_true, Option.map_eq_map, Option.map_some, Plane.room, size]
    · simp only [same, if_false, Option.map_eq_map, Option.map_some]

/-- A grid reads back as it was painted. -/
theorem read_paint (inside : c.Inside planes) {s : Samples} (extent : s.toExtent = c.extent) :
    (c.read (c.paint s planes)).Agree s := by
  refine ⟨extent.symm, fun x y k hx hy hk => ?_⟩
  show (c.bytes (c.paint s planes)).getD (c.offset + c.shape.address x y k) 0 = s.value x y k
  rw [bytes_paint inside]
  exact Shape.getD_paintFrom_address inside s.value hx hy hk

/-- A byte of a plane that belongs to no sample of the painted grid is kept. -/
theorem getD_paint_of_ne (inside : c.Inside planes) (s : Samples) {k i : Nat}
    (apart : c.plane = k → ∀ x y ch, x < c.extent.width → y < c.extent.height →
      ch < c.extent.channels → c.offset + c.shape.address x y ch ≠ i) :
    ((c.paint s planes).getD k default).bytes.getD i 0 =
      (planes.getD k default).bytes.getD i 0 := by
  by_cases same : c.plane = k
  · have painted := bytes_paint inside s
    rw [bytes, bytes, same] at painted
    rw [painted]
    rw [Inside, bytes, same] at inside
    exact Shape.getD_paintFrom_of_ne inside s.value (apart same)
  · rw [paint, List.getD_eq_getElem?_getD, List.getD_eq_getElem?_getD, List.getElem?_modify]
    simp [same]

/-- A grid apart from the painted one reads as before. -/
theorem read_paint_of_apart (inside : a.Inside planes) (apart : a.Apart b) (s : Samples) :
    (b.read (a.paint s planes)).Agree (b.read planes) := by
  refine ⟨rfl, fun x y k hx hy hk => ?_⟩
  show (b.bytes (a.paint s planes)).getD _ 0 = (b.bytes planes).getD _ 0
  by_cases same : a.plane = b.plane
  · have same_bytes : ∀ planes, b.bytes planes = a.bytes planes := by
      intro planes
      rw [bytes, bytes, same]
    rw [same_bytes, same_bytes, bytes_paint inside]
    exact Shape.getD_paintFrom_of_ne inside s.value fun x' y' k' hx' hy' hk' =>
      apart same x' y' k' x y k hx' hy' hk' hx hy hk
  · rw [bytes_paint_of_ne s same]

/-- Grids that agree are painted alike. -/
theorem paint_congr {s t : Samples} (h : s.Agree t) (extent : s.toExtent = c.extent)
    (planes : List Plane) : c.paint s planes = c.paint t planes := by
  unfold paint
  congr 1
  funext plane
  rw [Shape.paintFrom_congr fun x y k hx hy hk => h.value x y k ?_ ?_ ?_] <;> rwa [extent]

end Component

/-! ## Several grids -/

/-- Grids painted into their places, one after the other. -/
def paintGrids (planes : List Plane) (grids : List (Component × Samples)) : List Plane :=
  grids.foldl (fun planes grid => grid.1.paint grid.2 planes) planes

@[simp] theorem paintGrids_nil (planes : List Plane) : paintGrids planes [] = planes := rfl

@[simp] theorem paintGrids_cons (planes : List Plane) (grid : Component × Samples)
    (rest : List (Component × Samples)) :
    paintGrids planes (grid :: rest) = paintGrids (grid.1.paint grid.2 planes) rest := rfl

variable {grids : List (Component × Samples)} {planes : List Plane}

/-- Strokes that all have values are painted to the last. -/
theorem paintAll_map_ok (grids : List (Component × Samples)) (planes : List Plane) :
    paintAll planes (grids.map fun grid => (grid.1, .ok grid.2)) =
      (.ok (), paintGrids planes grids) := by
  induction grids generalizing planes with
  | nil => rfl
  | cons grid rest ih =>
    rw [List.map_cons, paintAll, ih, paintGrids_cons]

theorem room_paintGrids (inside : ∀ grid ∈ grids, grid.1.Inside planes) :
    (paintGrids planes grids).map Plane.room = planes.map Plane.room := by
  induction grids generalizing planes with
  | nil => rfl
  | cons grid rest ih =>
    have first := Component.room_paint (inside grid (by simp)) grid.2
    rw [paintGrids_cons, ih, first]
    intro other hother
    exact (inside other (by simp [hother])).of_room first

/-- A byte of a plane that belongs to no sample of the painted grids is kept. -/
theorem getD_paintGrids_of_ne {k i : Nat} (inside : ∀ grid ∈ grids, grid.1.Inside planes)
    (apart : ∀ grid ∈ grids, grid.1.plane = k → ∀ x y ch, x < grid.1.extent.width →
      y < grid.1.extent.height → ch < grid.1.extent.channels →
        grid.1.offset + grid.1.shape.address x y ch ≠ i) :
    ((paintGrids planes grids).getD k default).bytes.getD i 0 =
      (planes.getD k default).bytes.getD i 0 := by
  induction grids generalizing planes with
  | nil => rfl
  | cons grid rest ih =>
    have first := inside grid (by simp)
    rw [paintGrids_cons, ih ?_ fun other hother => apart other (by simp [hother])]
    · exact Component.getD_paint_of_ne first grid.2 (apart grid (by simp))
    · intro other hother
      exact (inside other (by simp [hother])).of_room (Component.room_paint first grid.2)

/-- A place apart from all painted ones reads as before. -/
theorem read_paintGrids_of_apart {place : Component}
    (inside : ∀ grid ∈ grids, grid.1.Inside planes) (apart : ∀ grid ∈ grids, grid.1.Apart place) :
    (place.read (paintGrids planes grids)).Agree (place.read planes) := by
  induction grids generalizing planes with
  | nil => exact .refl _
  | cons grid rest ih =>
    have first := inside grid (by simp)
    have kept := Component.read_paint_of_apart first (apart grid (by simp)) grid.2
    refine (ih ?_ ?_).trans kept
    · intro other hother
      exact (inside other (by simp [hother])).of_room (Component.room_paint first grid.2)
    · intro other hother
      exact apart other (by simp [hother])

/-- Every painted grid reads back, if the places lie apart from each other. -/
theorem read_paintGrids (inside : ∀ grid ∈ grids, grid.1.Inside planes)
    (apart : grids.Pairwise fun grid other => grid.1.Apart other.1)
    (grid : Component × Samples) (member : grid ∈ grids)
    (extent : grid.2.toExtent = grid.1.extent) :
    (grid.1.read (paintGrids planes grids)).Agree grid.2 := by
  induction grids generalizing planes with
  | nil => cases member
  | cons head rest ih =>
    have first := inside head (by simp)
    have later : ∀ other ∈ rest, other.1.Inside (head.1.paint head.2 planes) := by
      intro other hother
      exact (inside other (by simp [hother])).of_room (Component.room_paint first head.2)
    obtain ⟨from_head, among_rest⟩ := List.pairwise_cons.1 apart
    rcases List.mem_cons.1 member with rfl | hrest
    · have kept := read_paintGrids_of_apart later fun other hother => (from_head other hother).symm
      exact kept.trans (Component.read_paint first extent)
    · exact ih later among_rest hrest

end Raster
