import Raster.Proofs.Frame.Parts

/-!
# Reading and writing frames

A frame can be read exactly when it can be written, namely when its planes hold all
of its grids. A picture painted on the canvas of a frame reads back from the frame, if
no byte belongs to samples of two grids.

* `Canvas.Inside` — the planes hold all grids.
* `Components.Apart` — no byte belongs to samples of two grids.
* `Canvas.paint`, `Frame.painted` — a canvas and a frame with all samples replaced.

Results: `Frame.readable_iff_writable`, `Frame.readable_painted` (a painted frame has the
painted canvas) and `Frame.picture_painted` (and shows the picture that was painted).
-/

namespace Raster

/-! ## Places and values of all grids -/

namespace Components

/-- The places of the grids, in the order of painting. -/
def list : Components → List Component
  | packed pixels => [pixels]
  | yuv y u v => [y, u, v]

/-- The extents of the grids. -/
def grids : Components → Grids
  | packed pixels => .packed pixels.extent
  | yuv y u v => .yuv y.extent u.extent v.extent

theorem eq_packed {c : Components} {extent : Extent} (h : c.grids = .packed extent) :
    ∃ place, c = .packed place ∧ place.extent = extent := by
  cases c with
  | packed place => exact ⟨place, rfl, Grids.packed.inj h⟩
  | yuv y u v => cases h

theorem eq_yuv {c : Components} {ey eu ev : Extent} (h : c.grids = .yuv ey eu ev) :
    ∃ y u v, c = .yuv y u v ∧ y.extent = ey ∧ u.extent = eu ∧ v.extent = ev := by
  cases c with
  | packed place => cases h
  | yuv y u v => exact ⟨y, u, v, rfl, Grids.yuv.inj h⟩

/-- No byte belongs to samples of two grids. -/
def Apart (c : Components) : Prop := c.list.Pairwise Component.Apart

end Components

/-- The grids, in the order of painting. -/
def Picture.list : Picture → List Samples
  | packed pixels => [pixels]
  | yuv y u v => [y, u, v]

namespace Canvas

/-- The planes hold all grids. -/
def Inside (c : Canvas) : Prop := ∀ place ∈ c.components.list, place.Inside c.planes

/-- The canvas with all samples replaced. -/
def paint (c : Canvas) (p : Picture) : Canvas :=
  { c with planes := paintGrids c.planes (c.components.list.zip p.list) }

variable {c : Canvas} {p q : Picture}

theorem checkWrite_eq_ok : c.checkWrite = .ok () ↔ c.Inside := by
  unfold checkWrite Inside
  cases c.components with
  | packed pixels => simp [Components.list, Component.checkWrite_eq_ok]
  | yuv y u v =>
    simp only [check_bind_eq_ok, Component.checkWrite_eq_ok, Components.list, List.mem_cons,
      List.not_mem_nil, or_false, forall_eq_or_imp, forall_eq]

theorem checkRead_eq_ok : c.checkRead = .ok () ↔ c.Inside := by
  unfold checkRead Inside
  cases c.components with
  | packed pixels => simp [Components.list, Component.checkRead_eq_ok]
  | yuv y u v =>
    simp only [check_bind_eq_ok, Component.checkRead_eq_ok, Components.list, List.mem_cons,
      List.not_mem_nil, or_false, forall_eq_or_imp, forall_eq]
    -- chroma planes of their own are checked in the order of storage
    split
    · simp only [check_bind_eq_ok, Component.checkRead_eq_ok]
      exact and_congr_right fun _ => and_comm
    · simp only [check_bind_eq_ok, Component.checkRead_eq_ok]

theorem Inside.zip (h : c.Inside) (p : Picture) :
    ∀ grid ∈ c.components.list.zip p.list, grid.1.Inside c.planes :=
  fun grid member => h grid.1 (List.of_mem_zip (a := grid.1) (b := grid.2) member).1

theorem room_paint (h : c.Inside) (p : Picture) :
    (c.paint p).planes.map Plane.room = c.planes.map Plane.room :=
  room_paintGrids (h.zip p)

theorem Inside.paint (h : c.Inside) (p : Picture) : (c.paint p).Inside :=
  fun place member => (h place member).of_room (room_paint h p)

theorem grids_picture (c : Canvas) : c.picture.grids = c.components.grids := by
  unfold picture
  cases c.components <;> rfl

/-- A painted picture reads back. -/
theorem picture_paint (inside : c.Inside) (apart : c.components.Apart)
    (grids : p.grids = c.components.grids) : (c.paint p).picture.Agree p := by
  have reads := read_paintGrids (inside.zip p)
  unfold picture
  unfold Components.Apart at apart
  cases hc : c.components with
  | packed place =>
    cases p with
    | yuv y u v =>
      rw [hc] at grids
      cases grids
    | packed s =>
      simp only [hc, Components.list, Picture.list, List.zip_cons_cons, List.zip_nil_right] at reads
      rw [hc] at grids
      simp only [paint, hc]
      exact .packed (reads (by simp) (place, s) (by simp) (Grids.packed.inj grids))
  | yuv py pu pv =>
    cases p with
    | packed s =>
      rw [hc] at grids
      cases grids
    | yuv y u v =>
      simp only [hc, Components.list, Picture.list, List.zip_cons_cons, List.zip_nil_right] at reads
      rw [hc] at grids apart
      obtain ⟨hy, hu, hv⟩ := Grids.yuv.inj grids
      simp only [Components.list, List.pairwise_cons, List.mem_cons, List.not_mem_nil, or_false,
        forall_eq_or_imp, forall_eq] at apart
      obtain ⟨⟨yu, yv⟩, uv, -⟩ := apart
      have pairwise : [(py, y), (pu, u), (pv, v)].Pairwise
          fun (grid other : Component × Samples) => grid.1.Apart other.1 := by
        simp [yu, yv, uv]
      simp only [paint, hc]
      exact .yuv (reads pairwise (py, y) (by simp) hy) (reads pairwise (pu, u) (by simp) hu)
        (reads pairwise (pv, v) (by simp) hv)

/-- Pictures that agree are painted alike. -/
theorem paint_congr (h : p.Agree q) (grids : p.grids = c.components.grids) :
    c.paint p = c.paint q := by
  unfold paint
  cases hc : c.components with
  | packed place =>
    cases h with
    | yuv _ _ _ =>
      rw [hc] at grids
      cases grids
    | packed hs =>
      rw [hc] at grids
      simp only [Components.list, Picture.list, List.zip_cons_cons, List.zip_nil_right,
        paintGrids_cons, paintGrids_nil]
      rw [Component.paint_congr hs (Grids.packed.inj grids)]
  | yuv py pu pv =>
    cases h with
    | packed _ =>
      rw [hc] at grids
      cases grids
    | yuv hy hu hv =>
      rw [hc] at grids
      obtain ⟨ey, eu, ev⟩ := Grids.yuv.inj grids
      simp only [Components.list, Picture.list, List.zip_cons_cons, List.zip_nil_right,
        paintGrids_cons, paintGrids_nil]
      rw [Component.paint_congr hy ey, Component.paint_congr hu eu, Component.paint_congr hv ev]

end Canvas

/-! ## Frames -/

namespace Frame

variable {f : Frame} {c : Canvas} {p q : Picture}

theorem canvas_eq_ok : f.canvas = .ok c ↔
    ∃ planes, f.expandedPlanes = .ok planes ∧ ¬(f.format.isYuv = true ∧ f.size.isEmpty = true) ∧
      c = .ofPlanes planes f.size f.format := by
  unfold canvas
  rw [bind_eq_ok]
  refine exists_congr fun planes => and_congr_right fun _ => ?_
  rw [ite_error_eq_ok, Bool.and_eq_true_iff]
  exact and_congr_right fun _ =>
    ⟨fun h => (Except.ok.inj h).symm, fun h => congrArg Except.ok h.symm⟩

/-- A check that stands for grids inside of their planes lets exactly these canvases pass. -/
theorem checked_eq_ok {check : Canvas → Except Error Unit}
    (stands : ∀ d, check d = .ok () ↔ d.Inside) :
    (f.canvas >>= fun d => check d >>= fun _ => .ok d) = .ok c ↔ f.canvas = .ok c ∧ c.Inside := by
  rw [bind_eq_ok]
  constructor
  · rintro ⟨d, hd, h⟩
    obtain ⟨passed, heq⟩ := check_bind_eq_ok.1 h
    obtain rfl := Except.ok.inj heq
    exact ⟨hd, (stands d).1 passed⟩
  · rintro ⟨hc, inside⟩
    exact ⟨c, hc, check_bind_eq_ok.2 ⟨(stands c).2 inside, rfl⟩⟩

theorem readable_eq_ok : f.readable = .ok c ↔ f.canvas = .ok c ∧ c.Inside :=
  checked_eq_ok fun _ => Canvas.checkRead_eq_ok

theorem writable_eq_ok : f.writable = .ok c ↔ f.canvas = .ok c ∧ c.Inside :=
  checked_eq_ok fun _ => Canvas.checkWrite_eq_ok

/-- A frame can be read exactly when it can be written, and through the same canvas. -/
theorem readable_iff_writable : f.readable = .ok c ↔ f.writable = .ok c :=
  readable_eq_ok.trans writable_eq_ok.symm

theorem picture_eq_ok : f.picture = .ok p ↔ ∃ c, f.readable = .ok c ∧ c.picture = p := by
  unfold picture
  rw [bind_eq_ok]
  refine exists_congr fun d => and_congr_right fun _ => ?_
  exact ⟨fun h => Except.ok.inj h, fun h => congrArg Except.ok h⟩

/-- What a frame shows is a matter of its planes and its metadata. -/
theorem picture_congr {a b : Frame} (planes : a.planes = b.planes)
    (metadata : a.metadata = b.metadata) : a.picture = b.picture := by
  obtain ⟨size, -, format⟩ := Metadata.mk.inj metadata
  unfold picture readable canvas expandedPlanes
  rw [planes, size, format]

/-- The grids of a canvas are those of the format. -/
theorem grids_canvas (h : f.canvas = .ok c) : c.components.grids = f.format.grids f.size := by
  obtain ⟨planes, -, -, rfl⟩ := canvas_eq_ok.1 h
  unfold Canvas.ofPlanes Format.grids
  cases f.format.channels with
  | some channels => rfl
  | none =>
    dsimp only
    split
    · split <;> rfl
    · split <;> rfl

theorem grids_picture (h : f.picture = .ok p) : p.grids = f.format.grids f.size := by
  obtain ⟨c, hc, rfl⟩ := picture_eq_ok.1 h
  rw [Canvas.grids_picture, grids_canvas (readable_eq_ok.1 hc).1]

/-- The frame with all samples replaced. -/
def painted (f : Frame) (c : Canvas) (p : Picture) : Frame :=
  f.withParts ((c.paint p).planes.map (·.bytes))

/-- Where the grids lie is a matter of strides. -/
theorem components_ofPlanes {planes planes' : List Plane} (size : Size) (format : Format)
    (strides : planes'.map (·.stride) = planes.map (·.stride)) :
    (Canvas.ofPlanes planes' size format).components =
      (Canvas.ofPlanes planes size format).components := by
  have length : planes'.length = planes.length := by
    have := congrArg List.length strides
    rwa [List.length_map, List.length_map] at this
  have stride (k : Nat) : (planes'.getD k default).stride = (planes.getD k default).stride := by
    have := congrArg (fun strides => strides[k]?) strides
    simp only [List.getElem?_map] at this
    rw [List.getD_eq_getElem?_getD, List.getD_eq_getElem?_getD]
    cases h1 : planes'[k]? <;> cases h2 : planes[k]? <;> simp_all
  simp only [Canvas.ofPlanes, Canvas.component, stride, length]

/-- A canvas with other bytes in its planes is the canvas of the frame with these bytes. -/
theorem canvas_withParts {planes : List Plane} (h : f.canvas = .ok c)
    (room : planes.map Plane.room = c.planes.map Plane.room) :
    (f.withParts (planes.map (·.bytes))).canvas = .ok { c with planes } := by
  obtain ⟨old, hexp, hempty, rfl⟩ := canvas_eq_ok.1 h
  refine canvas_eq_ok.2 ⟨planes, expandedPlanes_withParts hexp room, hempty, ?_⟩
  have strides : planes.map (·.stride) = old.map (·.stride) := Plane.strides_of_room room
  have components := components_ofPlanes f.size f.format strides
  show Canvas.mk planes (Canvas.ofPlanes old f.size f.format).components = _
  rw [← components]
  rfl

/-- Frames of the same metadata and room have their grids in the same places. -/
theorem writable_of_room {g : Frame} (metadata : g.metadata = f.metadata)
    (room : g.planes.map Plane.room = f.planes.map Plane.room) (h : f.writable = .ok c) :
    ∃ d, g.writable = .ok d ∧ d.components = c.components ∧
      d.planes.map Plane.room = c.planes.map Plane.room := by
  obtain ⟨hc, inside⟩ := writable_eq_ok.1 h
  obtain ⟨planes, expanded, sized, rfl⟩ := canvas_eq_ok.1 hc
  obtain ⟨planes', expanded', room'⟩ := expandedPlanes_of_room metadata room expanded
  obtain ⟨size, -, format⟩ := Metadata.mk.inj metadata
  have components := components_ofPlanes f.size f.format (Plane.strides_of_room room')
  refine ⟨.ofPlanes planes' f.size f.format, writable_eq_ok.2 ⟨?_, fun place member => ?_⟩,
    components, room'⟩
  · exact canvas_eq_ok.2 ⟨planes', expanded', by rwa [size, format], by rw [size, format]⟩
  · rw [components] at member
    exact (inside place member).of_room room'

/-- A painted frame has the painted canvas. -/
theorem readable_painted (h : f.writable = .ok c) (p : Picture) :
    (f.painted c p).readable = .ok (c.paint p) := by
  obtain ⟨hc, inside⟩ := writable_eq_ok.1 h
  exact readable_eq_ok.2 ⟨canvas_withParts hc (Canvas.room_paint inside p), inside.paint p⟩

/-- A painted frame shows what was painted. -/
theorem picture_painted (h : f.writable = .ok c) (apart : c.components.Apart)
    (grids : p.grids = f.format.grids f.size) :
    ∃ shown, (f.painted c p).picture = .ok shown ∧ shown.Agree p := by
  obtain ⟨hc, inside⟩ := writable_eq_ok.1 h
  refine ⟨(c.paint p).picture, picture_eq_ok.2 ⟨_, readable_painted h p, rfl⟩, ?_⟩
  exact Canvas.picture_paint inside apart (grids.trans (grids_canvas hc).symm)

theorem room_painted (h : f.writable = .ok c) (p : Picture) :
    (f.painted c p).planes.map Plane.room = f.planes.map Plane.room := by
  obtain ⟨hc, inside⟩ := writable_eq_ok.1 h
  obtain ⟨planes, hplanes, -, rfl⟩ := canvas_eq_ok.1 hc
  exact room_withParts hplanes (Canvas.room_paint inside p)

theorem painted_congr (h : f.writable = .ok c) (agree : p.Agree q)
    (grids : p.grids = f.format.grids f.size) : f.painted c p = f.painted c q := by
  obtain ⟨hc, -⟩ := writable_eq_ok.1 h
  rw [painted, painted, Canvas.paint_congr agree (grids.trans (grids_canvas hc).symm)]

/-- Putting back the planes of a canvas changes nothing. -/
theorem withParts_canvas (h : f.canvas = .ok c) : f.withParts (c.planes.map (·.bytes)) = f := by
  obtain ⟨planes, hexp, -, rfl⟩ := canvas_eq_ok.1 h
  exact withParts_expandedPlanes hexp

end Frame

end Raster
