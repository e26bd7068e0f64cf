import Mathlib.Data.List.GetD
import Raster.Proofs.Engine.Padding
import Raster.Proofs.Engine.Storage
import Raster.Proofs.Frame.Tiling

/-!
# The footprint of a request

Kernels get rows of raw bytes: with padding between samples and between rows, with the other
chroma grid, and with all bytes after the last row. They write the bytes of samples, all of them
and no other. So a request keeps every byte outside of the samples of its output, and what it
leaves in the others is a matter of its input alone, even where two grids share bytes.

* `Component.Covers` — a byte of a plane belongs to a sample of a grid.
* `Canvas.footprint` — the bytes of all planes together that belong to samples.
* `Request.FillsOutput` — requests that do not end in a proportional crop of their output.

Results: `Canvas.getD_paint_of_not_mem` and `Canvas.getD_paint_of_mem` (what painting keeps and
what it decides), `Request.serve_paints` (every such request paints its whole output) and
`Request.serve_footprint` (so it changes the footprint of the output, and decides all of it).
-/

namespace Raster

/-! ## Bytes of planes -/

/-- The byte of a plane belongs to a sample of the grid. -/
def Component.Covers (c : Component) (plane i : Nat) : Prop :=
  ∃ x y channel, x < c.extent.width ∧ y < c.extent.height ∧ channel < c.extent.channels ∧
    c.byteOf x y channel = (plane, i)

section

variable {place : Component} {grids : List (Component × Samples)} {planes planes' : List Plane}
  {k i : Nat}

/-- A byte of a sample gets the value of that sample. -/
theorem Component.getD_paint_of_covers (covers : place.Covers k i) (s : Samples) :
    ∃ value, ∀ planes, place.Inside planes →
      ((place.paint s planes).getD k default).bytes.getD i 0 = value := by
  obtain ⟨x, y, channel, hx, hy, hc, same⟩ := covers
  obtain ⟨rfl, rfl⟩ := Prod.mk.inj same
  refine ⟨s.value x y channel, fun planes inside => ?_⟩
  show (place.bytes (place.paint s planes)).getD _ 0 = _
  rw [bytes_paint inside]
  exact Shape.getD_paintFrom_address inside s.value hx hy hc

/-- A byte that some grid covers ends alike, whatever it was before. -/
theorem getD_paintGrids_congr (room : planes'.map Plane.room = planes.map Plane.room)
    (inside : ∀ grid ∈ grids, grid.1.Inside planes)
    (h : (planes'.getD k default).bytes.getD i 0 = (planes.getD k default).bytes.getD i 0 ∨
      ∃ grid ∈ grids, grid.1.Covers k i) :
    ((paintGrids planes' grids).getD k default).bytes.getD i 0 =
      ((paintGrids planes grids).getD k default).bytes.getD i 0 := by
  induction grids generalizing planes planes' with
  | nil =>
    rcases h with same | ⟨grid, none, -⟩
    · exact same
    · cases none
  | cons grid rest ih =>
    have first := inside grid (by simp)
    have first' := first.of_room room
    have kept := Component.room_paint first grid.2
    rw [paintGrids_cons, paintGrids_cons]
    refine ih ?_ (fun other later => (inside other (by simp [later])).of_room kept) ?_
    · rw [Component.room_paint first', room, kept]
    · by_cases covers : grid.1.Covers k i
      · obtain ⟨value, painted⟩ := Component.getD_paint_of_covers covers grid.2
        exact .inl ((painted planes' first').trans (painted planes first).symm)
      · have apart : grid.1.plane = k → ∀ x y channel, x < grid.1.extent.width →
            y < grid.1.extent.height → channel < grid.1.extent.channels →
              grid.1.offset + grid.1.shape.address x y channel ≠ i :=
          fun plane x y channel hx hy hc byte =>
            covers ⟨x, y, channel, hx, hy, hc, Prod.ext plane byte⟩
        rw [Component.getD_paint_of_ne first' grid.2 apart,
          Component.getD_paint_of_ne first grid.2 apart]
        refine h.imp id fun ⟨other, member, covered⟩ => ⟨other, ?_, covered⟩
        rcases List.mem_cons.1 member with rfl | later
        · exact absurd covered covers
        · exact later

end

/-! ## Footprints -/

namespace Canvas

/-- The bytes of all planes together that belong to samples. -/
def footprint (c : Canvas) : Set Nat := c.byteAt '' c.components.grids.sites

variable {c d : Canvas} {p : Picture} {i k j : Nat}

/-- A byte of a plane is in the footprint if a grid covers it. -/
theorem mem_footprint (inside : c.Inside) (hj : j < (c.pieces.getD k #[]).size) :
    startOf c.pieces k + j ∈ c.footprint ↔ ∃ place ∈ c.components.list, place.Covers k j := by
  constructor
  · rintro ⟨s, hs, at_i⟩
    obtain ⟨place, hplace, ⟨hx, hy, hc⟩, small⟩ := exists_place inside hs
    rw [byteAt_eq hplace] at at_i
    obtain ⟨plane, byte⟩ := startOf_add_inj small hj at_i
    exact ⟨place, List.mem_of_getElem? hplace, s.x, s.y, s.channel, hx, hy, hc, Prod.ext plane byte⟩
  · rintro ⟨place, member, x, y, channel, hx, hy, hc, same⟩
    obtain ⟨n, hplace⟩ := List.getElem?_of_mem member
    obtain ⟨rfl, rfl⟩ := Prod.mk.inj same
    refine ⟨⟨n, x, y, channel⟩, ⟨place.extent, ?_, hx, hy, hc⟩, byteAt_eq hplace⟩
    rw [Components.list_grids, List.getElem?_map, hplace]
    rfl

/-- The bytes of canvases of the same room are numbered alike. -/
theorem startOf_pieces (room : d.planes.map Plane.room = c.planes.map Plane.room) (k : Nat) :
    startOf d.pieces k = startOf c.pieces k :=
  startOf_of_sizes (Plane.sizes_of_room room) k

theorem size_getD_pieces (room : d.planes.map Plane.room = c.planes.map Plane.room) (k : Nat) :
    (d.pieces.getD k #[]).size = (c.pieces.getD k #[]).size := by
  have sizes := congrArg (fun sizes => sizes.getD k (#[] : Bytes).size) (Plane.sizes_of_room room)
  rwa [List.getD_map, List.getD_map] at sizes

/-- A byte of all planes together is a byte of one of them. -/
theorem exists_byte (hi : i < (join c.pieces).size) :
    ∃ k j, j < (c.pieces.getD k #[]).size ∧ startOf c.pieces k + j = i ∧
      ∀ d : Canvas, d.planes.map Plane.room = c.planes.map Plane.room →
        (join d.pieces).getD i 0 = (d.planes.getD k default).bytes.getD j 0 := by
  obtain ⟨k, j, hj, rfl⟩ := exists_startOf hi
  refine ⟨k, j, hj, rfl, fun d room => ?_⟩
  rw [← startOf_pieces room, getD_join (by rwa [size_getD_pieces room]), pieces,
    show (#[] : Bytes) = (default : Plane).bytes from rfl, List.getD_map]

theorem size_join_pieces (room : d.planes.map Plane.room = c.planes.map Plane.room) :
    (join d.pieces).size = (join c.pieces).size :=
  size_join_of_sizes (Plane.sizes_of_room room)

/-- Painting keeps every byte outside of the footprint. -/
theorem getD_paint_of_not_mem (inside : c.Inside) (p : Picture) (free : i ∉ c.footprint) :
    (join (c.paint p).pieces).getD i 0 = (join c.pieces).getD i 0 := by
  have room := room_paint inside p
  by_cases hi : i < (join c.pieces).size
  · obtain ⟨k, j, hj, rfl, byte⟩ := exists_byte hi
    rw [byte _ room, byte _ rfl]
    rw [mem_footprint inside hj] at free
    refine getD_paintGrids_of_ne (inside.zip p) fun grid member plane x y channel hx hy hc same => ?_
    exact free ⟨grid.1, (List.of_mem_zip (a := grid.1) (b := grid.2) member).1, x, y, channel,
      hx, hy, hc, Prod.ext plane same⟩
  · have hi' : ¬i < (join (c.paint p).pieces).size := by rwa [size_join_pieces room]
    simp [Array.getD, hi, hi']

/-- Painting decides every byte in the footprint. -/
theorem getD_paint_of_mem (inside : c.Inside) (components : d.components = c.components)
    (room : d.planes.map Plane.room = c.planes.map Plane.room)
    (grids : p.grids = c.components.grids) (written : i ∈ c.footprint) :
    (join (d.paint p).pieces).getD i 0 = (join (c.paint p).pieces).getD i 0 := by
  have inside' : d.Inside := fun place member =>
    (inside place (components ▸ member)).of_room room
  have hi : i < (join c.pieces).size := by
    obtain ⟨s, hs, rfl⟩ := written
    exact byteAt_lt inside hs
  obtain ⟨k, j, hj, rfl, byte⟩ := exists_byte hi
  rw [byte _ ((room_paint inside' p).trans room), byte _ (room_paint inside p)]
  obtain ⟨place, member, covers⟩ := (mem_footprint inside hj).1 written
  simp only [paint, components]
  refine getD_paintGrids_congr room (inside.zip p) (.inr ?_)
  have length : c.components.list.length ≤ p.list.length := by
    have lists := congrArg (fun g : Grids => g.list.length) grids
    simp only [Picture.list_grids, Components.list_grids, List.length_map] at lists
    exact Nat.le_of_eq lists.symm
  rw [← List.map_fst_zip length] at member
  obtain ⟨grid, hgrid, rfl⟩ := List.mem_map.1 member
  exact ⟨grid, hgrid, covers⟩

end Canvas

/-! ## Frames -/

namespace Frame

variable {f g : Frame} {c d : Canvas} {p : Picture} {i : Nat}

theorem memory_of_canvas (h : f.canvas = .ok c) : f.memory = join c.pieces := by
  obtain ⟨planes, expanded, -, rfl⟩ := canvas_eq_ok.1 h
  exact memory_of_expandedPlanes expanded

theorem memory_painted (h : f.writable = .ok c) (p : Picture) :
    (f.painted c p).memory = join (c.paint p).pieces :=
  memory_of_canvas (readable_eq_ok.1 (readable_painted h p)).1

end Frame

/-! ## Requests -/

/-- The request does not end in a proportional crop into its output. -/
def Request.FillsOutput : Request → Prop
  | call _ | orient => True
  | perform op => ∀ crop size, op ≠ .uniformCropResize crop size
  | execute operations =>
    ∀ crop size, operations.getLast? ≠ some (.uniformCropResize crop size)
  | preprocess _ uniform => uniform = false

namespace Engine

theorem execute_paints_of_last {operations : List Operation}
    (whole : ∀ crop size, operations.getLast? ≠ some (.uniformCropResize crop size)) :
    Transform.Paints (software.execute operations) := by
  rcases List.eq_nil_or_concat' operations with rfl | ⟨first, last, rfl⟩
  · exact fun input => .failed _
  · refine execute_paints fun crop size same => whole crop size ?_
    rw [same, List.getLast?_concat]

theorem preprocess_paints (roi : Option Box) :
    Transform.Paints (software.preprocess roi false) := by
  refine fun input => .of_metadata fun m => ?_
  have whole (crop : Box) (size : Size) :
      (input.metadata.planTo m roi false).getLast? ≠ some (.uniformCropResize crop size) :=
    fun last => Metadata.not_mem_planTo _ _ _ _ _ (List.mem_of_getLast? last)
  by_cases empty : (input.metadata.planTo m roi false).isEmpty
  · refine ⟨_, (Primitive.move .resize).run_paints input, fun output same => ?_⟩
    subst same
    exact if_pos empty
  · refine ⟨_, execute_paints_of_last whole input, fun output same => ?_⟩
    subst same
    exact if_neg empty

end Engine

/-- Requests that do not end in a proportional crop into their output paint all of it. -/
theorem Request.serve_paints {r : Request} (fills : r.FillsOutput) :
    Transform.Paints (r.serve Engine.software) := by
  cases r with
  | call p => exact p.run_paints
  | orient => exact Engine.orient_paints
  | perform op => exact Engine.perform_paints op fills
  | execute operations => exact Engine.execute_paints_of_last fills
  | preprocess roi uniform =>
    obtain rfl : uniform = false := fills
    exact Engine.preprocess_paints roi

/-- A request that succeeds keeps every byte that belongs to no sample of its output. All other
bytes end with values that do not depend on what the output held: on any output of the same
metadata, strides and lengths, they end alike. -/
theorem Request.serve_footprint {r : Request} {input output : Frame} (fills : r.FillsOutput)
    (done : (r.serve Engine.software input output : Outcome).status = .ok ()) :
    ∃ c, output.writable = .ok c ∧
      let after : Frame := (r.serve Engine.software input output : Outcome).frame
      after.metadata = output.metadata ∧
        after.planes.map Plane.room = output.planes.map Plane.room ∧
          (∀ i ∉ c.footprint, after.memory.getD i 0 = output.memory.getD i 0) ∧
            ∀ other : Frame, other.metadata = output.metadata →
              other.planes.map Plane.room = output.planes.map Plane.room →
                let r' : Outcome := r.serve Engine.software input other
                r'.status = .ok () ∧
                  ∀ i ∈ c.footprint, r'.frame.memory.getD i 0 = after.memory.getD i 0 := by
  obtain ⟨image, ⟨grids, c, writable, run⟩, others⟩ :=
    (r.serve_paints fills input).exists_image done
  obtain ⟨canvas, inside⟩ := Frame.writable_eq_ok.1 writable
  refine ⟨c, writable, ?_⟩
  rw [run]
  refine ⟨rfl, Frame.room_painted writable image, fun i free => ?_, fun other same room => ?_⟩
  · rw [Frame.memory_painted writable, Frame.memory_of_canvas canvas]
    exact Canvas.getD_paint_of_not_mem inside image free
  · obtain ⟨d, writable', components, room'⟩ := Frame.writable_of_room same room writable
    obtain ⟨-, d', resolved, run'⟩ := others other d same writable'
    obtain rfl := Except.ok.inj (writable'.symm.trans resolved)
    rw [run']
    refine ⟨rfl, fun i written => ?_⟩
    rw [Frame.memory_painted writable', Frame.memory_painted writable]
    exact Canvas.getD_paint_of_mem inside components room'
      (grids.trans (Frame.grids_canvas canvas).symm) written

/-- A row mirrored into a single plane: the spare bytes after luma and after chroma stay, and all
others are the samples of the row. -/
theorem Request.serve_footprint_strip :
    let mirror : Request := .call (.move (.flip .horizontal))
    let r (spare : UInt8) : Outcome := mirror.serve Engine.software .nv12Row (.nv12Strip spare)
    (r 99).frame.memory = #[3, 2, 1, 99, 99, 11, 21, 10, 20, 99] ∧
      ∃ c, (Frame.nv12Strip 99).writable = .ok c ∧
        (∀ i ∉ c.footprint, (r 99).frame.memory.getD i 0 = (Frame.nv12Strip 99).memory.getD i 0) ∧
          5 ∈ c.footprint ∧ (r 98).frame.memory.getD 5 0 = (r 99).frame.memory.getD 5 0 := by
  intro mirror r
  have done : (r 99).status = .ok () := by decide +kernel
  obtain ⟨c, writable, -, -, keeps, decides⟩ :=
    @Request.serve_footprint mirror .nv12Row (.nv12Strip 99) trivial done
  have chroma : 5 ∈ c.footprint := by
    obtain rfl := Except.ok.inj (show Except.ok _ = Except.ok c from writable)
    exact ⟨⟨1, 0, 0, 0⟩, ⟨_, rfl, by decide⟩, rfl⟩
  obtain ⟨-, same⟩ := decides (.nv12Strip 98) rfl rfl
  exact ⟨by decide +kernel, c, writable, keeps, chroma, same 5 chroma⟩

end Raster
