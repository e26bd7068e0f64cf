import Mathlib.Data.Set.Function
import Mathlib.Order.Interval.Set.Basic
import Raster.Proofs.Frame.Gapless
import Raster.Proofs.Frame.Interleaved

/-!
# Canonical frames tile their buffer

A frame over one buffer puts its planes back to back, and each of its samples into one of them.
All roundings have to meet for that: the bytes of a frame, the offsets of its planes, the rows of
its chroma. They do: the channels of the samples are the bytes of the frame, one for one.

* `Site` — a channel of a sample of one of the grids.
* `Canvas.byteAt` — the byte of all planes together where a site lies.
* `Picture.valueAt` — the value at a site.

Results: `Picture.agree_of_valueAt` (pictures with equal values at all sites agree),
`Canvas.valueAt_picture` (a picture shows the bytes), `Frame.bijOn_of_exact` (the sites of a frame
without spare bytes are its bytes) and `Frame.ofBuffer_tiles` (so they are in every buffer that is
long enough).
-/

namespace Raster

/-! ## Pieces and where they start -/

/-- The bytes before a piece. -/
def startOf (pieces : List Bytes) (k : Nat) : Nat := (join (pieces.take k)).size

section

variable {pieces : List Bytes} {k k' i i' : Nat}

@[simp] theorem startOf_zero (pieces : List Bytes) : startOf pieces 0 = 0 := rfl

@[simp] theorem startOf_cons_succ (piece : Bytes) (rest : List Bytes) (k : Nat) :
    startOf (piece :: rest) (k + 1) = piece.size + startOf rest k := by
  rw [startOf, List.take_succ_cons, join_cons, Array.size_append, startOf]

/-- The bytes of a piece, found in all pieces together. -/
theorem getD_join (hi : i < (pieces.getD k #[]).size) :
    (join pieces).getD (startOf pieces k + i) 0 = (pieces.getD k #[]).getD i 0 := by
  induction pieces generalizing k with
  | nil => exact absurd hi (by simp)
  | cons piece rest ih =>
    cases k with
    | zero =>
      rw [startOf_zero, Nat.zero_add]
      exact StartsWith.getD ⟨join rest, rfl⟩ hi
    | succ k =>
      rw [startOf_cons_succ, join_cons, Nat.add_assoc, Array.getD_eq_getD_getElem?,
        Array.getElem?_append_right (by omega), Nat.add_sub_cancel_left,
        ← Array.getD_eq_getD_getElem?]
      exact ih hi

theorem startOf_add_lt (hi : i < (pieces.getD k #[]).size) :
    startOf pieces k + i < (join pieces).size := by
  induction pieces generalizing k with
  | nil => exact absurd hi (by simp)
  | cons piece rest ih =>
    rw [join_cons, Array.size_append]
    cases k with
    | zero =>
      have hi : i < piece.size := hi
      rw [startOf_zero]
      omega
    | succ k =>
      have later := ih hi
      rw [startOf_cons_succ]
      omega

/-- No byte belongs to two pieces. -/
theorem startOf_add_inj (hi : i < (pieces.getD k #[]).size) (hi' : i' < (pieces.getD k' #[]).size)
    (same : startOf pieces k + i = startOf pieces k' + i') : k = k' ∧ i = i' := by
  induction pieces generalizing k k' with
  | nil => exact absurd hi (by simp)
  | cons piece rest ih =>
    cases k with
    | zero =>
      have hi : i < piece.size := hi
      cases k' with
      | zero => simpa using same
      | succ k' =>
        rw [startOf_zero, startOf_cons_succ] at same
        omega
    | succ k =>
      cases k' with
      | zero =>
        have hi' : i' < piece.size := hi'
        rw [startOf_zero, startOf_cons_succ] at same
        omega
      | succ k' =>
        rw [startOf_cons_succ, startOf_cons_succ] at same
        obtain ⟨rfl, rfl⟩ := ih hi hi' (by omega)
        exact ⟨rfl, rfl⟩

/-- Every byte belongs to a piece. -/
theorem exists_startOf (hi : i < (join pieces).size) :
    ∃ k j, j < (pieces.getD k #[]).size ∧ startOf pieces k + j = i := by
  induction pieces generalizing i with
  | nil => exact absurd hi (by simp)
  | cons piece rest ih =>
    rw [join_cons, Array.size_append] at hi
    by_cases first : i < piece.size
    · exact ⟨0, i, first, by rw [startOf_zero, Nat.zero_add]⟩
    · obtain ⟨k, j, hj, start⟩ := ih (i := i - piece.size) (by omega)
      refine ⟨k + 1, j, hj, ?_⟩
      rw [startOf_cons_succ]
      omega

/-- Where pieces start is a matter of their lengths. -/
theorem startOf_of_sizes {pieces' : List Bytes}
    (sizes : pieces'.map Array.size = pieces.map Array.size) (k : Nat) :
    startOf pieces' k = startOf pieces k :=
  size_join_of_sizes (by rw [List.map_take, List.map_take, sizes])

/-- The pieces of a cut start where it cuts. -/
theorem startOf_of_cutFrom {bytes : Bytes} {start stop : Nat} {stops : List Nat}
    (h : cutFrom bytes start stops = .ok pieces) (increasing : (start :: stops).Pairwise (· ≤ ·))
    (hk : (start :: stops)[k]? = some stop) : start + startOf pieces k = stop := by
  induction stops generalizing start k pieces with
  | nil =>
    cases k with
    | zero => exact Option.some.inj hk
    | succ k => cases hk
  | cons next rest ih =>
    obtain ⟨fits, tail, htail, rfl⟩ := cutFrom_cons_of_ok h
    have ordered : start ≤ next := List.rel_of_pairwise_cons increasing (by simp)
    cases k with
    | zero => exact Option.some.inj hk
    | succ k =>
      have later := ih htail (List.pairwise_cons.1 increasing).2 hk
      rw [startOf_cons_succ, Array.size_extract]
      omega

end

/-! ## Sites -/

/-- A channel of a sample of one of the grids of a picture. -/
structure Site where
  grid : Nat
  x : Nat
  y : Nat
  channel : Nat
  deriving DecidableEq

/-- The extents of all grids: pixels, or luma, U and V. -/
def Grids.list : Grids → List Extent
  | packed pixels => [pixels]
  | yuv y u v => [y, u, v]

/-- The site lies in its grid. -/
def Grids.Holds (g : Grids) (s : Site) : Prop :=
  ∃ e, g.list[s.grid]? = some e ∧ s.x < e.width ∧ s.y < e.height ∧ s.channel < e.channels

/-- All sites of a picture. -/
def Grids.sites (g : Grids) : Set Site := { s | g.Holds s }

/-- The value at a site. -/
def Picture.valueAt (p : Picture) (s : Site) : UInt8 :=
  match p.list[s.grid]? with
  | some grid => grid.value s.x s.y s.channel
  | none => 0

/-- The byte of all planes together where a site lies. -/
def Canvas.byteAt (c : Canvas) (s : Site) : Nat :=
  match c.components.list[s.grid]? with
  | some place =>
    startOf (c.planes.map (·.bytes)) place.plane +
      (place.offset + place.shape.address s.x s.y s.channel)
  | none => 0

theorem Picture.list_grids (p : Picture) : p.grids.list = p.list.map (·.toExtent) := by
  cases p <;> rfl

theorem Components.list_grids (c : Components) : c.grids.list = c.list.map (·.extent) := by
  cases c <;> rfl

theorem Canvas.list_picture (c : Canvas) :
    c.picture.list = c.components.list.map (·.read c.planes) := by
  unfold picture
  cases c.components <;> rfl

/-- Pictures of the same grids with equal values at all sites agree. -/
theorem Picture.agree_of_valueAt {p q : Picture} (grids : p.grids = q.grids)
    (same : ∀ s ∈ p.grids.sites, p.valueAt s = q.valueAt s) : p.Agree q := by
  have grid (i : Nat) (a b : Samples) (ha : p.list[i]? = some a) (hb : q.list[i]? = some b)
      (extent : a.toExtent = b.toExtent) : a.Agree b := by
    refine ⟨extent, fun x y c hx hy hc => ?_⟩
    have held : (⟨i, x, y, c⟩ : Site) ∈ p.grids.sites := by
      refine ⟨a.toExtent, ?_, hx, hy, hc⟩
      rw [list_grids, List.getElem?_map, ha]
      rfl
    have value := same _ held
    simpa only [valueAt, ha, hb] using value
  cases p with
  | packed s =>
    obtain ⟨t, rfl, extent⟩ := Picture.eq_packed grids.symm
    exact .packed (grid 0 s t rfl rfl extent.symm)
  | yuv y u v =>
    obtain ⟨y', u', v', rfl, hy, hu, hv⟩ := Picture.eq_yuv grids.symm
    exact .yuv (grid 0 y y' rfl rfl hy.symm) (grid 1 u u' rfl rfl hu.symm)
      (grid 2 v v' rfl rfl hv.symm)

theorem Picture.Agree.list {p q : Picture} (h : p.Agree q) :
    List.Forall₂ Samples.Agree p.list q.list := by
  cases h with
  | packed pixels => exact .cons pixels .nil
  | yuv luma blue red => exact .cons luma (.cons blue (.cons red .nil))

/-- Pictures that agree have the same value at every site. -/
theorem Picture.Agree.valueAt {p q : Picture} {s : Site} (h : p.Agree q) (hs : s ∈ p.grids.sites) :
    p.valueAt s = q.valueAt s := by
  obtain ⟨e, he, hx, hy, hc⟩ := hs
  rw [list_grids, List.getElem?_map] at he
  obtain ⟨a, ha, rfl⟩ := Option.map_eq_some_iff.1 he
  obtain ⟨hi, rfl⟩ := List.getElem?_eq_some_iff.1 ha
  have hi' : s.grid < q.list.length := h.list.length_eq ▸ hi
  rw [Picture.valueAt, Picture.valueAt, ha, List.getElem?_eq_getElem hi']
  exact (h.list.get hi hi').value s.x s.y s.channel hx hy hc

namespace Canvas

variable {c c' : Canvas} {s t : Site}

/-- The buffers of all planes. -/
def pieces (c : Canvas) : List Bytes := c.planes.map (·.bytes)

theorem getD_pieces (c : Canvas) (place : Component) :
    c.pieces.getD place.plane #[] = place.bytes c.planes := by
  rw [pieces, Component.bytes, List.getD_eq_getElem?_getD, List.getD_eq_getElem?_getD,
    List.getElem?_map]
  cases c.planes[place.plane]? <;> rfl

theorem byteAt_eq {place : Component} (h : c.components.list[s.grid]? = some place) :
    c.byteAt s = startOf c.pieces place.plane + (place.byteOf s.x s.y s.channel).2 := by
  rw [byteAt, h]
  rfl

/-- The grid of a site, which lies inside of its plane with this site. -/
theorem exists_place (inside : c.Inside) (h : s ∈ c.components.grids.sites) :
    ∃ place, c.components.list[s.grid]? = some place ∧
      (s.x < place.extent.width ∧ s.y < place.extent.height ∧ s.channel < place.extent.channels) ∧
        (place.byteOf s.x s.y s.channel).2 < (c.pieces.getD place.plane #[]).size := by
  obtain ⟨e, he, held⟩ := h
  rw [Components.list_grids, List.getElem?_map] at he
  obtain ⟨place, hplace, rfl⟩ := Option.map_eq_some_iff.1 he
  refine ⟨place, hplace, held, ?_⟩
  have fits : place.Inside c.planes := inside place (List.mem_of_getElem? hplace)
  have small := Shape.address_lt fits held.1 held.2.1 held.2.2
  rw [getD_pieces, Component.byteOf]
  omega

/-- A picture shows at every site the byte that lies there. -/
theorem valueAt_picture (inside : c.Inside) (h : s ∈ c.components.grids.sites) :
    c.picture.valueAt s = (join c.pieces).getD (c.byteAt s) 0 := by
  obtain ⟨place, hplace, -, small⟩ := exists_place inside h
  rw [byteAt_eq hplace, getD_join small, getD_pieces, Picture.valueAt, list_picture,
    List.getElem?_map, hplace]
  rfl

theorem byteAt_lt (inside : c.Inside) (h : s ∈ c.components.grids.sites) :
    c.byteAt s < (join c.pieces).size := by
  obtain ⟨place, hplace, -, small⟩ := exists_place inside h
  rw [byteAt_eq hplace]
  exact startOf_add_lt small

/-- Grids that lie apart put no two sites into one byte. -/
theorem injOn_byteAt (inside : c.Inside) (apart : c.components.Apart) :
    Set.InjOn c.byteAt c.components.grids.sites := by
  intro s hs t ht same
  obtain ⟨place, hplace, ⟨hx, hy, hk⟩, small⟩ := exists_place inside hs
  obtain ⟨place', hplace', ⟨hx', hy', hk'⟩, small'⟩ := exists_place inside ht
  rw [byteAt_eq hplace, byteAt_eq hplace'] at same
  obtain ⟨plane, byte⟩ := startOf_add_inj small small' same
  obtain ⟨grid, x, y, channel⟩ := (Components.distinct_iff_apart inside).2 apart _ _ _ _ hplace
    hplace' _ _ _ _ _ _ hx hy hk hx' hy' hk' (Prod.ext plane byte)
  cases s
  cases t
  simp_all

end Canvas

/-! ## Canonical frames -/

theorem length_planeLayout {size : Size} {format : Format} {layout : List PlaneLayout}
    (h : planeLayout size format = .ok layout) : layout.length = format.canonicalPlaneCount := by
  have yuv (yuv : format.channels = none)
      (count : ∀ row, (yuvPlanes size format row).length = format.canonicalPlaneCount) :
      layout.length = format.canonicalPlaneCount := by
    rw [planeLayout, yuv] at h
    dsimp only at h
    split at h
    · obtain ⟨-, -, h⟩ := bind_eq_ok.1 h
      obtain rfl := Except.ok.inj h
      exact count size.width
    · cases h
  cases format with
  | rgba | rgb | gray =>
    obtain rfl := Except.ok.inj h
    rfl
  | nv12 | nv21 | yv12 | yv21 => exact yuv rfl fun _ => rfl
  | unknown => cases h

namespace Frame

variable {bytes bytes' : Bytes} {m : Metadata} {f g : Frame} {c d : Canvas} {s : Site}

theorem length_planes_ofBuffer (h : ofBuffer bytes m = .ok f) :
    f.planes.length = m.format.canonicalPlaneCount := by
  obtain ⟨layout, hlayout, hcut, proper⟩ := layout_of_ofBuffer h
  have strides := congrArg List.length (cutPlanes_of_ok proper.ne_nil hcut).2
  rw [List.length_map, List.length_map] at strides
  exact strides.trans (length_planeLayout hlayout)

/-- The canvas of a canonical frame: all of its planes, with every grid in bytes of its own. -/
theorem canvas_of_canonical (h : ofBuffer bytes m = .ok f) (hc : f.readable = .ok c) :
    c = .ofPlanes f.planes m.size m.format ∧ c.Inside ∧ c.components.Apart ∧
      c.components.grids = m.format.grids m.size := by
  have grids := grids_canvas (readable_eq_ok.1 hc).1
  obtain ⟨c', hc', apart⟩ := sound_ofBuffer h
  rw [← readable_iff_writable, hc] at hc'
  obtain rfl := Except.ok.inj hc'
  have canvas := hc.symm.trans (canvas_ofBuffer h)
  obtain rfl := metadata_ofBuffer h
  exact ⟨Except.ok.inj canvas, (readable_eq_ok.1 hc).2, apart, grids⟩

theorem join_pieces_ofBuffer (h : ofBuffer bytes m = .ok f) (hc : f.readable = .ok c) :
    join c.pieces = bytes := by
  obtain ⟨rfl, -⟩ := canvas_of_canonical h hc
  exact memory_ofBuffer h

/-- Where a plane starts is a matter of the metadata. -/
theorem startOf_ofBuffer (hf : ofBuffer bytes m = .ok f) (hg : ofBuffer bytes' m = .ok g) {k : Nat}
    (hk : k < f.planes.length) :
    startOf (f.planes.map (·.bytes)) k = startOf (g.planes.map (·.bytes)) k := by
  obtain ⟨layout, hlayout, hcut, hcut', proper⟩ := layouts_of_ofBuffer hf hg
  have count := (length_planes_ofBuffer hf).trans (length_planeLayout hlayout).symm
  have present : k < (0 :: layout.tail.map (·.offset)).length := by
    rw [List.length_cons, List.length_map, List.length_tail]
    omega
  have increasing : (0 :: layout.tail.map (·.offset)).Pairwise (· ≤ ·) := by
    simpa using proper.increasing
  have start := startOf_of_cutFrom (cutPlanes_of_ok proper.ne_nil hcut).1 increasing
    (List.getElem?_eq_getElem present)
  have start' := startOf_of_cutFrom (cutPlanes_of_ok proper.ne_nil hcut').1 increasing
    (List.getElem?_eq_getElem present)
  omega

/-- Where a site lies is a matter of the metadata. -/
theorem byteAt_ofBuffer (hf : ofBuffer bytes m = .ok f) (hg : ofBuffer bytes' m = .ok g)
    (hc : f.readable = .ok c) (hd : g.readable = .ok d)
    (h : s ∈ (m.format.grids m.size).sites) : c.byteAt s = d.byteAt s := by
  obtain ⟨hcanvas, inside, -, grids⟩ := canvas_of_canonical hf hc
  obtain ⟨hcanvas', -⟩ := canvas_of_canonical hg hd
  rw [← grids] at h
  obtain ⟨place, hplace, -, small⟩ := Canvas.exists_place inside h
  have components : d.components = c.components := by
    rw [hcanvas, hcanvas']
    exact components_ofPlanes m.size m.format (strides_of_ofBuffer hf hg)
  have present : place.plane < c.pieces.length := by
    by_contra absent
    rw [List.getD_eq_getElem?_getD, List.getElem?_eq_none (Nat.not_lt.1 absent)] at small
    exact absurd small (Nat.not_lt_zero _)
  rw [Canvas.byteAt_eq hplace, Canvas.byteAt_eq (components ▸ hplace)]
  subst hcanvas hcanvas'
  rw [Canvas.pieces, List.length_map] at present
  exact congrArg (· + _) (startOf_ofBuffer hf hg present)

theorem valueAt_ofBuffer (h : ofBuffer bytes m = .ok f) (hc : f.readable = .ok c)
    (hs : s ∈ (m.format.grids m.size).sites) :
    c.picture.valueAt s = bytes.getD (c.byteAt s) 0 := by
  obtain ⟨-, inside, -, grids⟩ := canvas_of_canonical h hc
  rw [Canvas.valueAt_picture inside (grids ▸ hs), join_pieces_ofBuffer h hc]

/-- Canonical frames that hold the same byte at every site show the same picture. -/
theorem picture_agree_of_bytes (hf : ofBuffer bytes m = .ok f) (hg : ofBuffer bytes' m = .ok g)
    (hc : f.readable = .ok c) (hd : g.readable = .ok d)
    (same : ∀ s ∈ (m.format.grids m.size).sites,
      bytes.getD (c.byteAt s) 0 = bytes'.getD (c.byteAt s) 0) : c.picture.Agree d.picture := by
  obtain ⟨-, -, -, grids⟩ := canvas_of_canonical hf hc
  obtain ⟨-, -, -, grids'⟩ := canvas_of_canonical hg hd
  have shown : c.picture.grids = m.format.grids m.size := c.grids_picture.trans grids
  refine Picture.agree_of_valueAt (shown.trans (d.grids_picture.trans grids').symm) fun s hs => ?_
  rw [shown] at hs
  rw [valueAt_ofBuffer hf hc hs, valueAt_ofBuffer hg hd hs, same s hs,
    byteAt_ofBuffer hf hg hc hd hs]

/-- Every byte of a buffer without spare bytes has a site: one without could change, and no
picture would. -/
theorem exists_site (h : ofBuffer bytes m = .ok f) (hc : f.readable = .ok c)
    (exact_size : bytes.size = byteSize m.size m.format) {i : Nat} (hi : i < bytes.size) :
    ∃ s ∈ (m.format.grids m.size).sites, c.byteAt s = i := by
  by_contra missed
  obtain ⟨nonempty, long, -⟩ := ofBuffer_eq_ok.1 h
  have size : (bytes.set i (bytes[i] + 1)).size = bytes.size := Array.size_set _
  obtain ⟨g, hg⟩ := ofBuffer_ok nonempty (known_of_ofBuffer h) (by rwa [size])
  have hd := canvas_ofBuffer hg
  have agree := picture_agree_of_bytes h hg hc hd fun s hs => by
    have elsewhere : i ≠ c.byteAt s := fun same => missed ⟨s, hs, same.symm⟩
    rw [Array.getD_eq_getD_getElem?, Array.getD_eq_getD_getElem?,
      Array.getElem?_set_ne hi elsewhere]
  have same := bytes_eq_of_agree h hg exact_size (size.trans exact_size)
    (picture_eq_ok.2 ⟨_, hc, rfl⟩) (picture_eq_ok.2 ⟨_, hd, rfl⟩) agree
  have changed := congrArg (·[i]?) same
  simp [hi] at changed

/-- The sites of a frame without spare bytes are its bytes. -/
theorem bijOn_of_exact (h : ofBuffer bytes m = .ok f) (hc : f.readable = .ok c)
    (exact_size : bytes.size = byteSize m.size m.format) :
    Set.BijOn c.byteAt (m.format.grids m.size).sites (Set.Iio (byteSize m.size m.format)) := by
  obtain ⟨-, inside, apart, grids⟩ := canvas_of_canonical h hc
  have memory := join_pieces_ofBuffer h hc
  refine ⟨fun s hs => ?_, grids ▸ Canvas.injOn_byteAt inside apart, fun i hi => ?_⟩
  · have small := Canvas.byteAt_lt inside (grids ▸ hs)
    rwa [memory, exact_size] at small
  · exact exists_site h hc exact_size (exact_size ▸ hi)

/-- The sites of any canonical frame are the first bytes of its buffer. -/
theorem bijOn_ofBuffer (h : ofBuffer bytes m = .ok f) (hc : f.readable = .ok c) :
    Set.BijOn c.byteAt (m.format.grids m.size).sites (Set.Iio (byteSize m.size m.format)) := by
  obtain ⟨nonempty, -⟩ := ofBuffer_eq_ok.1 h
  -- the same frame without spare bytes
  obtain ⟨fresh, hfresh⟩ := zeroed_ok nonempty (known_of_ofBuffer h)
  have blank := canvas_ofBuffer hfresh
  refine (bijOn_of_exact hfresh blank Array.size_replicate).congr fun s hs => ?_
  exact byteAt_ofBuffer hfresh h blank hc hs

/-- A buffer gives a frame of a known format and a size that is not empty exactly if it has the
bytes of such a frame. The planes of the frame make up the buffer, and the channels of its samples
lie in the first bytes of the buffer, one for one. -/
theorem ofBuffer_tiles (known : m.format ≠ .unknown) (nonempty : m.size.isEmpty = false)
    (bytes : Bytes) :
    ((∃ f, ofBuffer bytes m = .ok f) ↔ byteSize m.size m.format ≤ bytes.size) ∧
      ∀ f, ofBuffer bytes m = .ok f →
        f.planes.length = m.format.canonicalPlaneCount ∧ f.memory = bytes ∧
          ∃ c, f.readable = .ok c ∧ f.writable = .ok c ∧
            (∀ s ∈ (m.format.grids m.size).sites,
              c.picture.valueAt s = bytes.getD (c.byteAt s) 0) ∧
            Set.BijOn c.byteAt (m.format.grids m.size).sites
              (Set.Iio (byteSize m.size m.format)) := by
  refine ⟨⟨fun ⟨f, h⟩ => (ofBuffer_eq_ok.1 h).2.1, ofBuffer_ok nonempty known⟩, fun f h => ?_⟩
  have hc := canvas_ofBuffer h
  refine ⟨length_planes_ofBuffer h, memory_ofBuffer h, _, hc, readable_iff_writable.1 hc,
    fun s hs => valueAt_ofBuffer h hc hs, bijOn_ofBuffer h hc⟩

/-- A row of three pixels with two spare bytes after its chroma. -/
def nv12Tail : Frame :=
  ⟨[⟨#[1, 2, 3], ⟨3, 1⟩⟩, ⟨#[10, 20, 11, 21, 98, 99], ⟨4, 2⟩⟩], ⟨3, 1⟩, .nv12, .topLeft, none, rfl,
    by simp [Stride.hasZero]⟩

/-- The last V sample lies in the seventh byte, which is the last one of the frame. -/
theorem ofBuffer_tiles_row :
    let bytes : Bytes := #[1, 2, 3, 10, 20, 11, 21, 98, 99]
    ofBuffer bytes nv12Tail.metadata = .ok nv12Tail ∧ ∃ c, nv12Tail.writable = .ok c ∧
      Set.BijOn c.byteAt (Format.nv12.grids ⟨3, 1⟩).sites (Set.Iio 7) ∧
        c.byteAt ⟨2, 1, 0, 0⟩ = 6 ∧ c.picture.valueAt ⟨2, 1, 0, 0⟩ = 21 := by
  intro bytes
  have canonical : ofBuffer bytes nv12Tail.metadata = .ok nv12Tail := rfl
  obtain ⟨-, tiles⟩ := @ofBuffer_tiles nv12Tail.metadata (by decide) (by decide) bytes
  obtain ⟨-, -, c, hc, hc', values, bijective⟩ := tiles _ canonical
  have place : c.byteAt ⟨2, 1, 0, 0⟩ = 6 := by
    obtain rfl := Except.ok.inj ((canvas_ofBuffer canonical).symm.trans hc)
    rfl
  refine ⟨canonical, c, hc', bijective, place, ?_⟩
  rw [values _ ⟨_, rfl, by decide⟩, place]
  rfl

end Frame

end Raster
