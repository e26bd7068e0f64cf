import Raster.Frame.Create
import Raster.Proofs.Frame.Canvas

/-!
# Canonical frames

A frame over one buffer in the canonical layout of its format.

* `Frame.Sound` — all samples of a frame lie in its planes, each in bytes of its own.
* `PlaneLayout.Proper` — what the layout of a frame has to be like.

Results: `Frame.ofBuffer_ok` (a buffer that is long enough always gives a frame),
`Frame.ofBuffer_error` (whether it does is not a matter of its bytes), `Frame.sound_ofBuffer`,
`Frame.ofBuffer_memory` (the memory of a canonical frame gives that frame back) and
`Frame.picture_ofBuffer_append` (the bytes after a frame are not part of its picture).
-/

namespace Raster

/-! ## Cuts that succeed -/

theorem cutFrom_ok {bytes : Bytes} {start : Nat} {stops : List Nat}
    (h : ∀ stop ∈ stops, stop ≤ bytes.size) : ∃ pieces, cutFrom bytes start stops = .ok pieces := by
  induction stops generalizing start with
  | nil => exact ⟨_, rfl⟩
  | cons stop rest ih =>
    have later : ∀ other ∈ rest, other ≤ bytes.size := fun other hother => h other (by simp [hother])
    obtain ⟨pieces, hpieces⟩ : ∃ pieces, cutFrom bytes stop rest = .ok pieces := ih later
    have hstop : stop ≤ bytes.size := h stop (by simp)
    refine ⟨bytes.extract start stop :: pieces, ?_⟩
    rw [cutFrom, if_neg (by omega), hpieces]
    rfl

/-- A layout whose planes make a frame of the format, in a buffer of so many bytes. -/
structure PlaneLayout.Proper (layout : List PlaneLayout) (format : Format) (length : Nat) : Prop where
  count : format.acceptsPlaneCount layout.length = true
  strides : ∀ place ∈ layout, place.stride.hasZero = false
  increasing : (layout.tail.map (·.offset)).Pairwise (· ≤ ·)
  fits : ∀ place ∈ layout.tail, place.offset ≤ length

theorem PlaneLayout.Proper.ne_nil {layout : List PlaneLayout} {format : Format} {length : Nat}
    (h : PlaneLayout.Proper layout format length) : layout ≠ [] := by
  rintro rfl
  have count := h.count
  revert count
  cases format <;> decide

theorem yuvLayout_eq {size : Size} {format : Format} (nonempty : size.isEmpty = false)
    (yuv : format.isYuv = true) (row : Nat) :
    yuvLayout size format row = .ok (yuvPlanes size format row) := by
  rw [yuvLayout, chromaSize, if_neg (by simp [nonempty]), if_pos yuv]
  rfl

theorem planeLayout_yuv {size : Size} {format : Format} (nonempty : size.isEmpty = false)
    (yuv : format.isYuv = true) :
    planeLayout size format = .ok (yuvPlanes size format size.width) := by
  have channels : format.channels = none := by
    cases format <;> first | rfl | exact absurd yuv (by decide)
  rw [planeLayout, channels]
  show (if format.isYuv = true then yuvLayout size format size.width else _) = _
  rw [if_pos yuv, yuvLayout_eq nonempty yuv]

/-- Every known format has a proper layout for frames that are not empty. -/
theorem planeLayout_proper {size : Size} {format : Format} (nonempty : size.isEmpty = false)
    (known : format ≠ .unknown) : ∃ layout, planeLayout size format = .ok layout ∧
      PlaneLayout.Proper layout format (byteSize size format) := by
  obtain ⟨width, height⟩ := Size.isEmpty_eq_false.1 nonempty
  cases hc : format.channels with
  | some n =>
    have packed : planeLayout size format = .ok [⟨0, .packed size.width n⟩] := by
      rw [planeLayout, hc]
    have positive := Format.channels_pos hc
    refine ⟨_, packed, ⟨Format.acceptsPlaneCount_one known, ?_, by simp, by simp⟩⟩
    intro place hplace
    rw [List.mem_singleton.1 hplace, Stride.hasZero_eq_false]
    exact ⟨Nat.mul_pos width positive, positive⟩
  | none =>
    have yuv := (Format.channels_eq_none_iff known).1 hc
    refine ⟨_, planeLayout_yuv nonempty yuv, ⟨Frame.yuvPlanes_accepted yuv _ _,
      Frame.yuvPlanes_strides_positive width, yuvPlanes_increasing _ _ _, ?_⟩⟩
    have size_eq : byteSize size format =
        size.width * size.height + 2 * size.halved.width * size.halved.height := by
      cases format <;> first | rfl | exact absurd yuv (by decide)
    intro place hplace
    rw [size_eq]
    unfold yuvPlanes at hplace
    split at hplace
    · simp only [List.tail_cons, List.mem_singleton] at hplace
      rw [hplace]
      exact Nat.le_add_right _ _
    · simp only [List.tail_cons, List.mem_cons, List.not_mem_nil, or_false] at hplace
      rcases hplace with rfl | rfl
      · exact Nat.le_add_right _ _
      · show size.width * size.height + size.halved.width * size.halved.height ≤ _
        rw [Nat.mul_assoc 2]
        omega

theorem planeLayout_proper_of_ok {size : Size} {format : Format} {layout : List PlaneLayout}
    (nonempty : size.isEmpty = false) (known : format ≠ .unknown)
    (h : planeLayout size format = .ok layout) :
    PlaneLayout.Proper layout format (byteSize size format) := by
  obtain ⟨layout', hlayout, proper⟩ := planeLayout_proper nonempty known
  rw [hlayout] at h
  obtain rfl := Except.ok.inj h
  exact proper

/-! ## Frames over a buffer -/

namespace Frame

variable {bytes bytes' : Bytes} {m : Metadata} {f g : Frame}

theorem ofPlanes_ok {planes : List Plane} {format : Format} (size : Size) (orientation : Orientation)
    (count : format.acceptsPlaneCount planes.length = true)
    (strides : ∀ plane ∈ planes, plane.stride.hasZero = false) :
    ∃ f, ofPlanes planes size format orientation = .ok f := by
  unfold ofPlanes
  rw [if_neg (Format.ne_unknown_of_acceptsPlaneCount count), dif_pos count]
  split
  · next plane found =>
    have zero := List.find?_some found
    rw [strides plane (List.mem_of_find?_eq_some found)] at zero
    cases zero
  · exact ⟨_, rfl⟩

/-- A frame is made of its planes. -/
theorem ofPlanes_planes (f : Frame) :
    ofPlanes f.planes f.size f.format f.orientation = .ok (f.stamped none) := by
  obtain ⟨g, hg⟩ := ofPlanes_ok f.size f.orientation f.accepts_count f.strides_positive
  obtain ⟨planes, metadata, timestamp⟩ := planes_of_ofPlanes hg
  rw [hg]
  cases f
  cases g
  simp only [Frame.metadata, Metadata.mk.injEq] at planes metadata timestamp
  simp [stamped, planes, metadata, timestamp]

theorem ofBuffer_eq_ok : ofBuffer bytes m = .ok f ↔
    m.size.isEmpty = false ∧ byteSize m.size m.format ≤ bytes.size ∧
      (∃ layout, planeLayout m.size m.format = .ok layout ∧ cutPlanes bytes layout = .ok f.planes) ∧
        f.metadata = m ∧ f.timestamp = none := by
  constructor
  · intro h
    obtain ⟨nonempty, h⟩ := ite_error_eq_ok.1 h
    obtain ⟨planes, hplanes, hframe⟩ := bind_eq_ok.1 h
    obtain ⟨planes_eq, metadata, timestamp⟩ := planes_of_ofPlanes hframe
    obtain ⟨long, hplanes⟩ := ite_error_eq_ok.1 hplanes
    obtain ⟨layout, hlayout, hcut⟩ := bind_eq_ok.1 hplanes
    rw [← planes_eq] at hcut
    exact ⟨by simpa using nonempty, by omega, ⟨layout, hlayout, hcut⟩, metadata, timestamp⟩
  · rintro ⟨nonempty, long, ⟨layout, hlayout, hcut⟩, rfl, timestamp⟩
    have split : splitPlanes bytes f.metadata.size f.metadata.format = .ok f.planes :=
      ite_error_eq_ok.2 ⟨by omega, bind_eq_ok.2 ⟨layout, hlayout, hcut⟩⟩
    refine ite_error_eq_ok.2 ⟨by simp [nonempty], bind_eq_ok.2 ⟨f.planes, split, ?_⟩⟩
    show ofPlanes f.planes f.size f.format f.orientation = .ok f
    rw [ofPlanes_planes]
    cases f
    simp only at timestamp
    simp [stamped, timestamp]

/-- A buffer that is long enough gives a frame of every size and format. -/
theorem ofBuffer_ok (nonempty : m.size.isEmpty = false) (known : m.format ≠ .unknown)
    (long : byteSize m.size m.format ≤ bytes.size) : ∃ f, ofBuffer bytes m = .ok f := by
  obtain ⟨layout, hlayout, proper⟩ := planeLayout_proper nonempty known
  obtain ⟨pieces, hpieces⟩ : ∃ pieces, cut bytes layout = .ok pieces := by
    refine cutFrom_ok fun stop hstop => ?_
    obtain ⟨place, hplace, rfl⟩ := List.mem_map.1 hstop
    exact Nat.le_trans (proper.fits place hplace) long
  obtain ⟨planes, hcut⟩ : ∃ planes, cutPlanes bytes layout = .ok planes := by
    rw [cutPlanes, hpieces]
    exact ⟨_, rfl⟩
  obtain ⟨-, strides⟩ := cutPlanes_of_ok proper.ne_nil hcut
  have count : m.format.acceptsPlaneCount planes.length = true := by
    have length := congrArg List.length strides
    rw [List.length_map, List.length_map] at length
    rw [length]
    exact proper.count
  have positive : ∀ plane ∈ planes, plane.stride.hasZero = false := by
    intro plane hplane
    have hstride : plane.stride ∈ planes.map (·.stride) := List.mem_map_of_mem hplane
    rw [strides] at hstride
    obtain ⟨place, hplace, heq⟩ := List.mem_map.1 hstride
    rw [← heq]
    exact proper.strides place hplace
  obtain ⟨f, hf⟩ := ofPlanes_ok m.size m.orientation count positive
  obtain ⟨rfl, metadata, timestamp⟩ := planes_of_ofPlanes hf
  exact ⟨f, ofBuffer_eq_ok.2 ⟨nonempty, long, ⟨layout, hlayout, hcut⟩, metadata, timestamp⟩⟩

/-- Every size that is not empty has a frame in every known format. -/
theorem zeroed_ok (nonempty : m.size.isEmpty = false) (known : m.format ≠ .unknown) :
    ∃ fresh, zeroed m = .ok fresh :=
  ofBuffer_ok nonempty known (Nat.le_of_eq Array.size_replicate.symm)

/-- Whether a buffer that is long enough gives a frame is a matter of size and format. -/
theorem ofBuffer_error {e : Error} (long : byteSize m.size m.format ≤ bytes.size)
    (long' : byteSize m.size m.format ≤ bytes'.size) (h : ofBuffer bytes m = .error e) :
    ofBuffer bytes' m = .error e := by
  by_cases nonempty : m.size.isEmpty = true
  · rw [ofBuffer, if_pos nonempty] at h ⊢
    exact h
  · by_cases unknown : m.format = .unknown
    · rw [ofBuffer, if_neg nonempty, splitPlanes, if_neg (by omega), unknown] at h ⊢
      exact h
    · obtain ⟨f, hf⟩ := ofBuffer_ok (by simpa using nonempty) unknown long
      rw [hf] at h
      cases h

theorem metadata_ofBuffer (h : ofBuffer bytes m = .ok f) : f.metadata = m := by
  obtain ⟨-, -, -, metadata, -⟩ := ofBuffer_eq_ok.1 h
  exact metadata

theorem known_of_ofBuffer (h : ofBuffer bytes m = .ok f) : m.format ≠ .unknown := by
  obtain rfl := metadata_ofBuffer h
  exact f.format_ne_unknown

/-- The layout by which a buffer was cut into the planes of a frame. -/
theorem layout_of_ofBuffer (h : ofBuffer bytes m = .ok f) :
    ∃ layout, planeLayout m.size m.format = .ok layout ∧ cutPlanes bytes layout = .ok f.planes ∧
      PlaneLayout.Proper layout m.format (byteSize m.size m.format) := by
  obtain ⟨nonempty, -, ⟨layout, hlayout, hcut⟩, -, -⟩ := ofBuffer_eq_ok.1 h
  exact ⟨layout, hlayout, hcut, planeLayout_proper_of_ok nonempty (known_of_ofBuffer h) hlayout⟩

/-- Two buffers are cut into the planes of frames of the same metadata by one layout. -/
theorem layouts_of_ofBuffer (hf : ofBuffer bytes m = .ok f) (hg : ofBuffer bytes' m = .ok g) :
    ∃ layout, planeLayout m.size m.format = .ok layout ∧ cutPlanes bytes layout = .ok f.planes ∧
      cutPlanes bytes' layout = .ok g.planes ∧
        PlaneLayout.Proper layout m.format (byteSize m.size m.format) := by
  obtain ⟨layout, hlayout, hcut, proper⟩ := layout_of_ofBuffer hf
  obtain ⟨layout', hlayout', hcut', -⟩ := layout_of_ofBuffer hg
  rw [hlayout] at hlayout'
  obtain rfl := Except.ok.inj hlayout'
  exact ⟨layout, hlayout, hcut, hcut', proper⟩

/-- Frames of the same metadata over a buffer have the same strides. -/
theorem strides_of_ofBuffer (hf : ofBuffer bytes m = .ok f) (hg : ofBuffer bytes' m = .ok g) :
    g.planes.map (·.stride) = f.planes.map (·.stride) := by
  obtain ⟨layout, -, hcut, hcut', proper⟩ := layouts_of_ofBuffer hf hg
  exact (cutPlanes_of_ok proper.ne_nil hcut').2.trans (cutPlanes_of_ok proper.ne_nil hcut).2.symm

/-- The planes of a frame over a buffer make up the buffer. -/
theorem memory_ofBuffer (h : ofBuffer bytes m = .ok f) : f.memory = bytes := by
  obtain ⟨layout, -, hcut, proper⟩ := layout_of_ofBuffer h
  exact join_of_cut proper.increasing (cutPlanes_of_ok proper.ne_nil hcut).1

/-- The memory of a canonical frame, whatever was written into it, gives that frame. -/
theorem ofBuffer_memory (h : ofBuffer bytes m = .ok f) (metadata : g.metadata = m)
    (room : g.planes.map Plane.room = f.planes.map Plane.room) :
    ofBuffer g.memory m = .ok (g.stamped none) := by
  obtain ⟨nonempty, long, -, -, -⟩ := ofBuffer_eq_ok.1 h
  obtain ⟨layout, hlayout, hcut, proper⟩ := layout_of_ofBuffer h
  have size : g.memory.size = bytes.size := by
    rw [← memory_ofBuffer h]
    exact size_join_of_sizes (Plane.sizes_of_room room)
  exact ofBuffer_eq_ok.2 ⟨nonempty, by omega,
    ⟨layout, hlayout, cutPlanes_join proper.ne_nil proper.increasing hcut room⟩, metadata, rfl⟩

end Frame

/-! ## Longer buffers -/

/-- The plane has the stride of another and starts with its bytes. -/
def Plane.Extends (long short : Plane) : Prop :=
  long.stride = short.stride ∧ StartsWith long.bytes short.bytes

theorem cutPlanes_append {bytes : Bytes} (tail : Bytes) {layout : List PlaneLayout}
    {planes : List Plane} (h : cutPlanes bytes layout = .ok planes) :
    ∃ planes', cutPlanes (bytes ++ tail) layout = .ok planes' ∧
      List.Forall₂ Plane.Extends planes' planes := by
  obtain ⟨pieces, hpieces, heq⟩ := bind_eq_ok.1 h
  cases heq
  obtain ⟨pieces', hcut, longer⟩ := cut_append tail hpieces
  refine ⟨_, bind_eq_ok.2 ⟨pieces', hcut, rfl⟩, ?_⟩
  -- plane by plane: the strides are those of the layout on both sides
  clear h hpieces hcut
  induction longer generalizing layout with
  | nil => exact .nil
  | cons first rest ih =>
    cases layout with
    | nil => exact .nil
    | cons place others => exact .cons ⟨rfl, first⟩ ih

section Longer

variable {planes planes' : List Plane}

theorem Component.bytes_extends (longer : List.Forall₂ Plane.Extends planes' planes)
    (c : Component) : StartsWith (c.bytes planes') (c.bytes planes) := by
  unfold bytes
  generalize c.plane = k
  induction longer generalizing k with
  | nil => exact .refl _
  | cons first rest ih =>
    cases k with
    | zero => exact first.2
    | succ k => exact ih k

theorem strides_of_extends (longer : List.Forall₂ Plane.Extends planes' planes) :
    planes'.map (·.stride) = planes.map (·.stride) := by
  induction longer with
  | nil => rfl
  | cons first rest ih => rw [List.map_cons, List.map_cons, first.1, ih]

/-- A grid inside of the shorter planes reads the same from the longer ones. -/
theorem Component.read_extends {c : Component} (longer : List.Forall₂ Plane.Extends planes' planes)
    (inside : c.Inside planes) : (c.read planes').Agree (c.read planes) := by
  refine ⟨rfl, fun x y k hx hy hk => ?_⟩
  have small := Shape.address_lt inside hx hy hk
  exact (c.bytes_extends longer).getD (by omega)

theorem Canvas.picture_extends {c c' : Canvas}
    (longer : List.Forall₂ Plane.Extends c'.planes c.planes) (same : c'.components = c.components)
    (inside : c.Inside) : c'.picture.Agree c.picture := by
  have grid (place : Component) (member : place ∈ c.components.list) :
      (place.read c'.planes).Agree (place.read c.planes) :=
    Component.read_extends longer (inside place member)
  unfold picture
  rw [same]
  revert grid
  cases c.components with
  | packed pixels =>
    intro grid
    exact .packed (grid pixels (by simp [Components.list]))
  | yuv y u v =>
    intro grid
    exact .yuv (grid y (by simp [Components.list])) (grid u (by simp [Components.list]))
      (grid v (by simp [Components.list]))

end Longer

/-! ## Every sample in bytes of its own -/

/-- All samples of the frame lie in its planes, each in bytes of its own. -/
def Frame.Sound (f : Frame) : Prop := ∃ c, f.writable = .ok c ∧ c.components.Apart

theorem Frame.Sound.stamped {f : Frame} (h : f.Sound) (t : Option Nat) : (f.stamped t).Sound := h

/-- What comes before the last of `n` steps, and the last step. -/
theorem sub_one_mul_add {n : Nat} (positive : 0 < n) (step : Nat) :
    (n - 1) * step + step = n * step := by
  rw [← Nat.succ_mul, Nat.succ_eq_add_one, Nat.sub_add_cancel positive]

/-- Rows of whole pixels fit a buffer that holds as many rows, also from an offset on that
leaves the samples inside of their pixels. -/
theorem Shape.fits_of_rows {s : Shape} {offset length : Nat} (width : 0 < s.width)
    (height : 0 < s.height) (channels : 0 < s.channels) (pixel : offset + s.channels ≤ s.pixelStride)
    (row : s.width * s.pixelStride ≤ s.rowStride) (long : s.height * s.rowStride ≤ length) :
    s.Fits (length - offset) := by
  have last_pixel := sub_one_mul_add width s.pixelStride
  have last_row := sub_one_mul_add height s.rowStride
  refine ⟨width, height, channels, by omega, fun _ => ?_, ?_⟩
  · unfold rowSpan
    omega
  · unfold span rowSpan
    omega

theorem Component.apart_of_plane_ne {a b : Component} (h : a.plane ≠ b.plane) : a.Apart b :=
  fun same => absurd same h

/-- Two grids of one channel that take turns in rows of an even number of bytes. -/
theorem Component.apart_of_turns {a b : Component} {pairs : Nat} (turns : a.offset + b.offset = 1)
    (rows : a.shape.rowStride = pairs * 2 ∧ b.shape.rowStride = pairs * 2)
    (pixels : a.shape.pixelStride = 2 ∧ b.shape.pixelStride = 2)
    (channels : a.shape.channels = 1 ∧ b.shape.channels = 1) : a.Apart b := by
  intro _ x y c x' y' c' _ _ hc _ _ hc'
  have hc : c < a.shape.channels := hc
  have hc' : c' < b.shape.channels := hc'
  unfold Shape.address
  rw [rows.1, rows.2, pixels.1, pixels.2, ← Nat.mul_assoc, ← Nat.mul_assoc]
  omega

namespace Canvas

variable {planes : List Plane} {size : Size}

theorem component_inside (nonempty : size.isEmpty = false) {channels k offset : Nat}
    {stride : Stride} (hstride : (planes.getD k default).stride = stride) (positive : 0 < channels)
    (pixel : offset + channels ≤ stride.pixel) (row : size.width * stride.pixel ≤ stride.row)
    (long : size.height * stride.row ≤ (planes.getD k default).bytes.size) :
    (component planes size channels k offset).Inside planes := by
  obtain ⟨width, height⟩ := Size.isEmpty_eq_false.1 nonempty
  subst hstride
  exact Shape.fits_of_rows width height positive pixel row long

/-- Luma, and interleaved chroma in a second plane. -/
theorem sound_interleaved {c : Canvas} {luma chroma : Bytes} {first second : Nat}
    (nonempty : size.isEmpty = false) (turns : first + second = 1)
    (hplanes : planes = [⟨luma, ⟨size.width, 1⟩⟩, ⟨chroma, ⟨size.halved.width * 2, 2⟩⟩])
    (luma_long : size.height * size.width ≤ luma.size)
    (chroma_long : size.halved.height * (size.halved.width * 2) ≤ chroma.size)
    (hc : c = ⟨planes, .yuv (component planes size 1 0 0)
      (component planes size.halved 1 1 first) (component planes size.halved 1 1 second)⟩) :
    c.Inside ∧ c.components.Apart := by
  subst hplanes hc
  have half : size.halved.isEmpty = false := by rwa [Size.isEmpty_halved]
  constructor
  · simp only [Inside, Components.list, List.mem_cons, List.not_mem_nil, or_false, forall_eq_or_imp,
      forall_eq]
    refine ⟨?_, ?_, ?_⟩
    · exact component_inside nonempty rfl Nat.one_pos (Nat.le_refl _)
        (Nat.le_of_eq (Nat.mul_one _)) luma_long
    · exact component_inside half rfl Nat.one_pos (by show first + 1 ≤ 2; omega) (Nat.le_refl _)
        chroma_long
    · exact component_inside half rfl Nat.one_pos (by show second + 1 ≤ 2; omega) (Nat.le_refl _)
        chroma_long
  · simp only [Components.Apart, Components.list, List.pairwise_cons, List.mem_cons,
      List.not_mem_nil, or_false, forall_eq_or_imp, forall_eq]
    refine ⟨⟨?_, ?_⟩, ?_, by simp⟩
    · exact Component.apart_of_plane_ne Nat.zero_ne_one
    · exact Component.apart_of_plane_ne Nat.zero_ne_one
    · exact Component.apart_of_turns turns ⟨rfl, rfl⟩ ⟨rfl, rfl⟩ ⟨rfl, rfl⟩

/-- Luma and both chroma grids in planes of their own. -/
theorem sound_planar {c : Canvas} {luma first second : Bytes} {u v : Nat} (nonempty : size.isEmpty = false)
    (order : u = 1 ∧ v = 2 ∨ u = 2 ∧ v = 1)
    (hplanes : planes = [⟨luma, ⟨size.width, 1⟩⟩, ⟨first, ⟨size.halved.width, 1⟩⟩,
      ⟨second, ⟨size.halved.width, 1⟩⟩])
    (luma_long : size.height * size.width ≤ luma.size)
    (first_long : size.halved.height * size.halved.width ≤ first.size)
    (second_long : size.halved.height * size.halved.width ≤ second.size)
    (hc : c = ⟨planes, .yuv (component planes size 1 0 0)
      (component planes size.halved 1 u 0) (component planes size.halved 1 v 0)⟩) :
    c.Inside ∧ c.components.Apart := by
  subst hplanes hc
  have half : size.halved.isEmpty = false := by rwa [Size.isEmpty_halved]
  have luma_row : size.width * 1 ≤ size.width := Nat.le_of_eq (Nat.mul_one _)
  have row : size.halved.width * 1 ≤ size.halved.width := Nat.le_of_eq (Nat.mul_one _)
  constructor
  · simp only [Inside, Components.list, List.mem_cons, List.not_mem_nil, or_false, forall_eq_or_imp,
      forall_eq]
    refine ⟨component_inside nonempty rfl Nat.one_pos (Nat.le_refl _) luma_row luma_long, ?_⟩
    rcases order with ⟨rfl, rfl⟩ | ⟨rfl, rfl⟩
    · exact ⟨component_inside half rfl Nat.one_pos (Nat.le_refl _) row first_long,
        component_inside half rfl Nat.one_pos (Nat.le_refl _) row second_long⟩
    · exact ⟨component_inside half rfl Nat.one_pos (Nat.le_refl _) row second_long,
        component_inside half rfl Nat.one_pos (Nat.le_refl _) row first_long⟩
  · simp only [Components.Apart, Components.list, List.pairwise_cons, List.mem_cons,
      List.not_mem_nil, or_false, forall_eq_or_imp, forall_eq]
    refine ⟨⟨?_, ?_⟩, ?_, by simp⟩
    · exact Component.apart_of_plane_ne (by show 0 ≠ u; omega)
    · exact Component.apart_of_plane_ne (by show 0 ≠ v; omega)
    · exact Component.apart_of_plane_ne (by show u ≠ v; omega)

/-- In a second plane U and V take turns. -/
theorem ofPlanes_interleaved (size : Size) {format : Format} (channels : format.channels = none)
    (count : planes.length = 2) : ∃ first second, first + second = 1 ∧
      ofPlanes planes size format = ⟨planes, .yuv (component planes size 1 0 0)
        (component planes size.halved 1 1 first) (component planes size.halved 1 1 second)⟩ := by
  unfold ofPlanes
  rw [channels]
  dsimp only
  rw [if_pos count]
  split
  · exact ⟨1, 0, rfl, rfl⟩
  · exact ⟨0, 1, rfl, rfl⟩

/-- In two planes of their own U and V come in either order. -/
theorem ofPlanes_planar (size : Size) {format : Format} (channels : format.channels = none)
    (count : planes.length = 3) : ∃ u v, (u = 1 ∧ v = 2 ∨ u = 2 ∧ v = 1) ∧
      ofPlanes planes size format = ⟨planes, .yuv (component planes size 1 0 0)
        (component planes size.halved 1 u 0) (component planes size.halved 1 v 0)⟩ := by
  unfold ofPlanes
  rw [channels]
  dsimp only
  rw [if_neg (by omega)]
  split
  · exact ⟨1, 2, .inl ⟨rfl, rfl⟩, rfl⟩
  · exact ⟨2, 1, .inr ⟨rfl, rfl⟩, rfl⟩

end Canvas

namespace Frame

variable {bytes : Bytes} {m : Metadata} {f : Frame}

theorem canvas_of_separate (separate : f.isContiguousYuv = false)
    (nonempty : f.size.isEmpty = false) : f.canvas = .ok (.ofPlanes f.planes f.size f.format) :=
  canvas_eq_ok.2 ⟨f.planes, expandedPlanes_of_separate separate, by simp [nonempty], rfl⟩

/-- A frame is sound if its planes need no cutting and its canvas is. -/
theorem sound_of_canvas (separate : f.isContiguousYuv = false)
    (nonempty : f.size.isEmpty = false)
    (inside : (Canvas.ofPlanes f.planes f.size f.format).Inside)
    (apart : (Canvas.ofPlanes f.planes f.size f.format).components.Apart) : f.Sound :=
  ⟨_, writable_eq_ok.2 ⟨canvas_of_separate separate nonempty, inside⟩, apart⟩

theorem byteSize_packed {format : Format} {n : Nat} (h : format.channels = some n) (size : Size) :
    byteSize size format = size.width * size.height * n := by
  cases format <;> cases h
  · rfl
  · rfl
  · exact (Nat.mul_one _).symm

theorem byteSize_yuv {format : Format} (h : format.isYuv = true) (size : Size) :
    byteSize size format = size.width * size.height + 2 * (size.halved.width * size.halved.height) := by
  rw [← Nat.mul_assoc]
  cases format <;> first | rfl | exact absurd h (by decide)

/-- Luma and chroma of a canonical frame are planes of their own. -/
theorem isContiguousYuv_ofBuffer (h : ofBuffer bytes m = .ok f) : f.isContiguousYuv = false := by
  obtain ⟨nonempty, -, ⟨layout, hlayout, hcut⟩, rfl, -⟩ := ofBuffer_eq_ok.1 h
  cases yuv : f.format.isYuv with
  | false => rw [isContiguousYuv, yuv, Bool.false_and]
  | true =>
    rw [show f.metadata.format = f.format from rfl, planeLayout_yuv nonempty yuv] at hlayout
    obtain rfl := Except.ok.inj hlayout
    obtain ⟨-, strides⟩ := cutPlanes_of_ok (yuvPlanes_ne_nil _ _ _) hcut
    have count := congrArg List.length strides
    rw [List.length_map, List.length_map] at count
    unfold yuvPlanes at count
    split at count
    · rw [isContiguousYuv, count]
      exact Bool.and_false _
    · rw [isContiguousYuv, count]
      exact Bool.and_false _

/-- All pixels in one plane. -/
theorem planes_of_packed {planes : List Plane} {size : Size} {format : Format} {n : Nat}
    (channels : format.channels = some n)
    (h : planeLayout size format >>= cutPlanes bytes = .ok planes) :
    planes = [⟨bytes, ⟨size.width * n, n⟩⟩] := by
  rw [planeLayout, channels] at h
  have cut : [⟨bytes.extract 0 bytes.size, ⟨size.width * n, n⟩⟩] = planes := Except.ok.inj h
  rw [← cut, Array.extract_eq_self_of_le (Nat.le_refl _)]

/-- Luma, and the rest of the buffer for pairs of chroma. -/
theorem planes_of_semiPlanar {planes : List Plane} {size : Size} {format : Format} {row : Nat}
    (semi : format.isSemiPlanar = true)
    (h : cutPlanes bytes (yuvPlanes size format row) = .ok planes) :
    row * size.height ≤ bytes.size ∧
      planes = [⟨bytes.extract 0 (row * size.height), ⟨row, 1⟩⟩,
        ⟨bytes.extract (row * size.height) bytes.size, ⟨(row + 1) / 2 * 2, 2⟩⟩] := by
  obtain ⟨pieces, hpieces, heq⟩ := bind_eq_ok.1 h
  simp only [yuvPlanes, semi, if_true] at hpieces heq
  obtain ⟨fits, tail, htail, rfl⟩ := cutFrom_cons_of_ok hpieces
  obtain rfl := Except.ok.inj htail
  exact ⟨fits, (Except.ok.inj heq).symm⟩

/-- Luma, the rows of one chroma grid, and the rest of the buffer for the other one. -/
theorem planes_of_planar {planes : List Plane} {size : Size} {format : Format} {row : Nat}
    (planar : ¬format.isSemiPlanar = true)
    (h : cutPlanes bytes (yuvPlanes size format row) = .ok planes) :
    row * size.height + (row + 1) / 2 * size.halved.height ≤ bytes.size ∧
      planes = [⟨bytes.extract 0 (row * size.height), ⟨row, 1⟩⟩,
        ⟨bytes.extract (row * size.height)
          (row * size.height + (row + 1) / 2 * size.halved.height), ⟨(row + 1) / 2, 1⟩⟩,
        ⟨bytes.extract (row * size.height + (row + 1) / 2 * size.halved.height) bytes.size,
          ⟨(row + 1) / 2, 1⟩⟩] := by
  obtain ⟨pieces, hpieces, heq⟩ := bind_eq_ok.1 h
  simp only [yuvPlanes, planar] at hpieces heq
  obtain ⟨-, rest, hrest, rfl⟩ := cutFrom_cons_of_ok hpieces
  obtain ⟨fits, tail, htail, rfl⟩ := cutFrom_cons_of_ok hrest
  obtain rfl := Except.ok.inj htail
  exact ⟨fits, (Except.ok.inj heq).symm⟩

theorem sound_packed {n : Nat} (h : ofBuffer bytes f.metadata = .ok f)
    (channels : f.format.channels = some n) : f.Sound := by
  obtain ⟨nonempty, long, ⟨layout, hlayout, hcut⟩, -, -⟩ := ofBuffer_eq_ok.1 h
  simp only [metadata] at nonempty long hlayout
  rw [byteSize_packed channels] at long
  have planes := planes_of_packed channels (bind_eq_ok.2 ⟨layout, hlayout, hcut⟩)
  have positive := Format.channels_pos channels
  refine sound_of_canvas (isContiguousYuv_ofBuffer h) nonempty ?_ ?_
  · unfold Canvas.Inside
    simp only [Canvas.ofPlanes, channels, Components.list, List.mem_singleton, forall_eq]
    have stride : (f.planes.getD 0 default).stride = ⟨f.size.width * n, n⟩ := by
      rw [planes]
      rfl
    refine Canvas.component_inside nonempty stride positive ?_ ?_ ?_
    · exact Nat.le_of_eq (Nat.zero_add n)
    · exact Nat.le_refl _
    · rw [planes]
      show f.size.height * (f.size.width * n) ≤ bytes.size
      rw [← Nat.mul_assoc, Nat.mul_comm f.size.height]
      exact long
  · simp [Canvas.ofPlanes, channels, Components.Apart, Components.list]

/-- A canonical frame is sound. -/
theorem sound_ofBuffer (h : ofBuffer bytes m = .ok f) : f.Sound := by
  obtain ⟨nonempty, long, ⟨layout, hlayout, hcut⟩, rfl, -⟩ := ofBuffer_eq_ok.1 h
  cases channels : f.format.channels with
  | some n => exact sound_packed h channels
  | none =>
    have yuv := (Format.channels_eq_none_iff f.format_ne_unknown).1 channels
    simp only [metadata] at nonempty long hlayout
    rw [planeLayout_yuv nonempty yuv] at hlayout
    obtain rfl := Except.ok.inj hlayout
    rw [byteSize_yuv yuv] at long
    have luma := Nat.mul_comm f.size.width f.size.height
    have chroma := Nat.mul_comm f.size.halved.width f.size.halved.height
    by_cases semi : f.format.isSemiPlanar = true
    · obtain ⟨-, planes⟩ := planes_of_semiPlanar semi hcut
      have count : f.planes.length = 2 := by
        rw [planes]
        rfl
      obtain ⟨first, second, turns, canvas⟩ :=
        Canvas.ofPlanes_interleaved f.size channels count
      obtain ⟨inside, apart⟩ := Canvas.sound_interleaved nonempty turns planes
        (by rw [Array.size_extract]; omega) (by rw [Array.size_extract, ← Nat.mul_assoc]; omega)
        canvas
      exact sound_of_canvas (isContiguousYuv_ofBuffer h) nonempty inside apart
    · obtain ⟨-, planes⟩ := planes_of_planar semi hcut
      rw [show (f.size.width + 1) / 2 = f.size.halved.width from rfl] at planes
      have count : f.planes.length = 3 := by
        rw [planes]
        rfl
      obtain ⟨u, v, order, canvas⟩ := Canvas.ofPlanes_planar f.size channels count
      obtain ⟨inside, apart⟩ := Canvas.sound_planar nonempty order planes
        (by rw [Array.size_extract]; omega) (by rw [Array.size_extract]; omega)
        (by rw [Array.size_extract]; omega) canvas
      exact sound_of_canvas (isContiguousYuv_ofBuffer h) nonempty inside apart

/-- There is a fresh frame of every known format and every size that is not empty. -/
theorem exists_zeroed (m : Metadata) (nonempty : m.size.isEmpty = false)
    (known : m.format ≠ .unknown) :
    ∃ fresh, zeroed m = .ok fresh ∧ fresh.Sound ∧ fresh.metadata = m := by
  obtain ⟨fresh, hfresh⟩ := zeroed_ok nonempty known
  exact ⟨fresh, hfresh, sound_ofBuffer hfresh, metadata_ofBuffer hfresh⟩

theorem canvas_ofBuffer (h : ofBuffer bytes m = .ok f) :
    f.readable = .ok (.ofPlanes f.planes f.size f.format) := by
  obtain ⟨c, hc, -⟩ := sound_ofBuffer h
  have readable := readable_iff_writable.2 hc
  obtain ⟨planes, hplanes, -, rfl⟩ := canvas_eq_ok.1 (writable_eq_ok.1 hc).1
  rw [expandedPlanes_of_separate (isContiguousYuv_ofBuffer h)] at hplanes
  obtain rfl := Except.ok.inj hplanes
  exact readable

/-- The bytes after a frame are not part of its picture. -/
theorem picture_ofBuffer_append (h : ofBuffer bytes m = .ok f) (tail : Bytes) :
    ∃ g p q, ofBuffer (bytes ++ tail) m = .ok g ∧ f.picture = .ok p ∧ g.picture = .ok q ∧
      q.Agree p := by
  obtain ⟨nonempty, long, ⟨layout, hlayout, hcut⟩, hm, -⟩ := ofBuffer_eq_ok.1 h
  have longer : byteSize m.size m.format ≤ (bytes ++ tail).size := by
    rw [Array.size_append]
    omega
  obtain ⟨g, hg⟩ := ofBuffer_ok nonempty (known_of_ofBuffer h) longer
  obtain ⟨-, -, ⟨layout', hlayout', hcut'⟩, hm', -⟩ := ofBuffer_eq_ok.1 hg
  rw [hlayout] at hlayout'
  obtain rfl := Except.ok.inj hlayout'
  obtain ⟨planes, hplanes, extends'⟩ := cutPlanes_append tail hcut
  rw [hplanes] at hcut'
  obtain rfl := Except.ok.inj hcut'
  obtain ⟨size, -, format⟩ := Metadata.mk.inj (hm'.trans hm.symm)
  have readable := canvas_ofBuffer h
  have readable' := canvas_ofBuffer hg
  rw [size, format] at readable'
  refine ⟨g, _, _, hg, picture_eq_ok.2 ⟨_, readable, rfl⟩, picture_eq_ok.2 ⟨_, readable', rfl⟩, ?_⟩
  exact Canvas.picture_extends extends'
    (components_ofPlanes f.size f.format (strides_of_extends extends'))
    (readable_eq_ok.1 readable).2

end Frame

end Raster
