import Raster.Proofs.Frame.Tiling

/-!
# YUV frames in one plane

A YUV frame may keep luma and chroma in one plane. All that is given then is the distance between
the rows of luma: interleaved chroma keeps it, rounded up to an even number, and separate chroma
planes halve it, rounded up. The plane is cut accordingly, and each grid is checked in its piece.

A piece of luma is as long as its rows, and so is the first of two pieces of chroma. Each of them
holds its grid exactly if a row of luma fits between two rows, even if there is a single row. The
last piece keeps the rest of the plane, so its grid needs no more than reaches to its last sample.

* `contiguousSize` — the bytes from the first sample of luma to the last one of chroma.

Results: `Frame.writable_contiguous_iff` (which planes hold a YUV frame) and
`Frame.ofPlanes_contiguous` (the samples of such a frame have bytes of their own in the plane).
-/

namespace Raster

/-- The bytes from the first to the last sample of a YUV frame in one plane with luma rows that
lie `row` bytes apart. -/
def contiguousSize (size : Size) (format : Format) (row : Nat) : Nat :=
  let half := size.halved
  if format.isSemiPlanar then
    let chromaRow := (row + 1) / 2 * 2
    size.height * row + (half.height - 1) * chromaRow + 2 * half.width
  else
    let chromaRow := (row + 1) / 2
    size.height * row + half.height * chromaRow + (half.height - 1) * chromaRow + half.width

/-! ## Grids in their pieces -/

namespace Canvas

variable {planes : List Plane} {size : Size} {format : Format} {row channels k offset : Nat}
  {stride : Stride}

theorem inside_yuv_iff {y u v : Component} : (⟨planes, .yuv y u v⟩ : Canvas).Inside ↔
    y.Inside planes ∧ u.Inside planes ∧ v.Inside planes := by
  simp [Inside, Components.list]

/-- A grid whose rows lie apart is held by every plane that reaches to its last sample. -/
theorem component_inside_iff (nonempty : size.isEmpty = false)
    (hstride : (planes.getD k default).stride = stride) (positive : 0 < channels)
    (pixel : channels ≤ stride.pixel)
    (rows : (size.width - 1) * stride.pixel + channels ≤ stride.row) :
    (component planes size channels k offset).Inside planes ↔
      offset + ((size.height - 1) * stride.row + ((size.width - 1) * stride.pixel + channels)) ≤
        (planes.getD k default).bytes.size := by
  obtain ⟨width, height⟩ := Size.isEmpty_eq_false.1 nonempty
  subst hstride
  have span : (component planes size channels k offset).shape.span =
      (size.height - 1) * (planes.getD k default).stride.row +
        ((size.width - 1) * (planes.getD k default).stride.pixel + channels) := rfl
  rw [← span]
  constructor
  · intro inside
    have reaches := inside.span_le
    have before := inside.offset_lt
    simp only [component, Component.bytes] at reaches before ⊢
    omega
  · intro long
    refine ⟨width, height, positive, pixel, fun _ => rows, ?_⟩
    simp only [component, Component.bytes] at long ⊢
    omega

/-- A grid of one channel in a piece that is as long as its rows: the piece holds it exactly if a
row fits its stride. A single row that is longer than the stride is longer than the piece. -/
theorem component_inside_of_rows (nonempty : size.isEmpty = false)
    (hstride : (planes.getD k default).stride = ⟨row, 1⟩)
    (long : (planes.getD k default).bytes.size = row * size.height) :
    (component planes size 1 k 0).Inside planes ↔ size.width ≤ row := by
  obtain ⟨width, height⟩ := Size.isEmpty_eq_false.1 nonempty
  constructor
  · intro inside
    have reaches := inside.span_le
    have last := sub_one_mul_add height row
    simp only [Shape.span, Shape.rowSpan, component, Component.bytes, hstride, long] at reaches
    rw [Nat.mul_comm row] at reaches
    omega
  · intro wide
    refine component_inside nonempty hstride Nat.one_pos (Nat.le_refl _) ?_ ?_
    · rwa [Nat.mul_one]
    · rw [long, Nat.mul_comm]

/-- Luma in a piece as long as its rows, and pairs of chroma in another one. -/
theorem inside_semiPlanar_iff (channels : format.channels = none)
    (nonempty : size.isEmpty = false) (count : planes.length = 2)
    (luma : (planes.getD 0 default).stride = ⟨row, 1⟩)
    (chroma : (planes.getD 1 default).stride = ⟨(row + 1) / 2 * 2, 2⟩)
    (long : (planes.getD 0 default).bytes.size = row * size.height) :
    (ofPlanes planes size format).Inside ↔ size.width ≤ row ∧
      (size.halved.height - 1) * ((row + 1) / 2 * 2) + 2 * size.halved.width ≤
        (planes.getD 1 default).bytes.size := by
  have half : size.halved.isEmpty = false := by rwa [Size.isEmpty_halved]
  obtain ⟨chroma_width, -⟩ := Size.isEmpty_eq_false.1 half
  obtain ⟨first, second, turns, canvas⟩ := ofPlanes_interleaved size channels count
  rw [canvas, inside_yuv_iff, component_inside_of_rows nonempty luma long]
  refine and_congr_right fun wide => ?_
  -- a row of pairs fits since a row of luma does
  have width : size.halved.width = (size.width + 1) / 2 := rfl
  have rows : (size.halved.width - 1) * 2 + 1 ≤ (row + 1) / 2 * 2 := by omega
  rw [component_inside_iff half chroma Nat.one_pos (Nat.le_succ 1) rows,
    component_inside_iff half chroma Nat.one_pos (Nat.le_succ 1) rows]
  dsimp only
  omega

/-- Luma and one chroma grid in pieces as long as their rows, and the other one in a third. -/
theorem inside_planar_iff (channels : format.channels = none)
    (nonempty : size.isEmpty = false) (count : planes.length = 3)
    (luma : (planes.getD 0 default).stride = ⟨row, 1⟩)
    (first : (planes.getD 1 default).stride = ⟨(row + 1) / 2, 1⟩)
    (second : (planes.getD 2 default).stride = ⟨(row + 1) / 2, 1⟩)
    (luma_long : (planes.getD 0 default).bytes.size = row * size.height)
    (first_long : (planes.getD 1 default).bytes.size = (row + 1) / 2 * size.halved.height) :
    (ofPlanes planes size format).Inside ↔ size.width ≤ row ∧
      (size.halved.height - 1) * ((row + 1) / 2) + size.halved.width ≤
        (planes.getD 2 default).bytes.size := by
  have half : size.halved.isEmpty = false := by rwa [Size.isEmpty_halved]
  obtain ⟨chroma_width, -⟩ := Size.isEmpty_eq_false.1 half
  obtain ⟨u, v, order, canvas⟩ := ofPlanes_planar size channels count
  rw [canvas, inside_yuv_iff, component_inside_of_rows nonempty luma luma_long]
  refine and_congr_right fun wide => ?_
  have fits : size.halved.width ≤ (row + 1) / 2 := Nat.div_le_div_right (Nat.succ_le_succ wide)
  have rows : (size.halved.width - 1) * 1 + 1 ≤ (row + 1) / 2 := by omega
  have near := (component_inside_of_rows half first first_long).2 fits
  have far : (component planes size.halved 1 2 0).Inside planes ↔
      (size.halved.height - 1) * ((row + 1) / 2) + size.halved.width ≤
        (planes.getD 2 default).bytes.size := by
    rw [component_inside_iff half second Nat.one_pos (Nat.le_refl _) rows]
    dsimp only
    omega
  rcases order with ⟨rfl, rfl⟩ | ⟨rfl, rfl⟩
  · rw [far, and_iff_right near]
  · rw [far, and_iff_left near]

/-- The pieces of a plane hold their grids exactly if a row of luma fits between two rows and the
plane reaches to the last sample of chroma. -/
theorem inside_of_cut {bytes : Bytes} (channels : format.channels = none)
    (nonempty : size.isEmpty = false)
    (h : cutPlanes bytes (yuvPlanes size format row) = .ok planes) :
    (ofPlanes planes size format).Inside ↔
      size.width ≤ row ∧ contiguousSize size format row ≤ bytes.size := by
  have luma := Nat.mul_comm size.height row
  have chroma := Nat.mul_comm size.halved.height ((row + 1) / 2)
  unfold contiguousSize
  by_cases semi : format.isSemiPlanar = true
  · obtain ⟨long, rfl⟩ := Frame.planes_of_semiPlanar semi h
    rw [inside_semiPlanar_iff channels nonempty rfl rfl rfl, if_pos semi]
    · simp only [List.getD_cons_succ, List.getD_cons_zero, Array.size_extract]
      omega
    · simp only [List.getD_cons_zero, Array.size_extract]
      omega
  · obtain ⟨long, rfl⟩ := Frame.planes_of_planar semi h
    rw [inside_planar_iff channels nonempty rfl rfl rfl rfl, if_neg semi]
    · simp only [List.getD_cons_succ, List.getD_cons_zero, Array.size_extract]
      omega
    · simp only [List.getD_cons_zero, Array.size_extract]
      omega
    · simp only [List.getD_cons_succ, List.getD_cons_zero, Array.size_extract]
      omega

end Canvas

/-- A plane that reaches to the last sample of chroma reaches to the start of each piece. -/
theorem cutPlanes_of_contiguousSize {bytes : Bytes} {size : Size} {format : Format} {row : Nat}
    (long : contiguousSize size format row ≤ bytes.size) :
    ∃ planes, cutPlanes bytes (yuvPlanes size format row) = .ok planes := by
  have luma := Nat.mul_comm size.height row
  have chroma := Nat.mul_comm size.halved.height ((row + 1) / 2)
  obtain ⟨pieces, hpieces⟩ : ∃ pieces, cut bytes (yuvPlanes size format row) = .ok pieces := by
    refine cutFrom_ok fun stop hstop => ?_
    unfold contiguousSize at long
    unfold yuvPlanes at hstop
    by_cases semi : format.isSemiPlanar = true
    · simp only [semi, if_true, List.tail_cons, List.map_cons, List.map_nil, List.mem_singleton]
        at long hstop
      omega
    · simp only [semi, if_false, Bool.false_eq_true, List.tail_cons, List.map_cons, List.map_nil,
        List.mem_cons, List.not_mem_nil, or_false] at long hstop
      omega
  exact ⟨_, bind_eq_ok.2 ⟨pieces, hpieces, rfl⟩⟩

/-! ## Frames -/

namespace Frame

variable {f : Frame} {c : Canvas} {plane : Plane}

/-- The canvas of a YUV frame in one plane lies on the pieces of that plane. -/
theorem canvas_of_single (single : f.planes = [plane]) (yuv : f.format.isYuv = true)
    (nonempty : f.size.isEmpty = false) : f.canvas = .ok c ↔
      ∃ planes, cutPlanes plane.bytes (yuvPlanes f.size f.format plane.stride.row) = .ok planes ∧
        c = .ofPlanes planes f.size f.format := by
  have expanded : f.expandedPlanes =
      cutPlanes plane.bytes (yuvPlanes f.size f.format plane.stride.row) := by
    simp only [expandedPlanes, yuv, single]
    rw [yuvLayout_eq nonempty yuv]
    rfl
  rw [canvas_eq_ok, expanded]
  refine exists_congr fun planes => and_congr_right fun _ => ?_
  simp [nonempty]

/-- A plane holds a YUV frame exactly if a row of luma fits between two rows and the plane reaches
to the last sample of chroma. -/
theorem writable_contiguous_iff (single : f.planes = [plane]) (yuv : f.format.isYuv = true)
    (nonempty : f.size.isEmpty = false) : (∃ c, f.writable = .ok c) ↔
      f.size.width ≤ plane.stride.row ∧
        contiguousSize f.size f.format plane.stride.row ≤ plane.bytes.size := by
  have channels := (Format.channels_eq_none_iff f.format_ne_unknown).2 yuv
  simp only [writable_eq_ok, canvas_of_single single yuv nonempty]
  constructor
  · rintro ⟨c, ⟨planes, cut, rfl⟩, inside⟩
    exact (Canvas.inside_of_cut channels nonempty cut).1 inside
  · rintro ⟨wide, long⟩
    obtain ⟨planes, cut⟩ := cutPlanes_of_contiguousSize long
    exact ⟨_, ⟨planes, cut, rfl⟩, (Canvas.inside_of_cut channels nonempty cut).2 ⟨wide, long⟩⟩

/-- The grids of a YUV frame in one plane lie apart: its chroma never collides. -/
theorem apart_of_single (single : f.planes = [plane]) (yuv : f.format.isYuv = true)
    (h : f.writable = .ok c) : c.components.Apart := by
  refine (apart_iff yuv h).2 fun collides => ?_
  have two := collides.1
  rw [single] at two
  cases two

/-- The bytes of the canvas of a YUV frame in one plane are those of the plane. -/
theorem join_pieces_of_single (single : f.planes = [plane]) (h : f.canvas = .ok c) :
    join c.pieces = plane.bytes := by
  obtain ⟨planes, expanded, -, rfl⟩ := canvas_eq_ok.1 h
  have memory := memory_of_expandedPlanes expanded
  rw [Frame.memory, buffers, single] at memory
  exact memory.symm.trans Array.append_empty

/-- A YUV frame made of one plane can be read and written exactly if a row of luma fits between
two rows and the plane reaches to the last sample of chroma. Both cut the plane alike, and the
samples lie in the plane, each in a byte of its own. -/
theorem ofPlanes_contiguous {size : Size} {format : Format} {row pixel : Nat}
    (nonempty : size.isEmpty = false) (yuv : format.isYuv = true) (row_pos : 0 < row)
    (pixel_pos : 0 < pixel) (bytes : Bytes) (orientation : Orientation) :
    ∃ f, ofPlanes [⟨bytes, ⟨row, pixel⟩⟩] size format orientation = .ok f ∧
      ((∃ c, f.readable = .ok c) ↔
        size.width ≤ row ∧ contiguousSize size format row ≤ bytes.size) ∧
      (∀ c, f.readable = .ok c ↔ f.writable = .ok c) ∧
      ∀ c, f.readable = .ok c →
        (f.expandedPlanes = .ok c.planes ∧
          cutPlanes bytes (yuvPlanes size format row) = .ok c.planes) ∧
        (∀ s ∈ (format.grids size).sites, c.picture.valueAt s = bytes.getD (c.byteAt s) 0) ∧
        Set.MapsTo c.byteAt (format.grids size).sites (Set.Iio bytes.size) ∧
        Set.InjOn c.byteAt (format.grids size).sites := by
  have known : format ≠ .unknown := by
    rintro rfl
    cases yuv
  have strides : ∀ plane ∈ [(⟨bytes, ⟨row, pixel⟩⟩ : Plane)], plane.stride.hasZero = false := by
    simpa using Stride.hasZero_eq_false.2 ⟨row_pos, pixel_pos⟩
  obtain ⟨f, hf⟩ := ofPlanes_ok size orientation (Format.acceptsPlaneCount_one known) strides
  obtain ⟨single, metadata, -⟩ := planes_of_ofPlanes hf
  obtain ⟨rfl, -, rfl⟩ := Metadata.mk.inj metadata
  have same (c : Canvas) : f.readable = .ok c ↔ f.writable = .ok c := readable_iff_writable
  refine ⟨f, hf, ?_, same, fun c hc => ?_⟩
  · simp only [same]
    exact writable_contiguous_iff single yuv nonempty
  · obtain ⟨canvas, inside⟩ := readable_eq_ok.1 hc
    have grids := grids_canvas canvas
    have memory := join_pieces_of_single single canvas
    have apart := apart_of_single single yuv ((same c).1 hc)
    obtain ⟨planes, cut, rfl⟩ := (canvas_of_single single yuv nonempty).1 canvas
    refine ⟨⟨?_, cut⟩, fun s hs => ?_, fun s hs => ?_, ?_⟩
    · obtain ⟨planes', expanded, -, same_canvas⟩ := canvas_eq_ok.1 canvas
      rw [expanded, same_canvas]
      rfl
    · rw [Canvas.valueAt_picture inside (grids ▸ hs), memory]
    · have small := Canvas.byteAt_lt inside (grids ▸ hs)
      rwa [memory] at small
    · exact grids ▸ Canvas.injOn_byteAt inside apart

/-- Rows of three samples, five bytes apart: rows of chroma are six bytes apart, and the last U
sample lies in the last of 25 bytes. One byte less is too short. -/
theorem ofPlanes_contiguous_odd : ∃ f short : Frame,
    ofPlanes [⟨.replicate 25 0, ⟨5, 7⟩⟩] ⟨3, 3⟩ .nv21 .topLeft = .ok f ∧
    ofPlanes [⟨.replicate 24 0, ⟨5, 7⟩⟩] ⟨3, 3⟩ .nv21 .topLeft = .ok short ∧
      (∃ c, f.readable = .ok c ∧ f.writable = .ok c ∧ c.byteAt ⟨1, 1, 1, 0⟩ = 24 ∧
        Set.InjOn c.byteAt (Format.nv21.grids ⟨3, 3⟩).sites) ∧
      ¬∃ c, short.readable = .ok c := by
  obtain ⟨f, hf, resolves, same, tiles⟩ := @ofPlanes_contiguous ⟨3, 3⟩ .nv21 5 7 rfl rfl
    (by decide) (by decide) (.replicate 25 0) .topLeft
  obtain ⟨short, hshort, resolves', -⟩ := @ofPlanes_contiguous ⟨3, 3⟩ .nv21 5 7 rfl rfl
    (by decide) (by decide) (.replicate 24 0) .topLeft
  refine ⟨f, short, hf, hshort, ?_, fun held => absurd (resolves'.1 held).2 (by decide)⟩
  obtain ⟨c, hc⟩ := resolves.2 ⟨by decide, by decide⟩
  obtain ⟨-, -, -, distinct⟩ := tiles c hc
  refine ⟨c, hc, (same c).1 hc, ?_, distinct⟩
  obtain rfl := Except.ok.inj (show Except.ok _ = Except.ok f from hf)
  obtain rfl := Except.ok.inj (show Except.ok _ = Except.ok c from hc)
  rfl

end Frame

end Raster
