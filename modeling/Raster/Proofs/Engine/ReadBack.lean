import Raster.Proofs.Engine.Orientation
import Raster.Proofs.Frame.Interleaved
import Raster.Proofs.Frame.Region

/-!
# Reading back what was written

A transform paints luma first, then U, then V. Where a byte belongs to two samples the later
grid wins, so the frame reads back as it was painted exactly when all samples have bytes of
their own. Frames in one or three planes always do; interleaved chroma in a plane of its own
does for all strides but those of `Stride.Collides`, and no check refuses these.

* `Frame.ReadsBack` — after every successful transform the frame shows what was computed.

Results: `Frame.readsBack_of_apart`, `Frame.apart_of_readsBack` and
`Frame.samples_distinct_iff` (which YUV frames have distinct samples and read back).
-/

namespace Raster

/-! ## Pictures and frames that show them -/

/-- After every successful transform into the frame, it shows exactly the image that the
transform made of its input. -/
def Frame.ReadsBack (f : Frame) : Prop :=
  ∀ (p : Primitive) (input : Frame), (p.run input f).status = .ok () →
    ∃ source image shown, input.picture = .ok source ∧
      p.image source (f.format.grids f.size) = .ok image ∧
        (p.run input f).frame.picture = .ok shown ∧ shown.Agree image

/-- A grid of one value. -/
def Samples.plain (extent : Extent) (value : UInt8) : Samples := ⟨extent, fun _ _ _ => value⟩

/-- Every picture is shown by a frame. -/
theorem Frame.exists_showing {m : Metadata} {p : Picture} (nonempty : m.size.isEmpty = false)
    (known : m.format ≠ .unknown) (grids : p.grids = m.format.grids m.size) :
    ∃ (f : Frame) (shown : Picture), f.metadata = m ∧ f.picture = .ok shown ∧ shown.Agree p := by
  obtain ⟨blank, hblank⟩ := zeroed_ok nonempty known
  obtain rfl := metadata_ofBuffer hblank
  obtain ⟨c, hc, apart⟩ := sound_ofBuffer hblank
  obtain ⟨shown, hshown, agree⟩ := picture_painted hc apart grids
  exact ⟨blank.painted c p, shown, rfl, hshown, agree⟩

/-! ## Apart and back -/

section

variable {f : Frame} {c : Canvas}

/-- What is painted into grids that lie apart reads back. -/
theorem Frame.readsBack_of_apart (h : f.writable = .ok c) (apart : c.components.Apart) :
    f.ReadsBack := by
  intro p input done
  rw [Primitive.run_eq] at done ⊢
  cases drawn : p.draw input f with
  | error e =>
    rw [drawn] at done
    cases done
  | ok drawing =>
    obtain ⟨target, image⟩ := drawing
    obtain ⟨accepts, htarget, source, hsource, himage⟩ := Primitive.draw_eq_ok.1 drawn
    rw [h] at htarget
    obtain rfl := Except.ok.inj htarget
    have grids := Primitive.grids_image accepts (grids_picture hsource) himage
    obtain ⟨shown, hshown, agree⟩ := picture_painted h apart grids
    exact ⟨source, image, shown, hsource, himage, hshown, agree⟩

/-- Grids that read as two different values share no byte. -/
theorem Component.apart_of_read {a b : Component} {planes : List Plane} {s t : UInt8}
    (ha : (a.read planes).Agree (.plain a.extent s)) (hb : (b.read planes).Agree (.plain b.extent t))
    (differ : s ≠ t) : a.Apart b := by
  intro plane x y k x' y' k' hx hy hk hx' hy' hk' byte
  have first : (a.bytes planes).getD (a.offset + a.shape.address x y k) 0 = s :=
    ha.value x y k hx hy hk
  have second : (b.bytes planes).getD (b.offset + b.shape.address x' y' k') 0 = t :=
    hb.value x' y' k' hx' hy' hk'
  rw [bytes, plane, byte] at first
  exact differ (first.symm.trans second)

/-- Scaling a grid to its own extent copies it. -/
theorem Move.resize_grid_same (s : Samples) : (Move.resize.grid s s.toExtent).Agree s := by
  have copied : Move.resize.grid s s.toExtent = s.part 0 0 s.toExtent := if_pos ⟨rfl, rfl⟩
  rw [copied]
  exact s.part_same

/-- So it does with pictures. -/
theorem Move.resize_image_same (p : Picture) : (Move.resize.image p p.grids).Agree p := by
  cases p with
  | packed s =>
    show Picture.Agree (.packed (Move.resize.grid (s.take (min s.channels s.channels)) s.toExtent)) _
    rw [Nat.min_self]
    exact .packed (resize_grid_same s)
  | yuv y u v => exact .yuv (resize_grid_same y) (resize_grid_same u) (resize_grid_same v)

/-- A YUV frame that reads back has grids that lie apart: otherwise a picture of three different
values, one in each grid, would lose some. -/
theorem Frame.apart_of_readsBack (yuv : f.format.isYuv = true) (h : f.writable = .ok c)
    (reads : f.ReadsBack) : c.components.Apart := by
  have channels := (Format.channels_eq_none_iff f.format_ne_unknown).2 yuv
  have nonempty := nonempty_of_writable h
  have places := grids_canvas (writable_eq_ok.1 h).1
  obtain ⟨py, pu, pv, hcomponents, -⟩ :=
    Components.eq_yuv (places.trans (Format.grids_yuv channels f.size))
  -- the picture, a frame that shows it, and a copy of that frame into this one
  have grids : (Picture.yuv (.plain py.extent 0) (.plain pu.extent 1) (.plain pv.extent 2)).grids =
      f.format.grids f.size := by
    rw [← places, hcomponents]
    rfl
  obtain ⟨input, source, metadata, hsource, shows⟩ :=
    exists_showing (m := f.metadata) nonempty f.format_ne_unknown grids
  have whole : source.grids = f.format.grids f.size := shows.grids.trans grids
  have accepts : (Primitive.move .resize).Accepts input.metadata f.metadata := by
    rw [metadata]
    exact ⟨nonempty, nonempty, Format.compatible_refl _, trivial⟩
  have run := Primitive.run_of_image accepts hsource h rfl
  have copied := (Move.resize_image_same source).trans shows
  rw [whole] at copied
  -- what it shows afterwards has one value in each grid
  obtain ⟨source', image, shown, hsource', himage, hshown, agree⟩ :=
    reads (.move .resize) input (by rw [run])
  rw [hsource] at hsource'
  obtain rfl := Except.ok.inj hsource'
  obtain rfl := Except.ok.inj himage
  rw [run, picture, readable_painted h] at hshown
  obtain rfl := Except.ok.inj hshown
  have read := agree.trans copied
  unfold Canvas.picture at read
  simp only [Canvas.paint, hcomponents] at read
  rw [hcomponents]
  cases read with
  | yuv luma blue red =>
    simp only [Components.Apart, Components.list, List.pairwise_cons, List.mem_cons,
      List.not_mem_nil, or_false, forall_eq_or_imp, forall_eq]
    refine ⟨⟨?_, ?_⟩, ?_, by simp⟩
    · exact Component.apart_of_read luma blue (by decide)
    · exact Component.apart_of_read luma red (by decide)
    · exact Component.apart_of_read blue red (by decide)

/-- The samples of a YUV frame have bytes of their own exactly when its chroma does not collide,
and exactly then every transform into the frame reads back as it was computed. -/
theorem Frame.samples_distinct_iff (yuv : f.format.isYuv = true) (h : f.writable = .ok c) :
    (c.components.Distinct ↔ ¬f.ChromaCollides) ∧ (f.ReadsBack ↔ ¬f.ChromaCollides) := by
  have apart := apart_iff yuv h
  have distinct := Components.distinct_iff_apart (writable_eq_ok.1 h).2
  refine ⟨distinct.trans apart, ?_⟩
  rw [← apart]
  exact ⟨apart_of_readsBack yuv h, readsBack_of_apart h⟩

/-- Interleaved chroma with a gap after each row. -/
theorem Frame.samples_distinct_iff_row :
    ∃ c, Frame.nv12Row.writable = .ok c ∧ c.components.Distinct ∧ Frame.nv12Row.ReadsBack := by
  obtain ⟨c, hc⟩ : ∃ c, Frame.nv12Row.writable = .ok c := ⟨_, rfl⟩
  obtain ⟨distinct, reads⟩ := samples_distinct_iff (f := .nv12Row) rfl hc
  exact ⟨c, hc, distinct.2 (by decide), reads.2 (by decide)⟩

end

/-- A row of three pixels whose interleaved chroma has neighbours one byte apart. -/
def Frame.nv12Tight : Frame :=
  ⟨[⟨#[0, 0, 0], ⟨3, 1⟩⟩, ⟨#[0, 0, 0], ⟨2, 1⟩⟩], ⟨3, 1⟩, .nv12, .topLeft, none, rfl,
    by simp [Stride.hasZero]⟩

/-- A row of three pixels with chroma planes of its own. -/
def Frame.yv21Row (y0 y1 y2 u0 u1 v0 v1 : UInt8) : Frame :=
  ⟨[⟨#[y0, y1, y2], ⟨3, 1⟩⟩, ⟨#[u0, u1], ⟨2, 1⟩⟩, ⟨#[v0, v1], ⟨2, 1⟩⟩], ⟨3, 1⟩, .yv21, .topLeft,
    none, rfl, by simp [Stride.hasZero]⟩

/-- The second U sample and the first V sample are one byte. A conversion into the frame
succeeds, but converted back its second U sample is the first V sample. -/
theorem Frame.tight_chroma_lost :
    (∃ c, Frame.nv12Tight.writable = .ok c ∧ ¬c.components.Distinct) ∧
      let tight := Primitive.convert.run (.yv21Row 1 2 3 10 11 20 21) .nv12Tight
      let back := Primitive.convert.run tight.frame (.yv21Row 0 0 0 0 0 0 0)
      tight.status = .ok () ∧ back.status = .ok () ∧
        back.frame.memory = #[1, 2, 3, 10, 20, 20, 21] := by
  constructor
  · obtain ⟨c, hc⟩ : ∃ c, Frame.nv12Tight.writable = .ok c := ⟨_, rfl⟩
    refine ⟨c, hc, ?_⟩
    rw [Components.distinct_iff_apart (writable_eq_ok.1 hc).2, apart_iff rfl hc]
    decide
  · decide +kernel

end Raster
