import Raster.Proofs.Engine.Footprint
import Raster.Proofs.Frame.Contiguous

/-!
# Requests into the corner of a frame

The top-left region of a frame is an output like any other. A request fills it with the samples
that it would put into a frame of that size, and these lie where the whole frame keeps its own
top-left samples. Everything else stays, down to the bytes between samples.

* `Frame.cornerSites`, `Frame.cornerBytes` — the top-left samples of a frame, and their bytes.
* `Frame.KeepsBeside` — nothing but these bytes changes.
* `Frame.ShowsInCorner` — and they show a picture.
* `Outcome.FillsCorner` — a request does with the corner of a frame what it does with a frame of
  that size.

Results: `Frame.footprint_topLeft` (the bytes of a region are those of the corner),
`Outcome.Draws.keepsBeside` and `Outcome.Draws.showsInCorner` (what becomes of a frame whose
region is drawn) and `Request.serve_corner` (requests into a region, and proportional crops).
-/

namespace Raster

/-! ## Corners of canvases -/

namespace Canvas

/-- The canvas of the top-left samples of another: on the same planes, every grid is a corner. -/
structure CornerOf (corner whole : Canvas) : Prop where
  planes : corner.planes = whole.planes
  grids : List.Forall₂ Component.CornerOf corner.components.list whole.components.list

namespace CornerOf

variable {corner whole : Canvas} {s : Site}

theorem pieces (h : corner.CornerOf whole) : corner.pieces = whole.pieces := by
  rw [Canvas.pieces, Canvas.pieces, h.planes]

/-- A site of the corner lies in a grid of the corner and in that grid of the whole. -/
theorem exists_places (h : corner.CornerOf whole) (hs : s ∈ corner.components.grids.sites) :
    ∃ part place, corner.components.list[s.grid]? = some part ∧
      whole.components.list[s.grid]? = some place ∧ part.CornerOf place ∧
        s.x < part.extent.width ∧ s.y < part.extent.height ∧ s.channel < part.extent.channels := by
  obtain ⟨e, he, held⟩ := hs
  rw [Components.list_grids, List.getElem?_map] at he
  obtain ⟨part, hpart, rfl⟩ := Option.map_eq_some_iff.1 he
  obtain ⟨hi, rfl⟩ := List.getElem?_eq_some_iff.1 hpart
  have hi' : s.grid < whole.components.list.length := h.grids.length_eq ▸ hi
  exact ⟨_, _, hpart, List.getElem?_eq_getElem hi', h.grids.get hi hi', held⟩

theorem sites (h : corner.CornerOf whole) :
    corner.components.grids.sites ⊆ whole.components.grids.sites := by
  intro s hs
  obtain ⟨part, place, -, hplace, corner_of, hx, hy, hc⟩ := h.exists_places hs
  refine ⟨place.extent, ?_, ?_, ?_, ?_⟩
  · rw [Components.list_grids, List.getElem?_map, hplace]
    rfl
  · exact Nat.lt_of_lt_of_le hx corner_of.width_le
  · exact Nat.lt_of_lt_of_le hy corner_of.height_le
  · exact Nat.lt_of_lt_of_eq hc corner_of.channels

/-- A sample of the corner lies in the byte of that sample of the whole. -/
theorem byteAt (h : corner.CornerOf whole) (hs : s ∈ corner.components.grids.sites) :
    corner.byteAt s = whole.byteAt s := by
  obtain ⟨part, place, hpart, hplace, corner_of, -⟩ := h.exists_places hs
  rw [byteAt_eq hpart, byteAt_eq hplace, h.pieces, corner_of.plane, Component.byteOf,
    Component.byteOf, corner_of.offset, corner_of.address]

theorem footprint (h : corner.CornerOf whole) :
    corner.footprint = whole.byteAt '' corner.components.grids.sites :=
  Set.image_congr fun _ hs => h.byteAt hs

/-- What is painted on a corner shows in the whole. -/
theorem valueAt_painted {p : Picture} (h : (corner.paint p).CornerOf whole)
    (inside : corner.Inside) (apart : corner.components.Apart)
    (grids : p.grids = corner.components.grids) (whole_inside : whole.Inside)
    (hs : s ∈ corner.components.grids.sites) : whole.picture.valueAt s = p.valueAt s := by
  have shown := picture_paint inside apart grids
  have hs : s ∈ (corner.paint p).components.grids.sites := hs
  rw [← shown.valueAt (by rwa [grids_picture]), valueAt_picture whole_inside (h.sites hs),
    valueAt_picture (inside.paint p) hs, h.pieces, h.byteAt hs]

end CornerOf

variable {c d : Canvas} {s : Site}

/-- Canvases with their grids in the same places keep each sample in the same byte. -/
theorem byteAt_of_room (components : d.components = c.components)
    (room : d.planes.map Plane.room = c.planes.map Plane.room) : d.byteAt = c.byteAt := by
  funext s
  simp only [byteAt, components]
  split
  · exact congrArg (· + _) (startOf_pieces room _)
  · rfl

/-- A sample stays as it was if its byte does. -/
theorem valueAt_of_room (inside : c.Inside) (components : d.components = c.components)
    (room : d.planes.map Plane.room = c.planes.map Plane.room)
    (hs : s ∈ c.components.grids.sites)
    (same : (join d.pieces).getD (c.byteAt s) 0 = (join c.pieces).getD (c.byteAt s) 0) :
    d.picture.valueAt s = c.picture.valueAt s := by
  have inside' : d.Inside := fun place member =>
    (inside place (components ▸ member)).of_room room
  rw [valueAt_picture inside' (components ▸ hs), valueAt_picture inside hs,
    byteAt_of_room components room, same]

end Canvas

/-! ## Corners of frames -/

namespace Frame

variable {f region : Frame} {c corner : Canvas} {size : Size}

/-- The top-left samples of a frame, up to a size: of chroma the corner of half that size. -/
def cornerSites (f : Frame) (size : Size) : Set Site := (f.format.grids size).sites

/-- The bytes of all planes together that hold the top-left samples. -/
def cornerBytes (f : Frame) (size : Size) : Set Nat :=
  { i | ∃ c, f.canvas = .ok c ∧ ∃ s ∈ f.cornerSites size, c.byteAt s = i }

theorem cornerBytes_of_canvas (h : f.canvas = .ok c) (size : Size) :
    f.cornerBytes size = c.byteAt '' f.cornerSites size := by
  ext i
  constructor
  · rintro ⟨d, hd, i_at⟩
    obtain rfl := Except.ok.inj (h.symm.trans hd)
    exact i_at
  · exact fun i_at => ⟨c, h, i_at⟩

/-- Nothing but the bytes of the corner differs. -/
structure KeepsBeside (before : Frame) (size : Size) (after : Frame) : Prop where
  metadata : after.metadata = before.metadata
  room : after.planes.map Plane.room = before.planes.map Plane.room
  bytes : ∀ i ∉ before.cornerBytes size, after.memory.getD i 0 = before.memory.getD i 0

theorem KeepsBeside.refl (f : Frame) (size : Size) : f.KeepsBeside size f where
  metadata := rfl
  room := rfl
  bytes _ _ := rfl

/-- The corner shows a picture, and all other samples and bytes are as before. -/
structure ShowsInCorner (before : Frame) (size : Size) (image : Picture) (after : Frame) : Prop
    extends KeepsBeside before size after where
  within : before.cornerSites size ⊆ (before.format.grids before.size).sites
  shows : ∃ old shown, before.picture = .ok old ∧ after.picture = .ok shown ∧
    (∀ s ∈ before.cornerSites size, shown.valueAt s = image.valueAt s) ∧
      ∀ s ∈ (before.format.grids before.size).sites, s ∉ before.cornerSites size →
        shown.valueAt s = old.valueAt s

/-- Pictures that agree show in a corner alike. -/
theorem ShowsInCorner.congr {before after : Frame} {image image' : Picture}
    (h : before.ShowsInCorner size image after) (agree : image.Agree image')
    (grids : image.grids = before.format.grids size) : before.ShowsInCorner size image' after where
  toKeepsBeside := h.toKeepsBeside
  within := h.within
  shows := by
    obtain ⟨old, shown, hold, hshown, corner, beside⟩ := h.shows
    refine ⟨old, shown, hold, hshown, fun s hs => ?_, beside⟩
    rw [corner s hs, agree.valueAt (grids ▸ hs)]

/-- A frame with a region lies on the planes of that region. -/
theorem canvas_of_topLeft (h : f.topLeft size = .ok region) :
    f.canvas = .ok (.ofPlanes region.planes f.size f.format) := by
  have nonempty := (fitsInto_of_topLeft h).1.whole_nonempty
  exact canvas_eq_ok.2 ⟨_, expandedPlanes_of_topLeft h, by simp [nonempty], rfl⟩

theorem cornerOf_topLeft (h : f.topLeft size = .ok region) (hcorner : region.writable = .ok corner)
    (hc : f.canvas = .ok c) : corner.CornerOf c := by
  obtain rfl := Except.ok.inj ((canvas_of_topLeft h).symm.trans hc)
  obtain rfl := canvas_topLeft h hcorner
  exact ⟨rfl, Canvas.ofPlanes_cornerOf (fitsInto_of_topLeft h).1 region.planes f.format⟩

/-- A sound frame has a region of every size that fits, and a fresh frame can have that size. -/
theorem Sound.region_and_fresh (sound : f.Sound) (fits : size.FitsInto f.size) :
    ∃ region fresh, f.topLeft size = .ok region ∧
      zeroed ⟨size, f.orientation, f.format⟩ = .ok fresh ∧ fresh.Sound ∧
        fresh.metadata = ⟨size, f.orientation, f.format⟩ := by
  obtain ⟨c, writable, -⟩ := sound
  obtain ⟨planes, expanded, -, -⟩ := canvas_eq_ok.1 (writable_eq_ok.1 writable).1
  obtain ⟨region, taken, -⟩ := topLeft_eq_ok expanded fits
  obtain ⟨fresh, hfresh, fresh_sound, metadata⟩ :=
    exists_zeroed ⟨size, f.orientation, f.format⟩ fits.nonempty f.format_ne_unknown
  exact ⟨region, fresh, taken, hfresh, fresh_sound, metadata⟩

/-- The sites of a region are those of the corner. -/
theorem sites_topLeft (h : f.topLeft size = .ok region) (hcorner : region.writable = .ok corner) :
    corner.components.grids.sites = f.cornerSites size := by
  obtain ⟨region_size, -, region_format⟩ := Metadata.mk.inj (fitsInto_of_topLeft h).2
  rw [grids_canvas (writable_eq_ok.1 hcorner).1, region_size, region_format, cornerSites]

/-- The samples of a region lie in the bytes of the corner. -/
theorem footprint_topLeft (h : f.topLeft size = .ok region)
    (hcorner : region.writable = .ok corner) : corner.footprint = f.cornerBytes size := by
  have hc := canvas_of_topLeft h
  rw [(cornerOf_topLeft h hcorner hc).footprint, sites_topLeft h hcorner, cornerBytes_of_canvas hc]

/-- With a painted region a frame keeps its grids where they were, on the painted planes. -/
theorem canvas_withRegion_painted (h : f.topLeft size = .ok region)
    (hcorner : region.writable = .ok corner) (hc : f.canvas = .ok c) (p : Picture) :
    ∃ total, (f.withRegion (region.painted corner p)).canvas = .ok total ∧
      (corner.paint p).CornerOf total ∧ total.components = c.components ∧
        total.planes.map Plane.room = c.planes.map Plane.room := by
  have corner_of := cornerOf_topLeft h hcorner hc
  have room := Canvas.room_paint (writable_eq_ok.1 hcorner).2 p
  rw [corner_of.planes] at room
  refine ⟨{ c with planes := (corner.paint p).planes }, ?_, ⟨rfl, corner_of.grids⟩, rfl, room⟩
  rw [withRegion_painted h hcorner]
  exact canvas_withParts hc room

end Frame

/-! ## Drawn regions -/

namespace Outcome.Draws

variable {r : Outcome} {image : Picture} {f region : Frame} {size : Size}

/-- A request that draws into a region changes no byte of the frame but those of the corner. -/
theorem keepsBeside (h : r.Draws image region) (taken : f.topLeft size = .ok region) :
    f.KeepsBeside size (r.inRegionOf f).frame := by
  obtain ⟨corner, hcorner, rfl⟩ := h.painted
  have hc := Frame.canvas_of_topLeft taken
  obtain ⟨total, htotal, painted, -, -⟩ :=
    Frame.canvas_withRegion_painted taken hcorner hc image
  refine ⟨rfl, ?_, fun i free => ?_⟩
  · exact Frame.room_withParts (Frame.expandedPlanes_of_topLeft taken)
      (Frame.room_painted hcorner image)
  · rw [← Frame.footprint_topLeft taken hcorner] at free
    have kept := Canvas.getD_paint_of_not_mem (Frame.writable_eq_ok.1 hcorner).2 image free
    rw [painted.pieces, (Frame.cornerOf_topLeft taken hcorner hc).pieces] at kept
    rwa [← Frame.memory_of_canvas htotal, ← Frame.memory_of_canvas hc] at kept

/-- A request that draws into a region of a sound frame leaves its image in the corner. -/
theorem showsInCorner (h : r.Draws image region) (taken : f.topLeft size = .ok region)
    (sound : f.Sound) : f.ShowsInCorner size image (r.inRegionOf f).frame := by
  have kept := h.keepsBeside taken
  obtain ⟨c, writable, apart⟩ := sound
  obtain ⟨hc, inside⟩ := Frame.writable_eq_ok.1 writable
  obtain ⟨corner, hcorner, rfl⟩ := h.painted
  obtain ⟨corner_canvas, corner_inside⟩ := Frame.writable_eq_ok.1 hcorner
  have corner_of := Frame.cornerOf_topLeft taken hcorner hc
  have corner_sites := Frame.sites_topLeft taken hcorner
  obtain ⟨total, htotal, painted, components, room⟩ :=
    Frame.canvas_withRegion_painted taken hcorner hc image
  have total_inside : total.Inside :=
    fun place member => (inside place (components ▸ member)).of_room room
  have within := corner_of.sites
  rw [corner_sites, Frame.grids_canvas hc] at within
  refine ⟨kept, within, _, _, Frame.picture_eq_ok.2 ⟨c, Frame.readable_iff_writable.2 writable, rfl⟩,
    Frame.picture_eq_ok.2 ⟨total, Frame.readable_eq_ok.2 ⟨htotal, total_inside⟩, rfl⟩,
    fun s hs => ?corner, fun s hs free => ?beside⟩
  case corner =>
    exact painted.valueAt_painted corner_inside (Component.apart_corners corner_of.grids apart)
      (h.grids.trans (Frame.grids_canvas corner_canvas).symm) total_inside (corner_sites ▸ hs)
  case beside =>
    have hs : s ∈ c.components.grids.sites := by rwa [Frame.grids_canvas hc]
    refine Canvas.valueAt_of_room inside components room hs ?_
    rw [← Frame.memory_of_canvas htotal, ← Frame.memory_of_canvas hc]
    refine kept.bytes _ ?_
    -- its byte belongs to this sample alone
    rw [Frame.cornerBytes_of_canvas hc]
    rintro ⟨t, ht, same⟩
    rw [← corner_sites] at ht
    obtain rfl := Canvas.injOn_byteAt inside apart (corner_of.sites ht) hs same
    exact free (corner_sites ▸ ht)

end Outcome.Draws

/-! ## Requests -/

/-- A request did with the corner of a frame what another did with a frame of its own: it ended
alike, and where both succeeded, the corner shows the picture of that frame. -/
structure Outcome.FillsCorner (r : Outcome) (whole : Frame) (size : Size) (alone : Outcome) :
    Prop where
  status : r.status = alone.status
  failed : ∀ e, alone.status = .error e → r.frame = whole
  drawn : alone.status = .ok () → ∃ image, alone.frame.picture = .ok image ∧
    whole.ShowsInCorner size image r.frame

namespace Outcome.Paints

variable {fill : Frame → Outcome} {whole region fresh : Frame} {size : Size}

/-- Whether it succeeds or fails, a request into a region keeps what lies beside it. -/
theorem keepsBeside (paints : Paints fill) (clean : (fill region).Clean region)
    (taken : whole.topLeft size = .ok region) :
    whole.KeepsBeside size ((fill region).inRegionOf whole).frame := by
  cases status : (fill region).status with
  | error e =>
    have same := (clean e status).2
    have kept : ((fill region).inRegionOf whole).frame = whole := by
      rw [inRegionOf, same, Frame.withRegion_topLeft taken]
    rw [kept]
    exact .refl whole size
  | ok u =>
    obtain ⟨image, drawn, -⟩ := paints.exists_image status
    exact drawn.keepsBeside taken

/-- A request fills the region of a sound frame as it fills a sound frame of that size. -/
theorem fillsCorner (paints : Paints fill) (clean : (fill region).Clean region)
    (taken : whole.topLeft size = .ok region) (sound : whole.Sound) (fresh_sound : fresh.Sound)
    (metadata : fresh.metadata = ⟨size, whole.orientation, whole.format⟩) :
    ((fill region).inRegionOf whole).FillsCorner whole size (fill fresh) := by
  have same := (Frame.fitsInto_of_topLeft taken).2.trans metadata.symm
  obtain ⟨status, -⟩ := paints.overwrites (sound.topLeft taken) fresh_sound same
  refine ⟨status, fun e h => ?_, fun h => ?_⟩
  · rw [inRegionOf, (clean e (status.trans h)).2]
    exact Frame.withRegion_topLeft taken
  · have ⟨c, writable, _⟩ := fresh_sound
    obtain ⟨image, drawn, others⟩ := paints.exists_image (status.trans h)
    obtain ⟨shown, hshown, agree⟩ := (others fresh c same.symm writable).shows fresh_sound
    obtain ⟨region_size, -, region_format⟩ := Metadata.mk.inj (Frame.fitsInto_of_topLeft taken).2
    have grids := drawn.grids
    rw [region_size, region_format] at grids
    exact ⟨shown, hshown, (drawn.showsInCorner taken sound).congr agree.symm grids⟩

end Outcome.Paints

namespace Engine

/-- A proportional crop is a crop into the region of the fitted picture. -/
theorem perform_uniform {crop : Box} {whole region : Frame}
    (taken : whole.topLeft (uniformFit crop.size whole.size) = .ok region) (scaled : Size)
    (input : Frame) :
    (software.perform (.uniformCropResize crop scaled) input whole : Outcome) =
      (software.perform (.cropResize crop (uniformFit crop.size whole.size)) input region :
        Outcome).inRegionOf whole := by
  show software.cropUniformly crop input whole = _
  unfold cropUniformly
  rw [taken]
  rfl

/-- A proportional crop keeps what lies beside the fitted picture. -/
theorem perform_uniform_keepsBeside (crop : Box) (scaled : Size) (input whole : Frame) :
    whole.KeepsBeside (uniformFit crop.size whole.size)
      (software.perform (.uniformCropResize crop scaled) input whole : Outcome).frame := by
  cases taken : whole.topLeft (uniformFit crop.size whole.size) with
  | ok region =>
    rw [perform_uniform taken]
    exact (cropBox_paints crop input).keepsBeside (cropBox_clean crop input region) taken
  | error e =>
    have kept : (software.perform (.uniformCropResize crop scaled) input whole : Outcome).frame =
        whole := by
      show (software.cropUniformly crop input whole : Outcome).frame = _
      unfold cropUniformly
      rw [taken]
      rfl
    rw [kept]
    exact .refl whole _

end Engine

/-- A request into the top-left region of a frame changes no byte but those of the samples there,
and so does a proportional crop. If the grids of the frame lie apart, there is a region of every
size that fits. A request ends there as it ends on a fresh frame of that size, and if it succeeds,
the frame shows in its corner what the fresh frame shows. A proportional crop leaves there the
crop, scaled to the fitted size. -/
theorem Request.serve_corner (whole : Frame) :
    (∀ size region, whole.topLeft size = .ok region → ∀ (r : Request) (input : Frame),
      r.FillsOutput → whole.KeepsBeside size
        ((r.serve Engine.software input region : Outcome).inRegionOf whole).frame) ∧
    (∀ crop scaled input, whole.KeepsBeside (uniformFit crop.size whole.size)
      (Engine.software.perform (.uniformCropResize crop scaled) input whole : Outcome).frame) ∧
    (whole.Sound →
      (∀ size, size.FitsInto whole.size → ∃ region fresh, whole.topLeft size = .ok region ∧
        Frame.zeroed ⟨size, whole.orientation, whole.format⟩ = .ok fresh ∧
          ∀ (r : Request) (input : Frame), r.FillsOutput →
            let filled : Outcome := r.serve Engine.software input region
            let alone : Outcome := r.serve Engine.software input fresh
            (alone.status = .ok () → filled.frame.Alike alone.frame) ∧
              (filled.inRegionOf whole).FillsCorner whole size alone) ∧
      ∀ crop scaled input, ∃ fresh,
        let fit := uniformFit crop.size whole.size
        Frame.zeroed ⟨fit, whole.orientation, whole.format⟩ = .ok fresh ∧
          (Engine.software.perform (.uniformCropResize crop scaled) input whole :
            Outcome).FillsCorner whole fit
              (Engine.software.perform (.cropResize crop fit) input fresh)) := by
  refine ⟨fun size region taken r input fills => ?_, fun crop scaled input => ?_, fun sound => ?_⟩
  · exact (serve_paints fills input).keepsBeside (r.serve_clean input region) taken
  · exact Engine.perform_uniform_keepsBeside crop scaled input whole
  constructor
  · intro size fits
    obtain ⟨region, fresh, taken, hfresh, fresh_sound, metadata⟩ := sound.region_and_fresh fits
    have same := (Frame.fitsInto_of_topLeft taken).2.trans metadata.symm
    refine ⟨region, fresh, taken, hfresh, fun r input fills => ⟨fun done => ?_, ?_⟩⟩
    · have ⟨status, alike⟩ :=
        (serve_paints fills input).overwrites (sound.topLeft taken) fresh_sound same
      exact alike (status.trans done)
    · exact (serve_paints fills input).fillsCorner (r.serve_clean input region) taken sound
        fresh_sound metadata
  · intro crop scaled input
    have ⟨c, writable, _⟩ := sound
    have fits := Engine.uniformFit_fitsInto crop.size (Frame.nonempty_of_writable writable)
    obtain ⟨region, fresh, taken, hfresh, fresh_sound, metadata⟩ := sound.region_and_fresh fits
    refine ⟨fresh, hfresh, ?_⟩
    rw [Engine.perform_uniform taken]
    exact (Engine.cropBox_paints crop input).fillsCorner (Engine.cropBox_clean crop input region)
      taken sound fresh_sound metadata

/-- One pixel converted into the corner of a row that keeps luma and chroma in one plane: its
luma and the chroma that it shares with the next pixel change, and nothing else does. -/
theorem Request.serve_corner_strip :
    let whole := Frame.nv12Strip 99
    ∃ region fresh, whole.topLeft ⟨1, 1⟩ = .ok region ∧
      Frame.zeroed ⟨⟨1, 1⟩, .topLeft, .nv12⟩ = .ok fresh ∧
        let filled : Outcome := (call .convert).serve Engine.software (.rgbDot 11 255 2) region
        let alone : Outcome := (call .convert).serve Engine.software (.rgbDot 11 255 2) fresh
        (filled.inRegionOf whole).status = .ok () ∧
          (filled.inRegionOf whole).frame.memory = #[148, 2, 3, 99, 99, 54, 39, 11, 21, 99] ∧
            (filled.inRegionOf whole).FillsCorner whole ⟨1, 1⟩ alone := by
  intro whole
  have writable : ∃ c, (Frame.nv12Strip 99).writable = .ok c := ⟨_, rfl⟩
  obtain ⟨c, hc⟩ := writable
  have sound : whole.Sound := ⟨c, hc, Frame.apart_of_single rfl rfl hc⟩
  obtain ⟨regions, -⟩ := (Request.serve_corner whole).2.2 sound
  obtain ⟨region, fresh, taken, hfresh, fills⟩ := regions ⟨1, 1⟩ ⟨rfl, by decide, by decide⟩
  refine ⟨region, fresh, taken, hfresh, ?_⟩
  obtain ⟨-, filled⟩ := fills (call .convert) (.rgbDot 11 255 2) trivial
  obtain rfl := Except.ok.inj (show Except.ok _ = Except.ok region from taken)
  exact ⟨by decide +kernel, by decide +kernel, filled⟩

end Raster
