import Raster.Engine.Checked
import Raster.Proofs.Engine.Precondition
import Raster.Proofs.Frame.Canvas
import Raster.Proofs.Samples.Colour
import Raster.Proofs.Samples.Motion
import Raster.Proofs.Samples.Taps

/-!
# What primitives make of pictures

Once its precondition holds, a primitive is a function of the picture of its input and
of the grids of its output. No check of a kernel can fail then, on luma or on chroma: the
only request that passes its precondition and has no image is gray into YUV.

Pictures that agree have images that agree as long as no tap names a sample beyond the region that
is scaled. What lies beyond it is no part of the picture.

* `Move.grid`, `Move.chromaGrid` — a move of one grid, without the checks.
* `Move.image`, `Picture.recoloured`, `Primitive.image` — of a whole picture.
* `Primitive.StaysInside` — sizes between which no tap of a primitive leaves its region.

Results: `Primitive.strokes_eq` (the strokes are the grids of the image),
`Primitive.staysInside_of_short` (no tap leaves a frame of up to `2 ^ 24 + 1` pixels a side) and
`Primitive.image_agree` (pictures that agree have images that agree).
-/

namespace Raster

/-! ## Moves of one grid -/

namespace Move

/-- What a move makes of a grid of full resolution. -/
def grid (m : Move) (source : Samples) (target : Extent) : Samples :=
  match m with
  | crop x0 y0 x1 y1 => source.scaled .centred (cropRegion x0 y0 x1 y1) target
  | resize => source.scaled .centred source.wholeRegion target
  | resizeNearest => source.nearest source.wholeRegion target
  | rotate degrees => source.pull target (Samples.rotationSource (degrees / 90) source.size)
  | flip .horizontal => source.pull target fun x y => (target.width - 1 - x, y)
  | flip .vertical => source.pull target fun x y => (x, target.height - 1 - y)

/-- What a move makes of a chroma grid. -/
def chromaGrid (m : Move) (source : Samples) (target : Extent) : Samples :=
  match m with
  | crop x0 y0 x1 y1 => source.scaled .centred (chromaCropRegion x0 y0 x1 y1 source.size) target
  | _ => m.grid source target

variable {m : Move} {source other : Samples} {target : Extent} {size targetSize : Size}

@[simp] theorem toExtent_grid (m : Move) (source : Samples) (target : Extent) :
    (m.grid source target).toExtent = target := by
  cases m with
  | crop x0 y0 x1 y1 =>
    unfold grid Samples.scaled
    dsimp only
    split <;> rfl
  | resize =>
    unfold grid Samples.scaled
    dsimp only
    split <;> rfl
  | resizeNearest => rfl
  | rotate degrees => rfl
  | flip axis => cases axis <;> rfl

@[simp] theorem toExtent_chromaGrid (m : Move) (source : Samples) (target : Extent) :
    (m.chromaGrid source target).toExtent = target := by
  unfold chromaGrid
  split
  · unfold Samples.scaled
    split <;> rfl
  · exact toExtent_grid m source target

theorem cropRegion_within {x0 y0 x1 y1 : Nat} (suits : (crop x0 y0 x1 y1).Suits size targetSize)
    {e : Extent} (he : e.size = size) : (cropRegion x0 y0 x1 y1).Within e := by
  obtain ⟨hx, right, hy, bottom⟩ := suits
  subst he
  simp only [Extent.size] at right bottom
  constructor <;> simp only [cropRegion] <;> omega

/-- The corner of a crop lies in a sample of the halved grid. -/
theorem chromaCropRegion_within {x0 y0 x1 y1 : Nat}
    (suits : (crop x0 y0 x1 y1).Suits size targetSize) {e : Extent} (he : e.size = size.halved) :
    (chromaCropRegion x0 y0 x1 y1 e.size).Within e := by
  obtain ⟨hx, right, hy, bottom⟩ := suits
  obtain ⟨width, height⟩ := Size.mk.inj he
  constructor <;> simp only [chromaCropRegion, Extent.size, width, height] <;> omega

/-- The quarter turns of a right angle decide whether the sides trade places. -/
theorem rotate_size {degrees : Nat} (suits : (rotate degrees).Suits size targetSize) :
    targetSize = if degrees / 90 % 2 = 1 then size.swapped else size := by
  obtain ⟨⟨below, right⟩, hsize⟩ := suits
  rw [hsize]
  split
  · rw [if_pos (by omega)]
  · rw [if_neg (by omega)]

/-- The sizes of chroma grids suit a move that takes no region from them. -/
theorem Suits.halved (suits : m.Suits size targetSize) (region : ∀ x0 y0 x1 y1, m ≠ crop x0 y0 x1 y1) :
    m.Suits size.halved targetSize.halved := by
  cases m with
  | crop x0 y0 x1 y1 => exact absurd rfl (region x0 y0 x1 y1)
  | resize => trivial
  | resizeNearest => trivial
  | rotate degrees =>
    obtain ⟨angle, rfl⟩ := suits
    refine ⟨angle, ?_⟩
    split <;> rfl
  | flip axis => exact congrArg Size.halved suits

/-- Only a crop treats chroma in its own way. -/
theorem chromaGrid_eq_grid (region : ∀ x0 y0 x1 y1, m ≠ crop x0 y0 x1 y1) :
    m.chromaGrid source target = m.grid source target := by
  cases m with
  | crop x0 y0 x1 y1 => exact absurd rfl (region x0 y0 x1 y1)
  | resize => rfl
  | resizeNearest => rfl
  | rotate degrees => rfl
  | flip axis => rfl

theorem chromaRegion?_eq_region? (region : ∀ x0 y0 x1 y1, m ≠ crop x0 y0 x1 y1) :
    m.chromaRegion? size = m.region? size := by
  cases m with
  | crop x0 y0 x1 y1 => exact absurd rfl (region x0 y0 x1 y1)
  | resize => rfl
  | resizeNearest => rfl
  | rotate degrees => rfl
  | flip axis => rfl

theorem onGrid_eq_ok (suits : m.Suits size targetSize) (nonempty : size.isEmpty = false)
    (hsource : source.size = size) (htarget : target.size = targetSize)
    (feeds : source.Feeds target) : m.onGrid source target = .ok (m.grid source target) := by
  have whole := Samples.wholeRegion_within nonempty hsource
  cases m with
  | crop x0 y0 x1 y1 => exact Samples.resizeWith_eq_ok feeds (cropRegion_within suits hsource)
  | resize => exact Samples.resizeWith_eq_ok feeds whole
  | resizeNearest => exact Samples.resizeNearest_eq_ok feeds whole
  | rotate degrees =>
    have turned := rotate_size suits
    rw [← hsource, ← htarget] at turned
    exact Samples.rotateCcw_eq_ok feeds turned
  | flip axis =>
    have same : source.size = target.size := by
      rw [hsource, htarget]
      exact suits
    cases axis with
    | horizontal => exact Samples.mirrorHorizontal_eq_ok feeds same
    | vertical => exact Samples.mirrorVertical_eq_ok feeds same

theorem onChroma_eq_ok (suits : m.Suits size targetSize) (nonempty : size.isEmpty = false)
    (hsource : source.size = size.halved) (htarget : target.size = targetSize.halved)
    (feeds : source.Feeds target) : m.onChroma source target = .ok (m.chromaGrid source target) := by
  have half : size.halved.isEmpty = false := by rwa [Size.isEmpty_halved]
  unfold onChroma
  split
  · exact Samples.resizeWith_eq_ok feeds (chromaCropRegion_within suits hsource)
  · next region =>
    rw [chromaGrid_eq_grid region]
    exact onGrid_eq_ok (suits.halved region) half hsource htarget feeds

/-- A move reads inside of the grid that it is given, if its taps do. -/
theorem grid_agree (suits : m.Suits size targetSize) (nonempty : size.isEmpty = false)
    (spans : ∀ r ∈ m.region? size, Tap.centred.Spans r.size targetSize)
    (hsource : source.size = size) (htarget : target.size = targetSize) (h : source.Agree other) :
    (m.grid source target).Agree (m.grid other target) := by
  have whole := Samples.wholeRegion_within nonempty hsource
  have same_whole : other.wholeRegion = source.wholeRegion := by
    rw [Samples.wholeRegion, Samples.wholeRegion, h.extent]
  cases m with
  | crop x0 y0 x1 y1 => exact h.scaled (htarget ▸ spans _ rfl) (cropRegion_within suits hsource)
  | resize =>
    have covers : source.wholeRegion.size = size := hsource
    simp only [grid, same_whole]
    exact h.scaled (by rw [covers, htarget]; exact spans _ rfl) whole
  | resizeNearest =>
    simp only [grid, same_whole]
    exact h.nearest whole
  | rotate degrees =>
    have turned := rotate_size suits
    rw [← hsource, ← htarget] at turned
    simp only [grid, ← h.extent]
    refine h.pull fun x y hx hy => ?_
    exact Rotation.rotationSource_lt (turned ▸ hx) (turned ▸ hy)
  | flip axis =>
    have same : source.size = target.size := by
      rw [hsource, htarget]
      exact suits
    obtain ⟨width, height⟩ := Size.mk.inj same
    cases axis with
    | horizontal =>
      refine h.pull fun x y hx hy => ?_
      constructor <;> dsimp only <;> omega
    | vertical =>
      refine h.pull fun x y hx hy => ?_
      constructor <;> dsimp only <;> omega

theorem chromaGrid_agree (suits : m.Suits size targetSize) (nonempty : size.isEmpty = false)
    (spans : ∀ r ∈ m.chromaRegion? size.halved, Tap.centred.Spans r.size targetSize.halved)
    (hsource : source.size = size.halved) (htarget : target.size = targetSize.halved)
    (h : source.Agree other) : (m.chromaGrid source target).Agree (m.chromaGrid other target) := by
  have half : size.halved.isEmpty = false := by rwa [Size.isEmpty_halved]
  unfold chromaGrid
  split
  · rw [← h.extent]
    exact h.scaled (htarget ▸ spans _ (by rw [← hsource]; rfl))
      (chromaCropRegion_within suits hsource)
  · next region =>
    rw [chromaRegion?_eq_region? region] at spans
    exact grid_agree (suits.halved region) half spans hsource htarget h

end Move

/-! ## Images -/

/-- What a move makes of a picture. Packed pixels are narrowed to the channels of the
target. Packed and YUV grids do not mix, and no move of frames asks for that. -/
def Move.image (m : Move) (source : Picture) (target : Grids) : Picture :=
  match source, target with
  | .packed pixels, .packed extent =>
    .packed (m.grid (pixels.take (min extent.channels pixels.channels)) extent)
  | .yuv y u v, .yuv ey eu ev => .yuv (m.grid y ey) (m.chromaGrid u eu) (m.chromaGrid v ev)
  | source, _ => source

/-- What a conversion makes of a picture. -/
def Picture.recoloured (source : Picture) (target : Grids) : Except Error Picture :=
  match source, target with
  | .packed pixels, .packed extent => .ok (.packed (pixels.repacked extent))
  | .yuv y u v, .packed extent =>
    .ok (.packed (if extent.channels = 1 then y.part 0 0 extent else .coloured y u v extent))
  | .packed pixels, .yuv ey eu ev =>
    if pixels.channels < 3 then .error (.unimplemented .grayToYuv)
    else .ok (.yuv (pixels.luma ey) (pixels.chroma blueOfRgb eu) (pixels.chroma redOfRgb ev))
  | .yuv y u v, .yuv ey eu ev => .ok (.yuv (y.part 0 0 ey) (u.part 0 0 eu) (v.part 0 0 ev))

/-- What a primitive makes of a picture. -/
def Primitive.image (p : Primitive) (source : Picture) (target : Grids) : Except Error Picture :=
  match p with
  | move m => .ok (m.image source target)
  | convert => source.recoloured target

/-- An image as strokes. Without an image the first place tells why there is none. -/
def Components.strokes (c : Components) : Except Error Picture → List Stroke
  | .ok image => (c.list.zip image.list).map fun grid => (grid.1, .ok grid.2)
  | .error e => (c.list.take 1).map fun place => (place, .error e)

/-! ## Strokes of an accepted request -/

/-- Compatible formats are both packed, and then no channel but alpha is missing, or both YUV. -/
theorem Format.channels_of_compatible {a b : Format} (h : a.compatible b = true) :
    (∃ n k, a.channels = some n ∧ b.channels = some k ∧ (k ≤ n ∨ n = 3 ∧ k = 4)) ∨
      (a.channels = none ∧ b.channels = none) := by
  cases a <;> cases b <;> first
    | exact absurd h (by decide)
    | exact .inr ⟨rfl, rfl⟩
    | exact .inl ⟨_, _, rfl, rfl, by decide⟩

theorem Samples.feeds_of_eq {source : Samples} {target : Extent} {size targetSize : Size}
    {channels : Nat} (hs : source.toExtent = ⟨size.width, size.height, channels⟩)
    (ht : target = ⟨targetSize.width, targetSize.height, channels⟩) : source.Feeds target := by
  rw [Feeds, hs, ht]
  exact .inl (Nat.le_refl _)

/-- Grids narrowed to some of their channels have the same size. -/
theorem Samples.size_take {s : Samples} {size : Size} {channels : Nat}
    (h : s.toExtent = ⟨size.width, size.height, channels⟩) (n : Nat) : (s.take n).size = size := by
  rw [← Extent.size_eq h]
  rfl

variable {source other : Picture} {target : Components} {size targetSize : Size}
  {format targetFormat : Format}

/-- The two shapes that a picture and the grids of its image have in common: pixels on both
sides, and no channel but alpha is missing, or luma and chroma on both sides. -/
theorem Picture.eq_of_compatible (compatible : format.compatible targetFormat = true)
    (hsource : source.grids = format.grids size) (targetSize : Size) :
    (∃ s n k, source = .packed s ∧ s.toExtent = ⟨size.width, size.height, n⟩ ∧
      targetFormat.grids targetSize = .packed ⟨targetSize.width, targetSize.height, k⟩ ∧
        (k ≤ n ∨ n = 3 ∧ k = 4)) ∨
    ∃ y u v, source = .yuv y u v ∧ y.toExtent = ⟨size.width, size.height, 1⟩ ∧
      u.toExtent = ⟨size.halved.width, size.halved.height, 1⟩ ∧
      v.toExtent = ⟨size.halved.width, size.halved.height, 1⟩ ∧
        targetFormat.grids targetSize = .yuv ⟨targetSize.width, targetSize.height, 1⟩
          ⟨targetSize.halved.width, targetSize.halved.height, 1⟩
          ⟨targetSize.halved.width, targetSize.halved.height, 1⟩ := by
  rcases Format.channels_of_compatible compatible with ⟨n, k, hn, hk, enough⟩ | ⟨hn, hk⟩
  · rw [Format.grids_packed hn] at hsource
    obtain ⟨s, rfl, hs⟩ := Picture.eq_packed hsource
    exact .inl ⟨s, n, k, rfl, hs, Format.grids_packed hk targetSize, enough⟩
  · rw [Format.grids_yuv hn] at hsource
    obtain ⟨y, u, v, rfl, hy, hu, hv⟩ := Picture.eq_yuv hsource
    exact .inr ⟨y, u, v, rfl, hy, hu, hv, Format.grids_yuv hk targetSize⟩

theorem Move.strokes_eq {m : Move} (compatible : format.compatible targetFormat = true)
    (suits : m.Suits size targetSize) (nonempty : size.isEmpty = false)
    (hsource : source.grids = format.grids size)
    (htarget : target.grids = targetFormat.grids targetSize) :
    m.strokes source target = some (target.strokes (.ok (m.image source target.grids))) := by
  rcases Picture.eq_of_compatible compatible hsource targetSize with
    ⟨s, n, k, rfl, hs, grids, enough⟩ | ⟨y, u, v, rfl, hy, hu, hv, grids⟩
  · rw [grids] at htarget
    obtain ⟨place, rfl, hp⟩ := Components.eq_packed htarget
    have feeds : (s.take (min place.extent.channels s.channels)).Feeds place.extent := by
      rw [hs, hp]
      show k ≤ min k n ∨ (min k n = 3 ∧ k = 4)
      omega
    show some [(place, m.onGrid _ place.extent)] = _
    rw [onGrid_eq_ok suits nonempty (Samples.size_take hs _) (Extent.size_eq hp) feeds]
    rfl
  · rw [grids] at htarget
    obtain ⟨py, pu, pv, rfl, hpy, hpu, hpv⟩ := Components.eq_yuv htarget
    show some [(py, m.onGrid y py.extent), (pu, m.onChroma u pu.extent),
      (pv, m.onChroma v pv.extent)] = _
    rw [onGrid_eq_ok suits nonempty (Extent.size_eq hy) (Extent.size_eq hpy)
        (Samples.feeds_of_eq hy hpy),
      onChroma_eq_ok suits nonempty (Extent.size_eq hu) (Extent.size_eq hpu)
        (Samples.feeds_of_eq hu hpu),
      onChroma_eq_ok suits nonempty (Extent.size_eq hv) (Extent.size_eq hpv)
        (Samples.feeds_of_eq hv hpv)]
    rfl

theorem Samples.copyRegion_same {s : Samples} {e : Extent} (h : s.toExtent = e) :
    s.copyRegion 0 0 e = .ok (s.part 0 0 e) := by
  subst h
  exact copyRegion_eq_ok (.inl (Nat.le_refl _)) (Nat.le_of_eq (Nat.zero_add _))
    (Nat.le_of_eq (Nat.zero_add _))

theorem Picture.converted_eq (hsource : source.grids = format.grids size)
    (htarget : target.grids = targetFormat.grids size) :
    source.converted target = target.strokes (source.recoloured target.grids) := by
  -- all grids of full resolution have this size, so the luma copies succeed
  cases hn : format.channels with
  | some n =>
    rw [Format.grids_packed hn] at hsource
    obtain ⟨s, rfl, hs⟩ := Picture.eq_packed hsource
    cases target with
    | packed place => rfl
    | yuv py pu pv =>
      simp only [converted, recoloured, Components.grids]
      split <;> rfl
  | none =>
    rw [Format.grids_yuv hn] at hsource
    obtain ⟨y, u, v, rfl, hy, hu, hv⟩ := Picture.eq_yuv hsource
    cases hk : targetFormat.channels with
    | some k =>
      rw [Format.grids_packed hk] at htarget
      obtain ⟨place, rfl, hp⟩ := Components.eq_packed htarget
      simp only [converted, recoloured, Components.grids]
      split
      · next gray =>
        have same : y.toExtent = place.extent := by
          rw [hp] at gray ⊢
          rw [hy, ← gray]
        rw [Samples.copyRegion_same same]
        rfl
      · rfl
    | none =>
      rw [Format.grids_yuv hk] at htarget
      obtain ⟨py, pu, pv, rfl, hpy, hpu, hpv⟩ := Components.eq_yuv htarget
      simp only [converted, recoloured, Components.grids]
      rw [Samples.copyRegion_same (hy.trans hpy.symm),
        Samples.copyRegion_same (hu.trans hpu.symm),
        Samples.copyRegion_same (hv.trans hpv.symm)]
      rfl

/-- The strokes of an accepted request paint its image. -/
theorem Primitive.strokes_eq {p : Primitive} {input output : Metadata}
    (accepts : p.Accepts input output) (hsource : source.grids = input.format.grids input.size)
    (htarget : target.grids = output.format.grids output.size) :
    p.strokes source target = some (target.strokes (p.image source target.grids)) := by
  cases p with
  | move m =>
    obtain ⟨compatible, suits⟩ := accepts.suits
    exact Move.strokes_eq compatible suits accepts.source_nonempty hsource htarget
  | convert =>
    obtain ⟨-, same⟩ := accepts.suits
    rw [← same] at htarget
    exact congrArg some (Picture.converted_eq hsource htarget)

/-! ## Taps that stay inside -/

/-- No tap of a move leaves the region of a grid that it scales. Only YUV has chroma. -/
structure Move.StaysInside (m : Move) (format : Format) (size targetSize : Size) : Prop where
  grid : ∀ r ∈ m.region? size, Tap.centred.Spans r.size targetSize
  chroma : format.channels = none →
    ∀ r ∈ m.chromaRegion? size.halved, Tap.centred.Spans r.size targetSize.halved

/-- A conversion has no taps, and a request that is refused reads nothing. -/
def Primitive.StaysInside (p : Primitive) (input output : Metadata) : Prop :=
  match p with
  | move m => (move m).Accepts input output → m.StaysInside input.format input.size output.size
  | convert => True

/-- Moves without taps stay inside. -/
theorem Move.staysInside_of_exact {m : Move} (format : Format) (size targetSize : Size)
    (noRegion : ∀ grid, m.region? grid = none) : m.StaysInside format size targetSize where
  grid r h := by simp [noRegion] at h
  chroma _ r h := by
    have region : ∀ x0 y0 x1 y1, m ≠ crop x0 y0 x1 y1 := by
      rintro x0 y0 x1 y1 rfl
      cases noRegion size
    simp [chromaRegion?_eq_region? region, noRegion] at h

theorem Move.staysInside_iff {m : Move} {r chroma : Region} (hr : m.region? size = some r)
    (hchroma : m.chromaRegion? size.halved = some chroma) :
    m.StaysInside format size targetSize ↔ Tap.centred.Spans r.size targetSize ∧
      (format.channels = none → Tap.centred.Spans chroma.size targetSize.halved) := by
  constructor
  · rintro ⟨h, h'⟩
    exact ⟨h r hr, fun yuv => h' yuv chroma hchroma⟩
  · rintro ⟨h, h'⟩
    refine ⟨fun r' found => ?_, fun yuv r' found => ?_⟩
    · obtain rfl := Option.some.inj (hr.symm.trans found)
      exact h
    · obtain rfl := Option.some.inj (hchroma.symm.trans found)
      exact h' yuv

/-- Equal sizes are copied. -/
theorem Move.resize_staysInside (format : Format) (size : Size) :
    resize.StaysInside format size size :=
  (staysInside_iff rfl rfl).2 ⟨.inl rfl, fun _ => .inl rfl⟩

/-- The region that an accepted move takes from a grid lies in the grid. -/
theorem Move.region?_within {m : Move} (suits : m.Suits size targetSize)
    (nonempty : size.isEmpty = false) {e : Extent} (he : e.size = size) {r : Region}
    (h : r ∈ m.region? size) : r.Within e := by
  cases m with
  | crop x0 y0 x1 y1 =>
    obtain rfl := Option.some.inj h
    exact cropRegion_within suits he
  | resize =>
    obtain rfl := Option.some.inj h
    obtain ⟨width, height⟩ := Size.isEmpty_eq_false.1 nonempty
    subst he
    exact ⟨width, height, by simp [Extent.size], by simp [Extent.size]⟩
  | resizeNearest => cases h
  | rotate degrees => cases h
  | flip axis => cases h

theorem Move.chromaRegion?_within {m : Move} (suits : m.Suits size targetSize)
    (nonempty : size.isEmpty = false) {e : Extent} (he : e.size = size.halved) {r : Region}
    (h : r ∈ m.chromaRegion? size.halved) : r.Within e := by
  by_cases region : ∀ x0 y0 x1 y1, m ≠ crop x0 y0 x1 y1
  · rw [chromaRegion?_eq_region? region] at h
    exact region?_within (suits.halved region) (by rwa [Size.isEmpty_halved]) he h
  · obtain ⟨x0, y0, x1, y1, rfl⟩ : ∃ x0 y0 x1 y1, m = crop x0 y0 x1 y1 := by simpa using region
    obtain rfl := Option.some.inj h
    rw [← he]
    exact chromaCropRegion_within suits he

/-- No tap leaves a region of a grid of up to `2 ^ 24 + 1` samples a side. -/
theorem Region.Within.spans {r : Region} {e : Extent} (within : r.Within e)
    (width : e.width ≤ 2 ^ 24 + 1) (height : e.height ≤ 2 ^ 24 + 1) (target : Size) :
    Tap.centred.Spans r.size target := by
  have right := within.right_le
  have bottom := within.bottom_le
  exact Tap.centred_spans within.width_pos within.height_pos (by omega) (by omega) target

/-- No tap leaves a frame of up to `2 ^ 24 + 1` pixels a side. -/
theorem Primitive.staysInside_of_short (p : Primitive) {input : Metadata}
    (width : input.size.width ≤ 2 ^ 24 + 1) (height : input.size.height ≤ 2 ^ 24 + 1)
    (output : Metadata) : p.StaysInside input output := by
  cases p with
  | convert => trivial
  | move m =>
    intro accepts
    obtain ⟨-, suits⟩ := accepts.suits
    constructor
    · intro r h
      have within := Move.region?_within suits accepts.source_nonempty
        (e := ⟨input.size.width, input.size.height, 1⟩) rfl h
      exact within.spans width height _
    · intro _ r h
      have within := Move.chromaRegion?_within suits accepts.source_nonempty
        (e := ⟨input.size.halved.width, input.size.halved.height, 1⟩) rfl h
      simp only [Size.halved] at within
      exact within.spans (by dsimp only; omega) (by dsimp only; omega) _

/-! ## Images of pictures that agree -/

theorem Move.image_agree {m : Move} (compatible : format.compatible targetFormat = true)
    (suits : m.Suits size targetSize) (nonempty : size.isEmpty = false)
    (inside : m.StaysInside format size targetSize)
    (hsource : source.grids = format.grids size) (h : source.Agree other) :
    (m.image source (targetFormat.grids targetSize)).Agree
      (m.image other (targetFormat.grids targetSize)) := by
  rcases Picture.eq_of_compatible compatible hsource targetSize with
    ⟨s, n, k, rfl, hs, grids, -⟩ | ⟨y, u, v, rfl, hy, hu, hv, grids⟩
  · rw [grids]
    cases h with
    | packed hp =>
      simp only [image, ← hp.extent]
      have narrowed := hp.take (Nat.min_le_right k s.channels)
      exact .packed (grid_agree suits nonempty inside.grid (Samples.size_take hs _) rfl narrowed)
  · rw [grids]
    cases h with
    | yuv luma blue red =>
      have chroma := inside.chroma (Picture.extents_of_yuv hsource).1
      exact .yuv (grid_agree suits nonempty inside.grid (Extent.size_eq hy) rfl luma)
        (chromaGrid_agree suits nonempty chroma (Extent.size_eq hu) rfl blue)
        (chromaGrid_agree suits nonempty chroma (Extent.size_eq hv) rfl red)

/-- Pixels that agree are converted alike, into pixels or into luma and chroma. -/
theorem Picture.recoloured_agree_packed {s t : Samples} {n : Nat}
    (hs : s.toExtent = ⟨size.width, size.height, n⟩) (positive : 0 < n) (pixels : s.Agree t) :
    SamePicture ((packed s).recoloured (targetFormat.grids size))
      ((packed t).recoloured (targetFormat.grids size)) := by
  cases hk : targetFormat.channels with
  | some k =>
    rw [Format.grids_packed hk]
    have channels : 0 < s.channels := by rwa [hs]
    exact .ok (.packed (pixels.repacked channels (by rw [hs]) (by rw [hs])))
  | none =>
    rw [Format.grids_yuv hk]
    simp only [recoloured, ← pixels.extent]
    split
    · exact .error _
    · next colours =>
      have colours : 3 ≤ s.channels := by omega
      have half_width : size.halved.width = (s.width + 1) / 2 := by
        rw [hs]
        rfl
      have half_height : size.halved.height = (s.height + 1) / 2 := by
        rw [hs]
        rfl
      exact .ok (.yuv (pixels.luma colours (by rw [hs]) (by rw [hs]))
        (pixels.chroma _ colours half_width half_height)
        (pixels.chroma _ colours half_width half_height))

/-- Luma and chroma that agree are converted alike, into pixels or grid by grid. -/
theorem Picture.recoloured_agree_yuv {y u v y' u' v' : Samples}
    (hy : y.toExtent = ⟨size.width, size.height, 1⟩)
    (hu : u.toExtent = ⟨size.halved.width, size.halved.height, 1⟩)
    (hv : v.toExtent = ⟨size.halved.width, size.halved.height, 1⟩)
    (luma : y.Agree y') (blue : u.Agree u') (red : v.Agree v') :
    SamePicture ((yuv y u v).recoloured (targetFormat.grids size))
      ((yuv y' u' v').recoloured (targetFormat.grids size)) := by
  cases hk : targetFormat.channels with
  | some k =>
    rw [Format.grids_packed hk]
    simp only [recoloured]
    split
    · exact .ok (.packed (luma.copy (Extent.size_eq hy)))
    · exact .ok (.packed (luma.coloured blue red hy hu hv rfl))
  | none =>
    rw [Format.grids_yuv hk]
    exact .ok (.yuv (luma.copy (Extent.size_eq hy)) (blue.copy (Extent.size_eq hu))
      (red.copy (Extent.size_eq hv)))

theorem Picture.recoloured_agree (hsource : source.grids = format.grids size)
    (h : source.Agree other) : SamePicture (source.recoloured (targetFormat.grids size))
      (other.recoloured (targetFormat.grids size)) := by
  cases hn : format.channels with
  | some n =>
    rw [Format.grids_packed hn] at hsource
    cases h with
    | packed pixels =>
      exact Picture.recoloured_agree_packed (Grids.packed.inj hsource) (Format.channels_pos hn) pixels
    | yuv luma blue red => cases hsource
  | none =>
    rw [Format.grids_yuv hn] at hsource
    cases h with
    | packed pixels => cases hsource
    | yuv luma blue red =>
      obtain ⟨hy, hu, hv⟩ := Grids.yuv.inj hsource
      exact Picture.recoloured_agree_yuv hy hu hv luma blue red

/-- Pictures that agree have images that agree. -/
theorem Primitive.image_agree {p : Primitive} {input output : Metadata}
    (accepts : p.Accepts input output) (inside : p.StaysInside input output)
    (hsource : source.grids = input.format.grids input.size) (h : source.Agree other) :
    SamePicture (p.image source (output.format.grids output.size))
      (p.image other (output.format.grids output.size)) := by
  cases p with
  | move m =>
    obtain ⟨compatible, suits⟩ := accepts.suits
    exact .ok (Move.image_agree compatible suits accepts.source_nonempty (inside accepts) hsource h)
  | convert =>
    obtain ⟨-, same⟩ := accepts.suits
    rw [← same]
    exact Picture.recoloured_agree hsource h

theorem Picture.grids_recoloured {target : Grids} {image : Picture}
    (h : source.recoloured target = .ok image) : image.grids = target := by
  unfold recoloured at h
  split at h
  · obtain rfl := Except.ok.inj h
    rfl
  · obtain rfl := Except.ok.inj h
    dsimp only [grids]
    split <;> rfl
  · split at h
    · cases h
    · obtain rfl := Except.ok.inj h
      rfl
  · obtain rfl := Except.ok.inj h
    rfl

theorem Move.grids_image (m : Move) (compatible : format.compatible targetFormat = true)
    (hsource : source.grids = format.grids size) (targetSize : Size) :
    (m.image source (targetFormat.grids targetSize)).grids = targetFormat.grids targetSize := by
  rcases Picture.eq_of_compatible compatible hsource targetSize with
    ⟨s, n, k, rfl, -, grids, -⟩ | ⟨y, u, v, rfl, -, -, -, grids⟩
  · rw [grids]
    simp only [image, Picture.grids, toExtent_grid]
  · rw [grids]
    simp only [image, Picture.grids, toExtent_grid, toExtent_chromaGrid]

/-- An image has the grids of the target. -/
theorem Primitive.grids_image {p : Primitive} {input output : Metadata} {image : Picture}
    (accepts : p.Accepts input output) (hsource : source.grids = input.format.grids input.size)
    (h : p.image source (output.format.grids output.size) = .ok image) :
    image.grids = output.format.grids output.size := by
  cases p with
  | move m =>
    obtain rfl := Except.ok.inj h
    exact m.grids_image accepts.suits.1 hsource output.size
  | convert => exact Picture.grids_recoloured h

end Raster
