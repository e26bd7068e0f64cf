import Raster.Frame.Canvas

/-!
# Grids that agree

The values of a grid mean something inside of its extent only, so two grids are
compared there: they *agree* when their extents are equal and their values inside
of them are. Two pictures agree when their grids do, one by one.

* `Samples.Agree`, `Picture.Agree` — the two relations.
* `SamePicture` — pictures that agree, or the same reason why there is none.
* `Grids` — the extents of the grids of a picture.
* `Format.grids` — the grids of every frame of a format and a size.
-/

namespace Raster

/-! ## Grids of samples -/

namespace Samples

/-- Equal extents, and equal values inside of them. -/
structure Agree (a b : Samples) : Prop where
  extent : a.toExtent = b.toExtent
  value : ∀ x y c, x < a.width → y < a.height → c < a.channels → a.value x y c = b.value x y c

namespace Agree

variable {a b c : Samples}

theorem refl (a : Samples) : a.Agree a := ⟨rfl, fun _ _ _ _ _ _ => rfl⟩

theorem symm (h : a.Agree b) : b.Agree a := by
  obtain ⟨hext, hval⟩ := h
  refine ⟨hext.symm, fun x y k hx hy hk => (hval x y k ?_ ?_ ?_).symm⟩ <;> rwa [hext]

theorem trans (h : a.Agree b) (h' : b.Agree c) : a.Agree c := by
  refine ⟨h.extent.trans h'.extent, fun x y k hx hy hk => ?_⟩
  rw [h.value x y k hx hy hk]
  exact h'.value x y k (h.extent ▸ hx) (h.extent ▸ hy) (h.extent ▸ hk)

theorem opaqueValue (h : a.Agree b) {x y : Nat} (k : Nat) (hx : x < a.width)
    (hy : y < a.height) : a.opaqueValue x y k = b.opaqueValue x y k := by
  unfold Samples.opaqueValue
  rw [← h.extent]
  split
  · next hk => exact h.value x y k hx hy hk
  · rfl

theorem take (h : a.Agree b) {n : Nat} (hn : n ≤ a.channels) : (a.take n).Agree (b.take n) := by
  obtain ⟨hext, hval⟩ := h
  refine ⟨?_, fun x y k hx hy hk => hval x y k hx hy (Nat.lt_of_lt_of_le hk hn)⟩
  simp only [Samples.take, hext]

end Agree

end Samples

/-! ## Pictures -/

/-- The extents of the grids of a picture. -/
inductive Grids where
  | packed (pixels : Extent)
  | yuv (y u v : Extent)
  deriving DecidableEq

/-- The grids of a frame: all channels in one, or luma and two chroma grids of half the size. -/
def Format.grids (format : Format) (size : Size) : Grids :=
  match format.channels with
  | some channels => .packed ⟨size.width, size.height, channels⟩
  | none =>
    let chroma : Extent := ⟨size.halved.width, size.halved.height, 1⟩
    .yuv ⟨size.width, size.height, 1⟩ chroma chroma

theorem Format.channels_pos {format : Format} {n : Nat} (h : format.channels = some n) : 0 < n := by
  cases format <;> cases h <;> decide

theorem Format.grids_packed {format : Format} {channels : Nat} (h : format.channels = some channels)
    (size : Size) : format.grids size = .packed ⟨size.width, size.height, channels⟩ := by
  rw [grids, h]

/-- Exactly the YUV formats have no pixels of several channels. -/
theorem Format.channels_eq_none_iff {format : Format} (known : format ≠ .unknown) :
    format.channels = none ↔ format.isYuv = true := by
  rw [isYuv_eq_channels_isNone known, Option.isNone_iff_eq_none]

theorem Format.grids_yuv {format : Format} (h : format.channels = none) (size : Size) :
    format.grids size = .yuv ⟨size.width, size.height, 1⟩ ⟨size.halved.width, size.halved.height, 1⟩
      ⟨size.halved.width, size.halved.height, 1⟩ := by
  rw [grids, h]

theorem Format.eq_of_grids_packed {format : Format} {size : Size} {e : Extent}
    (h : .packed e = format.grids size) :
    ∃ n, format.channels = some n ∧ e = ⟨size.width, size.height, n⟩ := by
  unfold Format.grids at h
  split at h
  · next n channels => exact ⟨n, channels, Grids.packed.inj h⟩
  · cases h

theorem Format.eq_of_grids_yuv {format : Format} {size : Size} {ey eu ev : Extent}
    (h : .yuv ey eu ev = format.grids size) :
    format.channels = none ∧ ey = ⟨size.width, size.height, 1⟩ ∧
      eu = ⟨size.halved.width, size.halved.height, 1⟩ ∧
        ev = ⟨size.halved.width, size.halved.height, 1⟩ := by
  unfold Format.grids at h
  split at h
  · cases h
  · next channels => exact ⟨channels, Grids.yuv.inj h⟩

theorem Extent.size_eq {e : Extent} {size : Size} {channels : Nat}
    (h : e = ⟨size.width, size.height, channels⟩) : e.size = size := by
  rw [h]
  rfl

namespace Picture

/-- The extents of the grids. -/
def grids : Picture → Grids
  | packed pixels => .packed pixels.toExtent
  | yuv y u v => .yuv y.toExtent u.toExtent v.toExtent

theorem eq_packed {p : Picture} {extent : Extent} (h : p.grids = .packed extent) :
    ∃ s, p = .packed s ∧ s.toExtent = extent := by
  cases p with
  | packed s => exact ⟨s, rfl, Grids.packed.inj h⟩
  | yuv y u v => cases h

theorem eq_yuv {p : Picture} {ey eu ev : Extent} (h : p.grids = .yuv ey eu ev) :
    ∃ y u v, p = .yuv y u v ∧ y.toExtent = ey ∧ u.toExtent = eu ∧ v.toExtent = ev := by
  cases p with
  | packed s => cases h
  | yuv y u v => exact ⟨y, u, v, rfl, Grids.yuv.inj h⟩

theorem extent_of_packed {s : Samples} {format : Format} {size : Size}
    (h : (packed s).grids = format.grids size) :
    ∃ n, format.channels = some n ∧ s.toExtent = ⟨size.width, size.height, n⟩ :=
  Format.eq_of_grids_packed h

theorem extents_of_yuv {y u v : Samples} {format : Format} {size : Size}
    (h : (yuv y u v).grids = format.grids size) :
    format.channels = none ∧ y.toExtent = ⟨size.width, size.height, 1⟩ ∧
      u.toExtent = ⟨size.halved.width, size.halved.height, 1⟩ ∧
        v.toExtent = ⟨size.halved.width, size.halved.height, 1⟩ :=
  Format.eq_of_grids_yuv h

/-- The grids of two pictures agree, one by one. -/
inductive Agree : Picture → Picture → Prop
  | packed {s t : Samples} (pixels : s.Agree t) : Agree (.packed s) (.packed t)
  | yuv {y u v y' u' v' : Samples} (luma : y.Agree y') (blue : u.Agree u') (red : v.Agree v') :
    Agree (.yuv y u v) (.yuv y' u' v')

namespace Agree

variable {p q r : Picture}

theorem refl (p : Picture) : p.Agree p := by
  cases p with
  | packed s => exact .packed (.refl s)
  | yuv y u v => exact .yuv (.refl y) (.refl u) (.refl v)

theorem symm (h : p.Agree q) : q.Agree p := by
  cases h with
  | packed hs => exact .packed hs.symm
  | yuv hy hu hv => exact .yuv hy.symm hu.symm hv.symm

theorem trans (h : p.Agree q) (h' : q.Agree r) : p.Agree r := by
  cases h with
  | packed hs =>
    cases h' with
    | packed hs' => exact .packed (hs.trans hs')
  | yuv hy hu hv =>
    cases h' with
    | yuv hy' hu' hv' => exact .yuv (hy.trans hy') (hu.trans hu') (hv.trans hv')

theorem grids (h : p.Agree q) : p.grids = q.grids := by
  cases h with
  | packed hs => exact congrArg Grids.packed hs.extent
  | yuv hy hu hv => simp only [Picture.grids, hy.extent, hu.extent, hv.extent]

end Agree

end Picture

/-- Pictures that agree, or the same reason why there is none. -/
inductive SamePicture : Except Error Picture → Except Error Picture → Prop
  | ok {p q : Picture} (h : p.Agree q) : SamePicture (.ok p) (.ok q)
  | error (e : Error) : SamePicture (.error e) (.error e)

namespace SamePicture

variable {a b c : Except Error Picture}

theorem refl (a : Except Error Picture) : SamePicture a a := by
  cases a with
  | error e => exact .error e
  | ok p => exact .ok (.refl p)

theorem error_or_ok (h : SamePicture a b) : (∃ e, a = .error e ∧ b = .error e) ∨
    ∃ p q, a = .ok p ∧ b = .ok q ∧ p.Agree q := by
  cases h with
  | ok h => exact .inr ⟨_, _, rfl, rfl, h⟩
  | error e => exact .inl ⟨e, rfl, rfl⟩

theorem symm (h : SamePicture a b) : SamePicture b a := by
  cases h with
  | ok h => exact .ok h.symm
  | error e => exact .error e

theorem trans (h : SamePicture a b) (h' : SamePicture b c) : SamePicture a c := by
  cases h with
  | error e => exact h'
  | ok h =>
    cases h' with
    | ok h' => exact .ok (h.trans h')

end SamePicture

end Raster
