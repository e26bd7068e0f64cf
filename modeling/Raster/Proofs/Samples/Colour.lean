import Raster.Colour
import Raster.Proofs.Samples.Kernel

/-!
# Colours of grids that agree

A conversion looks at a sample, at the luma and chroma of its place, or at a block of up
to 2×2 samples, and never outside of the grids that it is given.

Results: `Samples.Agree.repacked`, `.coloured`, `.luma` and `.chroma`: grids that agree are
converted into grids that agree.
-/

namespace Raster.Samples.Agree

variable {a b : Samples} {target : Extent}

theorem rgb (h : a.Agree b) (colours : 3 ≤ a.channels) {x y : Nat} (hx : x < a.width)
    (hy : y < a.height) : a.rgb x y = b.rgb x y := by
  unfold Samples.rgb
  rw [h.value x y 0 hx hy (by omega), h.value x y 1 hx hy (by omega),
    h.value x y 2 hx hy (by omega)]

theorem repacked (h : a.Agree b) (channels : 0 < a.channels) (width : target.width = a.width)
    (height : target.height = a.height) : (a.repacked target).Agree (b.repacked target) := by
  refine ⟨rfl, fun x y c hx hy _ => ?_⟩
  have hx' : x < a.width := width ▸ hx
  have hy' : y < a.height := height ▸ hy
  simp only [Samples.repacked]
  rw [← h.extent]
  split
  · next colours =>
    rw [h.rgb colours hx' hy', h.opaqueValue c hx' hy']
  · rw [h.value x y 0 hx' hy' channels]

theorem luma (h : a.Agree b) (colours : 3 ≤ a.channels) (width : target.width = a.width)
    (height : target.height = a.height) : (a.luma target).Agree (b.luma target) := by
  refine ⟨rfl, fun x y c hx hy _ => ?_⟩
  simp only [Samples.luma]
  rw [h.rgb colours (width ▸ hx) (height ▸ hy)]

/-- A block starts inside of the grid, and its end is kept inside. -/
theorem blockMean (h : a.Agree b) {c : Nat} (hc : c < a.channels) {cx cy : Nat}
    (hx : 2 * cx < a.width) (hy : 2 * cy < a.height) :
    a.blockMean c cx cy = b.blockMean c cx cy := by
  simp only [Samples.blockMean]
  rw [← h.extent, h.value _ _ c hx hy hc, h.value _ _ c (by omega) hy hc,
    h.value _ _ c hx (by omega) hc, h.value _ _ c (by omega) (by omega) hc]

theorem chroma (h : a.Agree b) (chromaOf : (r g b : UInt8) → UInt8) (colours : 3 ≤ a.channels)
    (width : target.width = (a.width + 1) / 2) (height : target.height = (a.height + 1) / 2) :
    (a.chroma chromaOf target).Agree (b.chroma chromaOf target) := by
  refine ⟨rfl, fun cx cy c hx hy _ => ?_⟩
  have hx' : cx < (a.width + 1) / 2 := width ▸ hx
  have hy' : cy < (a.height + 1) / 2 := height ▸ hy
  have block (k : Nat) (hk : k < a.channels) : a.blockMean k cx cy = b.blockMean k cx cy :=
    h.blockMean hk (by omega) (by omega)
  simp only [Samples.chroma]
  rw [block 0 (by omega), block 1 (by omega), block 2 (by omega)]

theorem coloured {u v u' v' : Samples} (hy : a.Agree b) (hu : u.Agree u') (hv : v.Agree v')
    {size : Size} (luma : a.toExtent = ⟨size.width, size.height, 1⟩)
    (blue : u.toExtent = ⟨size.halved.width, size.halved.height, 1⟩)
    (red : v.toExtent = ⟨size.halved.width, size.halved.height, 1⟩)
    (shape : target.size = size) :
    (Samples.coloured a u v target).Agree (Samples.coloured b u' v' target) := by
  refine ⟨rfl, fun x y c hx hy' _ => ?_⟩
  subst shape
  have wide : x / 2 < target.size.halved.width := by
    show x / 2 < (target.width + 1) / 2
    have : x < target.width := hx
    omega
  have high : y / 2 < target.size.halved.height := by
    show y / 2 < (target.height + 1) / 2
    have : y < target.height := hy'
    omega
  simp only [Samples.coloured]
  rw [hy.value x y 0 (by rwa [luma]) (by rwa [luma]) (by rw [luma]; exact Nat.one_pos),
    hu.value _ _ 0 (by rwa [blue]) (by rwa [blue]) (by rw [blue]; exact Nat.one_pos),
    hv.value _ _ 0 (by rwa [red]) (by rwa [red]) (by rw [red]; exact Nat.one_pos)]

end Raster.Samples.Agree
