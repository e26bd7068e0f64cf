import Mathlib.Algebra.BigOperators.Group.Finset.Sigma
import Raster.Colour
import Raster.Proofs.Samples.Motion

/-!
# Colours of moved grids

A conversion of colours works sample by sample, on a pixel and the chroma of its block, or on a
block of two by two pixels. The first kind commutes with every motion. The other two do on even
sides, where a motion takes blocks to blocks: the mean of a block is that of the block which it
is taken to.

* `block` — the pixels that share a sample of a halved grid.

Results: `Motion.sum_block` (a motion permutes the pixels of a block) and
`Samples.Carried.repacked`, `.coloured`, `.luma` and `.chroma` (grids that are carried are
converted into grids that are carried).
-/

namespace Raster

/-! ## Blocks -/

/-- The pixels of a block of two by two. -/
def block (cx cy : Nat) : Finset (Nat × Nat) := {2 * cx, 2 * cx + 1} ×ˢ {2 * cy, 2 * cy + 1}

theorem mem_block {cx cy : Nat} {p : Nat × Nat} :
    p ∈ block cx cy ↔ p.1 / 2 = cx ∧ p.2 / 2 = cy := by
  simp only [block, Finset.mem_product, Finset.mem_insert, Finset.mem_singleton]
  omega

variable {size : Size} {cx cy : Nat}

/-- Blocks of a grid of even sides lie inside of it. -/
theorem Size.IsEven.inside (even : size.IsEven) (hx : cx < size.halved.width)
    (hy : cy < size.halved.height) {p : Nat × Nat} (h : p ∈ block cx cy) : p ∈ size.pixels := by
  obtain ⟨width, height⟩ := even
  obtain ⟨px, py⟩ := mem_block.1 h
  have hx : cx < (size.width + 1) / 2 := hx
  have hy : cy < (size.height + 1) / 2 := hy
  show p.1 < size.width ∧ p.2 < size.height
  omega

/-- A motion permutes the pixels of a block. -/
theorem Motion.sum_block (f : Motion) (even : size.IsEven) (hx : cx < size.halved.width)
    (hy : cy < size.halved.height) (value : Nat × Nat → Nat) :
    ∑ p ∈ block cx cy, value (f.point size p.1 p.2) =
      ∑ p ∈ block (f.point size.halved cx cy).1 (f.point size.halved cx cy).2, value p := by
  have halves {p : Nat × Nat} (inside : p ∈ size.pixels) :=
    f.point_halved even inside.1 inside.2
  refine Finset.sum_nbij (fun p => f.point size p.1 p.2) ?into ?apart ?onto fun _ _ => rfl
  case into =>
    intro p hp
    obtain ⟨rfl, rfl⟩ := mem_block.1 hp
    rw [halves (even.inside hx hy hp)]
    exact mem_block.2 ⟨rfl, rfl⟩
  case apart =>
    exact (f.bijOn size).injOn.mono fun p hp => even.inside hx hy hp
  case onto =>
    intro q hq
    obtain ⟨qx, qy⟩ := mem_block.1 hq
    obtain ⟨hx', hy'⟩ := f.inside hx hy
    rw [f.size_halved] at hx' hy'
    obtain ⟨p, inside, rfl⟩ := (f.bijOn size).surjOn ((f.isEven_size even).inside hx' hy' hq)
    -- the block of `p` is taken to the block of `q`, so it is the given one
    have half : (p.1 / 2, p.2 / 2) ∈ size.halved.pixels := by
      obtain ⟨left, top⟩ := inside
      show p.1 / 2 < (size.width + 1) / 2 ∧ p.2 / 2 < (size.height + 1) / 2
      omega
    have same : (p.1 / 2, p.2 / 2) = (cx, cy) :=
      (f.bijOn size.halved).injOn half ⟨hx, hy⟩ ((halves inside).trans (Prod.ext qx qy))
    exact ⟨p, mem_block.2 (Prod.mk.inj same), rfl⟩

/-! ## Means of blocks -/

namespace Samples

variable {f : Motion} {s t : Samples} {e e' : Extent} {c : Nat}

/-- On even sides no row or column counts twice. -/
theorem blockMean_eq_sum (even : s.size.IsEven) (hx : cx < s.size.halved.width)
    (hy : cy < s.size.halved.height) : s.blockMean c cx cy =
      UInt8.ofNat ((∑ p ∈ block cx cy, (s.value p.1 p.2 c).toNat + 2) / 4) := by
  have last : (2 * cx + 1, 2 * cy + 1) ∈ block cx cy := mem_block.2 (by omega)
  obtain ⟨right, bottom⟩ := even.inside hx hy last
  have right : 2 * cx + 1 < s.width := right
  have bottom : 2 * cy + 1 < s.height := bottom
  have right_column : min (2 * cx + 1) (s.width - 1) = 2 * cx + 1 := by
    omega
  have bottom_row : min (2 * cy + 1) (s.height - 1) = 2 * cy + 1 := by
    omega
  have sum : ∑ p ∈ block cx cy, (s.value p.1 p.2 c).toNat =
      (s.value (2 * cx) (2 * cy) c).toNat + (s.value (2 * cx + 1) (2 * cy) c).toNat +
        (s.value (2 * cx) (2 * cy + 1) c).toNat + (s.value (2 * cx + 1) (2 * cy + 1) c).toNat := by
    rw [block, Finset.sum_product_right, Finset.sum_pair (by omega), Finset.sum_pair (by omega),
      Finset.sum_pair (by omega), add_assoc _ _ (UInt8.toNat _)]
  simp only [blockMean, right_column, bottom_row, sum]

/-- Equal channels, and equal values where the motion leads. -/
theorem carried_of_value (channels : t.channels = s.channels)
    (value : ∀ x y c, x < size.width → y < size.height → c < t.channels →
      t.value (f.point size x y).1 (f.point size x y).2 c = s.value x y c) :
    s.Carried f size t := by
  intro x y c hx hy hc
  rw [value x y c hx hy hc]
  exact (if_pos (channels ▸ hc)).symm

namespace Carried

variable {x y : Nat}

theorem value (h : s.Carried f size t) (channels : t.channels = s.channels) (hx : x < size.width)
    (hy : y < size.height) (hc : c < t.channels) :
    t.value (f.point size x y).1 (f.point size x y).2 c = s.value x y c := by
  rw [h x y c hx hy hc]
  exact if_pos (channels ▸ hc)

theorem opaqueValue (h : s.Carried f size t) (channels : t.channels = s.channels)
    (hx : x < size.width) (hy : y < size.height) (c : Nat) :
    t.opaqueValue (f.point size x y).1 (f.point size x y).2 c = s.opaqueValue x y c := by
  unfold Samples.opaqueValue
  rw [channels]
  split
  · next kept => exact h.value channels hx hy (channels ▸ kept)
  · rfl

theorem rgb (h : s.Carried f size t) (channels : t.channels = s.channels)
    (colours : 3 ≤ s.channels) (hx : x < size.width) (hy : y < size.height) :
    t.rgb (f.point size x y).1 (f.point size x y).2 = s.rgb x y := by
  unfold Samples.rgb
  rw [h.value channels hx hy (by omega), h.value channels hx hy (by omega),
    h.value channels hx hy (by omega)]

/-- The mean of a block is that of the block which it is taken to. -/
theorem blockMean (h : s.Carried f size t) (channels : t.channels = s.channels)
    (hs : s.size = size) (ht : t.size = f.size size) (even : size.IsEven)
    (hx : cx < size.halved.width) (hy : cy < size.halved.height) (hc : c < s.channels) :
    t.blockMean c (f.point size.halved cx cy).1 (f.point size.halved cx cy).2 =
      s.blockMean c cx cy := by
  obtain ⟨hx', hy'⟩ := f.inside hx hy
  rw [f.size_halved, ← ht] at hx' hy'
  subst hs
  rw [blockMean_eq_sum even hx hy, blockMean_eq_sum (ht ▸ f.isEven_size even) hx' hy',
    ← f.sum_block even hx hy fun p => (t.value p.1 p.2 c).toNat]
  congr 3
  refine Finset.sum_congr rfl fun p hp => ?_
  have inside := even.inside hx hy hp
  rw [h.value channels inside.1 inside.2 (channels ▸ hc)]

/-! ## Conversions -/

theorem repacked (h : s.Carried f size t) (channels : t.channels = s.channels)
    (positive : 0 < s.channels) (same : e'.channels = e.channels) :
    (s.repacked e).Carried f size (t.repacked e') := by
  refine carried_of_value same fun x y c hx hy hc => ?_
  simp only [Samples.repacked, channels, same]
  split
  · next colours => rw [h.rgb channels colours hx hy, h.opaqueValue channels hx hy]
  · rw [h.value channels hx hy (by omega)]

/-- The luma of a frame is that of its pixels. -/
theorem luma (h : s.Carried f size t) (channels : t.channels = s.channels)
    (colours : 3 ≤ s.channels) (same : e'.channels = e.channels) :
    (s.luma e).Carried f size (t.luma e') := by
  refine carried_of_value same fun x y c hx hy hc => ?_
  simp only [Samples.luma]
  rw [h.rgb channels colours hx hy]

theorem chroma (h : s.Carried f size t) (chromaOf : (r g b : UInt8) → UInt8)
    (channels : t.channels = s.channels) (colours : 3 ≤ s.channels)
    (hs : s.size = size) (ht : t.size = f.size size) (even : size.IsEven)
    (same : e'.channels = e.channels) :
    (s.chroma chromaOf e).Carried f size.halved (t.chroma chromaOf e') := by
  refine carried_of_value same fun cx cy c hx hy _ => ?_
  have mean (k : Nat) (hk : k < s.channels) := h.blockMean channels hs ht even hx hy hk
  simp only [Samples.chroma]
  rw [mean 0 (by omega), mean 1 (by omega), mean 2 (by omega)]

/-- A pixel and the chroma of its block stay together. -/
theorem coloured {u v u' v' : Samples} (hy : s.Carried f size t) (hu : u.Carried f size.halved u')
    (hv : v.Carried f size.halved v') (luma : t.channels = 1 ∧ s.channels = 1)
    (blue : u'.channels = 1 ∧ u.channels = 1) (red : v'.channels = 1 ∧ v.channels = 1)
    (even : size.IsEven) (same : e'.channels = e.channels) :
    (Samples.coloured s u v e).Carried f size (Samples.coloured t u' v' e') := by
  refine carried_of_value same fun px py c hx hy' _ => ?_
  have wide : px / 2 < size.halved.width := by
    show px / 2 < (size.width + 1) / 2
    omega
  have high : py / 2 < size.halved.height := by
    show py / 2 < (size.height + 1) / 2
    omega
  have half := f.point_halved even hx hy'
  have blue_value := hu.value (c := 0) (by rw [blue.1, blue.2]) wide high (by omega)
  have red_value := hv.value (c := 0) (by rw [red.1, red.2]) wide high (by omega)
  rw [half] at blue_value red_value
  simp only [Samples.coloured]
  rw [blue_value, red_value, hy.value (by rw [luma.1, luma.2]) hx hy' (by omega)]

/-- A copy of a whole grid. -/
theorem copy (h : s.Carried f size t) (channels : t.channels = s.channels)
    (same : e'.channels = e.channels) : (s.part 0 0 e).Carried f size (t.part 0 0 e') := by
  refine carried_of_value same fun x y c hx hy _ => ?_
  simp only [part, pull, Nat.zero_add]
  exact h.opaqueValue channels hx hy c

end Carried

end Samples

end Raster
