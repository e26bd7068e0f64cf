import Raster.Proofs.Samples.Colour

/-!
# Colours converted and back

Luma and chroma keep the colours of flat blocks up to the rounding of the weights. A weighted sum
is off by at most one half, on the way there and on the way back, and no value of limited range is
clamped on the way there. So red and green come back within 2 and blue within 3, for every colour.
The other conversions that can be undone lose nothing: they copy channels, or weigh three equal
ones.

* `Near` — bytes that differ by at most some number.
* `Samples.FlatBlocks` — the pixels of each block have one colour.
* `Samples.Solid` — no pixel is transparent.

Results: `rgbOfYuv_near` (single colours), `Samples.FlatBlocks.coloured_near` (grids of flat
blocks) and `Samples.repacked_back` (packed grids).
-/

namespace Raster

/-! ## Bytes that are close -/

/-- Bytes that differ by at most `n`. -/
def Near (n : Nat) (a b : UInt8) : Prop := a.toNat ≤ b.toNat + n ∧ b.toNat ≤ a.toNat + n

instance (n : Nat) (a b : UInt8) : Decidable (Near n a b) := inferInstanceAs (Decidable (_ ∧ _))

theorem Near.mono {m n : Nat} {a b : UInt8} (h : Near m a b) (le : m ≤ n) : Near n a b := by
  unfold Near at h ⊢
  omega

theorem toNat_clampByte (v : Int) : ((clampByte v).toNat : Int) = max 0 (min v 255) := by
  rw [clampByte, UInt8.toNat_ofNat_of_lt' (show min v.toNat 255 < 256 by omega)]
  omega

/-- Clamping moves no value away from a byte. -/
theorem clampByte_near {v : Int} {b : UInt8} {n : Nat} (above : (b.toNat : Int) ≤ v + n)
    (below : v ≤ b.toNat + n) : Near n (clampByte v) b := by
  have byte := b.toNat_lt
  have clamped := toNat_clampByte v
  unfold Near
  omega

/-! ## Single colours -/

section

variable (r g b : UInt8)

/-- A rounded sum is off by at most one half. -/
theorem weighted_bounds (wr wg wb : Int) :
    256 * weighted wr wg wb r g b ≤ wr * r.toNat + wg * g.toNat + wb * b.toNat + 128 ∧
      wr * r.toNat + wg * g.toNat + wb * b.toNat < 256 * weighted wr wg wb r g b + 128 := by
  unfold weighted
  omega

/-- Luma is not clamped: it lies between 16 and 235. -/
theorem toNat_lumaOfRgb : ((lumaOfRgb r g b).toNat : Int) = weighted 66 129 25 r g b + 16 := by
  have rounded := weighted_bounds r g b 66 129 25
  have red := r.toNat_lt
  have green := g.toNat_lt
  have blue := b.toNat_lt
  rw [lumaOfRgb, toNat_clampByte]
  omega

/-- Chroma is not clamped: it lies between 16 and 240. -/
theorem toNat_blueOfRgb :
    ((blueOfRgb r g b).toNat : Int) = weighted (-38) (-74) 112 r g b + 128 := by
  have rounded := weighted_bounds r g b (-38) (-74) 112
  have red := r.toNat_lt
  have green := g.toNat_lt
  have blue := b.toNat_lt
  rw [blueOfRgb, toNat_clampByte]
  omega

theorem toNat_redOfRgb :
    ((redOfRgb r g b).toNat : Int) = weighted 112 (-94) (-18) r g b + 128 := by
  have rounded := weighted_bounds r g b 112 (-94) (-18)
  have red := r.toNat_lt
  have green := g.toNat_lt
  have blue := b.toNat_lt
  rw [redOfRgb, toNat_clampByte]
  omega

/-- Every colour comes back from luma and chroma almost as it was. The weights there and back
multiply to the unit matrix up to 88/65536, so nearly all of the difference is rounding. -/
theorem rgbOfYuv_near :
    let colour := rgbOfYuv (lumaOfRgb r g b) (blueOfRgb r g b) (redOfRgb r g b)
    Near 2 colour.r r ∧ Near 2 colour.g g ∧ Near 3 colour.b b := by
  have luma := weighted_bounds r g b 66 129 25
  have blue_chroma := weighted_bounds r g b (-38) (-74) 112
  have red_chroma := weighted_bounds r g b 112 (-94) (-18)
  have red := r.toNat_lt
  have green := g.toNat_lt
  have blue := b.toNat_lt
  simp only [rgbOfYuv, toNat_lumaOfRgb, toNat_blueOfRgb, toNat_redOfRgb]
  refine ⟨clampByte_near ?_ ?_, clampByte_near ?_ ?_, clampByte_near ?_ ?_⟩
  all_goals omega

/-- Some blue does come back three off. -/
example : (rgbOfYuv (lumaOfRgb 11 255 2) (blueOfRgb 11 255 2) (redOfRgb 11 255 2)).b = 5 := by
  decide

/-- The weights of gray sum up to one. -/
theorem grayOfRgb_same (v : UInt8) : grayOfRgb v v v = v := by
  have weights : (77 * v.toNat + 150 * v.toNat + 29 * v.toNat + 128) / 256 = v.toNat := by omega
  rw [grayOfRgb, weights, UInt8.ofNat_toNat]

end

/-! ## Flat blocks -/

namespace Samples

variable {s : Samples} {e : Extent} {x y c : Nat}

theorem channel_rgb (s : Samples) (x y : Nat) (hc : c < 3) :
    (s.rgb x y).channel c = s.value x y c := by
  obtain rfl | rfl | rfl : c = 0 ∨ c = 1 ∨ c = 2 := by omega
  all_goals rfl

/-- The pixels of each block of two by two have one colour, where the edge cuts a block off too. -/
def FlatBlocks (s : Samples) : Prop :=
  ∀ x < s.width, ∀ y < s.height, ∀ x' < s.width, ∀ y' < s.height,
    x / 2 = x' / 2 → y / 2 = y' / 2 → s.rgb x y = s.rgb x' y'

/-- It is enough to look at the first pixel of each block. -/
theorem flatBlocks_iff : s.FlatBlocks ↔
    ∀ x < s.width, ∀ y < s.height, s.rgb x y = s.rgb (2 * (x / 2)) (2 * (y / 2)) := by
  constructor
  · intro flat x hx y hy
    exact flat x hx y hy _ (by omega) _ (by omega) (by omega) (by omega)
  · intro first x hx y hy x' hx' y' hy' column row
    rw [first x hx y hy, first x' hx' y' hy', column, row]

instance (s : Samples) : Decidable s.FlatBlocks := decidable_of_iff _ flatBlocks_iff.symm

theorem FlatBlocks.value (flat : s.FlatBlocks) (hc : c < 3) {x' y' : Nat} (hx : x < s.width)
    (hy : y < s.height) (hx' : x' < s.width) (hy' : y' < s.height) (column : x / 2 = x' / 2)
    (row : y / 2 = y' / 2) : s.value x y c = s.value x' y' c := by
  rw [← channel_rgb s x y hc, ← channel_rgb s x' y' hc,
    flat x hx y hy x' hx' y' hy' column row]

/-- The mean of a flat block is its colour. -/
theorem FlatBlocks.blockMean (flat : s.FlatBlocks) (hc : c < 3) (hx : x < s.width)
    (hy : y < s.height) : s.blockMean c (x / 2) (y / 2) = s.value x y c := by
  -- the four pixels that the mean reads lie in the block of this one
  have pixel (x' y' : Nat) (hx' : x' < s.width) (hy' : y' < s.height) (column : x' / 2 = x / 2)
      (row : y' / 2 = y / 2) : s.value x' y' c = s.value x y c :=
    flat.value hc hx' hy' hx hy column row
  have left : 2 * (x / 2) < s.width ∧ 2 * (x / 2) / 2 = x / 2 := by omega
  have right : min (2 * (x / 2) + 1) (s.width - 1) < s.width ∧
      min (2 * (x / 2) + 1) (s.width - 1) / 2 = x / 2 := by omega
  have top : 2 * (y / 2) < s.height ∧ 2 * (y / 2) / 2 = y / 2 := by omega
  have bottom : min (2 * (y / 2) + 1) (s.height - 1) < s.height ∧
      min (2 * (y / 2) + 1) (s.height - 1) / 2 = y / 2 := by omega
  have mean : ((s.value x y c).toNat + (s.value x y c).toNat + (s.value x y c).toNat +
      (s.value x y c).toNat + 2) / 4 = (s.value x y c).toNat := by omega
  simp only [Samples.blockMean]
  rw [pixel _ _ left.1 top.1 left.2 top.2, pixel _ _ right.1 top.1 right.2 top.2,
    pixel _ _ left.1 bottom.1 left.2 bottom.2, pixel _ _ right.1 bottom.1 right.2 bottom.2, mean,
    UInt8.ofNat_toNat]

theorem FlatBlocks.chroma (flat : s.FlatBlocks) (chromaOf : (r g b : UInt8) → UInt8)
    (hx : x < s.width) (hy : y < s.height) : (s.chroma chromaOf e).value (x / 2) (y / 2) c =
      chromaOf (s.value x y 0) (s.value x y 1) (s.value x y 2) := by
  simp only [Samples.chroma]
  rw [flat.blockMean (by decide) hx hy, flat.blockMean (by decide) hx hy,
    flat.blockMean (by decide) hx hy]

/-- Pixels in flat blocks come back from luma and chroma almost as they were. -/
theorem FlatBlocks.coloured_near (flat : s.FlatBlocks) {luma blue red : Extent}
    (hx : x < s.width) (hy : y < s.height) (hc : c < 3) :
    Near 3 ((Samples.coloured (s.luma luma) (s.chroma blueOfRgb blue) (s.chroma redOfRgb red)
      e).value x y c) (s.value x y c) := by
  have near := rgbOfYuv_near (s.value x y 0) (s.value x y 1) (s.value x y 2)
  simp only [Samples.coloured, Samples.luma, Samples.rgb]
  rw [flat.chroma blueOfRgb hx hy, flat.chroma redOfRgb hx hy]
  obtain rfl | rfl | rfl : c = 0 ∨ c = 1 ∨ c = 2 := by omega
  · exact near.1.mono (by decide)
  · exact near.2.1.mono (by decide)
  · exact near.2.2

/-! ## Packed grids -/

/-- A fourth channel has the value of alpha that hides everything behind a pixel. -/
def Solid (s : Samples) : Prop :=
  ∀ x y, x < s.width → y < s.height → 3 < s.channels → s.value x y 3 = 255

/-- Colours become other colours by copying channels. -/
theorem value_repacked (colours : 3 ≤ s.channels) (coloured : e.channels ≠ 1) :
    (s.repacked e).value x y c = s.opaqueValue x y c := by
  simp only [repacked]
  rw [if_pos colours, if_neg coloured]

/-- Gray becomes three equal channels. -/
theorem value_repacked_of_gray (gray : s.channels < 3) (hc : c < 3) :
    (s.repacked e).value x y c = s.value x y 0 := by
  simp only [repacked]
  rw [if_neg (Nat.not_le.2 gray), if_pos hc]

/-- Three equal channels become gray again. -/
theorem value_repacked_to_gray {v : UInt8} (colours : 3 ≤ s.channels) (gray : e.channels = 1)
    (equal : ∀ k < 3, s.value x y k = v) : (s.repacked e).value x y c = v := by
  simp only [repacked, rgb]
  rw [if_pos colours, if_pos gray, equal 0 (by decide), equal 1 (by decide), equal 2 (by decide),
    grayOfRgb_same]

/-- Packed grids come back as they were, if gray goes by way of colours and alpha is not lost. -/
theorem repacked_back (s : Samples) (e : Extent) (colours : 3 ≤ e.channels)
    (few : s.channels = 1 ∨ 3 ≤ s.channels ∧ s.channels ≤ 4)
    (solid : e.channels < s.channels → s.Solid) :
    ((s.repacked e).repacked s.toExtent).Agree s := by
  refine ⟨rfl, fun x y c hx hy hc => ?_⟩
  have hx : x < s.width := hx
  have hy : y < s.height := hy
  have hc : c < s.channels := hc
  rcases few with gray | ⟨many, few⟩
  · obtain rfl : c = 0 := by omega
    exact value_repacked_to_gray colours gray fun k hk =>
      value_repacked_of_gray (by omega) hk
  · rw [value_repacked (s := s.repacked e) colours (show s.channels ≠ 1 by omega), opaqueValue,
      value_repacked many (by omega), opaqueValue, if_pos hc]
    split
    · rfl
    · next lost =>
      -- the channel that came back as 255 was alpha
      have lost : e.channels ≤ c := Nat.not_lt.1 lost
      obtain rfl : c = 3 := by omega
      exact (solid (by omega) x y hx hy (by omega)).symm

end Samples

end Raster
