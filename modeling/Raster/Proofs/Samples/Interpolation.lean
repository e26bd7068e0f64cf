import Raster.Proofs.Samples.Kernel

/-!
# Interpolation in machine words

The mean of four samples is computed in two stages with weights in 1/256, in words of 32 bits, and is
cut down to a byte in the end. No stage leaves its word, for any bytes and any weights up to one. A
mean lies between its values, so a scaled region lies between any bounds of the region.

* `blend32` — the mean as a machine computes it, or nothing where a number leaves its word.
* `mix` — one stage of the mean, in exact numbers.

Results: `blend32_eq` (the words hold every number), `le_blend` and `blend_le` (a mean lies between
its values) and `Samples.resizeWith_means` (what this makes of a scaled region).
-/

namespace Raster

/-! ## Words that do not overflow -/

namespace Word

/-- The sum, where the word holds it. -/
def plus? (a b : UInt32) : Option UInt32 :=
  if a.toNat + b.toNat < UInt32.size then some (a + b) else none

/-- The difference, where it is not below zero. -/
def minus? (a b : UInt32) : Option UInt32 := if b ≤ a then some (a - b) else none

/-- The product, where the word holds it. -/
def times? (a b : UInt32) : Option UInt32 :=
  if a.toNat * b.toNat < UInt32.size then some (a * b) else none

/-- The lowest byte, where the others are zero. -/
def byte? (a : UInt32) : Option UInt8 := if a.toNat < UInt8.size then some a.toUInt8 else none

theorem plus?_eq {a b : UInt32} (held : a.toNat + b.toNat < UInt32.size) :
    ∃ c, plus? a b = some c ∧ c.toNat = a.toNat + b.toNat := by
  refine ⟨a + b, if_pos held, ?_⟩
  rw [UInt32.toNat_add]
  exact Nat.mod_eq_of_lt held

theorem minus?_eq {a b : UInt32} (below : b.toNat ≤ a.toNat) :
    ∃ c, minus? a b = some c ∧ c.toNat = a.toNat - b.toNat :=
  ⟨a - b, if_pos below, UInt32.toNat_sub_of_le a b below⟩

theorem times?_eq {a b : UInt32} (held : a.toNat * b.toNat < UInt32.size) :
    ∃ c, times? a b = some c ∧ c.toNat = a.toNat * b.toNat := by
  refine ⟨a * b, if_pos held, ?_⟩
  rw [UInt32.toNat_mul]
  exact Nat.mod_eq_of_lt held

theorem byte?_eq {a : UInt32} {b : UInt8} (same : a.toNat = b.toNat) : byte? a = some b := by
  have held : a.toNat < UInt8.size := by
    rw [same]
    exact b.toNat_lt
  unfold byte?
  rw [if_pos held]
  refine congrArg some (UInt8.toNat_inj.1 ?_)
  rw [UInt32.toNat_toUInt8, ← same]
  exact Nat.mod_eq_of_lt held

end Word

/-! ## Stages of a mean -/

/-- One stage of a mean: the weight of `b` is `w`, and both weights add up to 256. -/
def mix (a b w : Nat) : Nat := a * (256 - w) + b * w

theorem mix_le {a b w high : Nat} (share : w ≤ 256) (ha : a ≤ high) (hb : b ≤ high) :
    mix a b w ≤ high * 256 := by
  calc a * (256 - w) + b * w
    _ ≤ high * (256 - w) + high * w :=
      Nat.add_le_add (Nat.mul_le_mul_right _ ha) (Nat.mul_le_mul_right _ hb)
    _ = high * 256 := by rw [← Nat.mul_add, Nat.sub_add_cancel share]

theorem le_mix {a b w low : Nat} (share : w ≤ 256) (ha : low ≤ a) (hb : low ≤ b) :
    low * 256 ≤ mix a b w := by
  calc low * 256
    _ = low * (256 - w) + low * w := by rw [← Nat.mul_add, Nat.sub_add_cancel share]
    _ ≤ a * (256 - w) + b * w :=
      Nat.add_le_add (Nat.mul_le_mul_right _ ha) (Nat.mul_le_mul_right _ hb)

/-- One stage in machine words, with the two weights given. -/
def mix32 (a b v w : UInt32) : Option UInt32 := do
  let lower ← Word.times? a v
  let upper ← Word.times? b w
  Word.plus? lower upper

/-- Values of up to 16 bits leave room for a stage. -/
theorem mix32_eq {a b v w : UInt32} (share : w.toNat ≤ 256) (rest : v.toNat = 256 - w.toNat)
    (ha : a.toNat ≤ 255 * 256) (hb : b.toNat ≤ 255 * 256) :
    ∃ c, mix32 a b v w = some c ∧ c.toNat = mix a.toNat b.toNat w.toNat := by
  have total : a.toNat * v.toNat + b.toNat * w.toNat ≤ 255 * 256 * 256 := by
    rw [rest]
    exact mix_le share ha hb
  have room : 255 * 256 * 256 < UInt32.size := by decide
  obtain ⟨lower, hlower, lower_nat⟩ := Word.times?_eq (a := a) (b := v) (by omega)
  obtain ⟨upper, hupper, upper_nat⟩ := Word.times?_eq (a := b) (b := w) (by omega)
  obtain ⟨sum, hsum, sum_nat⟩ := Word.plus?_eq (a := lower) (b := upper) (by omega)
  refine ⟨sum, ?_, ?_⟩
  · simp only [mix32, hlower, hupper, hsum, Option.bind_eq_bind, Option.bind_some]
  · rw [sum_nat, lower_nat, upper_nat, rest, mix]

/-! ## Means -/

/-- The mean of four values as a machine computes it. -/
def blend32 (p00 p01 p10 p11 : UInt8) (wx wy : UInt32) : Option UInt8 := do
  let vy ← Word.minus? 256 wy
  let vx ← Word.minus? 256 wx
  let top ← mix32 p00.toUInt32 p01.toUInt32 vx wx
  let bottom ← mix32 p10.toUInt32 p11.toUInt32 vx wx
  let sum ← mix32 top bottom vy wy
  let rounded ← Word.plus? sum 32768
  Word.byte? (rounded >>> 16)

section

variable {p00 p01 p10 p11 : UInt8} {wx wy : Nat}

theorem mix_byte_le (a b : UInt8) {w : Nat} (share : w ≤ 256) : mix a.toNat b.toNat w ≤ 255 * 256 :=
  mix_le share (Nat.le_of_lt_succ a.toNat_lt) (Nat.le_of_lt_succ b.toNat_lt)

/-- The mean is two stages and a rounded division. -/
theorem toNat_blend (hx : wx ≤ 256) (hy : wy ≤ 256) :
    (blend p00 p01 p10 p11 wx wy).toNat =
      (mix (mix p00.toNat p01.toNat wx) (mix p10.toNat p11.toNat wx) wy + 32768) / 65536 := by
  have total := mix_le hy (mix_byte_le p00 p01 hx) (mix_byte_le p10 p11 hx)
  show (UInt8.ofNat _).toNat = _
  rw [UInt8.toNat_ofNat']
  exact Nat.mod_eq_of_lt (by unfold mix at total; omega)

/-- The words of the machine hold every number on the way to a mean, and the byte holds the mean. -/
theorem blend32_eq (hx : wx ≤ 256) (hy : wy ≤ 256) :
    blend32 p00 p01 p10 p11 (.ofNat wx) (.ofNat wy) = some (blend p00 p01 p10 p11 wx wy) := by
  have wx_nat : (UInt32.ofNat wx).toNat = wx :=
    UInt32.toNat_ofNat_of_lt' (Nat.lt_of_le_of_lt hx (by decide))
  have wy_nat : (UInt32.ofNat wy).toNat = wy :=
    UInt32.toNat_ofNat_of_lt' (Nat.lt_of_le_of_lt hy (by decide))
  have share_x : (UInt32.ofNat wx).toNat ≤ 256 := by rwa [wx_nat]
  have share_y : (UInt32.ofNat wy).toNat ≤ 256 := by rwa [wy_nat]
  have byte (p : UInt8) : p.toUInt32.toNat ≤ 255 * 256 := by
    have := p.toNat_lt
    rw [UInt8.toNat_toUInt32]
    omega
  obtain ⟨vy, hvy, vy_nat⟩ := Word.minus?_eq (a := 256) share_y
  obtain ⟨vx, hvx, vx_nat⟩ := Word.minus?_eq (a := 256) share_x
  obtain ⟨top, htop, top_nat⟩ := mix32_eq share_x vx_nat (byte p00) (byte p01)
  obtain ⟨bottom, hbottom, bottom_nat⟩ := mix32_eq share_x vx_nat (byte p10) (byte p11)
  simp only [UInt8.toNat_toUInt32, wx_nat] at top_nat bottom_nat
  have top_le := mix_byte_le p00 p01 hx
  have bottom_le := mix_byte_le p10 p11 hx
  obtain ⟨sum, hsum, sum_nat⟩ := mix32_eq share_y vy_nat (a := top) (b := bottom)
    (by omega) (by omega)
  rw [top_nat, bottom_nat, wy_nat] at sum_nat
  have sum_le := mix_le hy top_le bottom_le
  have size : UInt32.size = 4294967296 := rfl
  have half : (32768 : UInt32).toNat = 32768 := rfl
  have sixteen : (16 : UInt32).toNat % 32 = 16 := rfl
  obtain ⟨rounded, hrounded, rounded_nat⟩ := Word.plus?_eq (a := sum) (b := 32768) (by omega)
  have shifted : (rounded >>> 16).toNat = (blend p00 p01 p10 p11 wx wy).toNat := by
    rw [toNat_blend hx hy, UInt32.toNat_shiftRight, rounded_nat, sum_nat, half, sixteen,
      Nat.shiftRight_eq_div_pow]
  unfold blend32
  simp only [Option.bind_eq_bind, Option.bind_eq_some_iff]
  exact ⟨vy, hvy, vx, hvx, top, htop, bottom, hbottom, sum, hsum, rounded, hrounded,
    Word.byte?_eq shifted⟩

theorem blend_le {high : UInt8} (hx : wx ≤ 256) (hy : wy ≤ 256) (h00 : p00 ≤ high)
    (h01 : p01 ≤ high) (h10 : p10 ≤ high) (h11 : p11 ≤ high) :
    blend p00 p01 p10 p11 wx wy ≤ high := by
  rw [UInt8.le_iff_toNat_le] at *
  rw [toNat_blend hx hy]
  have sum := mix_le hy (mix_le hx h00 h01) (mix_le hx h10 h11)
  omega

theorem le_blend {low : UInt8} (hx : wx ≤ 256) (hy : wy ≤ 256) (h00 : low ≤ p00)
    (h01 : low ≤ p01) (h10 : low ≤ p10) (h11 : low ≤ p11) :
    low ≤ blend p00 p01 p10 p11 wx wy := by
  rw [UInt8.le_iff_toNat_le] at *
  rw [toNat_blend hx hy]
  have sum := le_mix hy (le_mix hx h00 h01) (le_mix hx h10 h11)
  omega

end

/-! ## Scaled regions -/

namespace Samples

variable {taps : TapTable} {source : Samples} {region : Region} {target : Extent} {x y c : Nat}

/-- A value of the scaled region as a machine computes it. -/
def mean32 (taps : TapTable) (source : Samples) (region : Region) (target : Extent)
    (x y c : Nat) : Option UInt8 :=
  let tx := taps region.width target.width x
  let ty := taps region.height target.height y
  blend32
    (source.value (region.x + tx.lower) (region.y + ty.lower) c)
    (source.value (region.x + tx.upper) (region.y + ty.lower) c)
    (source.value (region.x + tx.lower) (region.y + ty.upper) c)
    (source.value (region.x + tx.upper) (region.y + ty.upper) c)
    (.ofNat tx.weight) (.ofNat ty.weight)

/-- Between different sizes every value is the mean that the machine computes. -/
theorem mean32_eq (suits : taps.Suits region target)
    (resized : ¬(region.width = target.width ∧ region.height = target.height))
    (hx : x < target.width) (hy : y < target.height) (hc : c < source.channels) :
    mean32 taps source region target x y c =
      some ((source.scaled taps region target).value x y c) := by
  unfold mean32
  rw [scaled, if_neg resized]
  simp only [interpolate, if_pos hc]
  exact blend32_eq (suits.column x hx).weight_le (suits.row y hy).weight_le

/-- Bounds of a channel over the region bound the channel of the scaled region. -/
theorem scaled_between (suits : taps.Suits region target) (hx : x < target.width)
    (hy : y < target.height) (hc : c < source.channels) {low high : UInt8}
    (bounds : ∀ x y, region.Holds x y → low ≤ source.value x y c ∧ source.value x y c ≤ high) :
    low ≤ (source.scaled taps region target).value x y c ∧
      (source.scaled taps region target).value x y c ≤ high := by
  unfold scaled
  split
  · next size =>
    show low ≤ source.opaqueValue _ _ c ∧ source.opaqueValue _ _ c ≤ high
    rw [opaqueValue, if_pos hc]
    exact bounds _ _ (Region.holds_add (by omega) (by omega))
  · have column := suits.column x hx
    have row := suits.row y hy
    -- the four samples of the mean lie in the region
    have p00 := bounds _ _ (Region.holds_add column.lower_lt row.lower_lt)
    have p01 := bounds _ _ (Region.holds_add column.upper_lt row.lower_lt)
    have p10 := bounds _ _ (Region.holds_add column.lower_lt row.upper_lt)
    have p11 := bounds _ _ (Region.holds_add column.upper_lt row.upper_lt)
    simp only [interpolate, if_pos hc]
    constructor
    · exact le_blend column.weight_le row.weight_le p00.1 p01.1 p10.1 p11.1
    · exact blend_le column.weight_le row.weight_le p00.2 p01.2 p10.2 p11.2

/-- Another source with the same channels of the region is scaled to the same result. -/
theorem resizeWith_congr {result other : Samples} (suits : taps.Suits region target)
    (done : source.resizeWith taps region target = .ok result)
    (extent : other.toExtent = source.toExtent)
    (same : ∀ x y c, region.Holds x y → c < source.channels → c < target.channels →
      other.value x y c = source.value x y c) :
    ∃ result', other.resizeWith taps region target = .ok result' ∧ result'.Agree result := by
  obtain ⟨feeds, within, rfl⟩ := resizeWith_eq_ok_iff.1 done
  have channels : other.channels = source.channels := by rw [extent]
  refine ⟨_, resizeWith_eq_ok ?_ (extent ▸ within), ?_, fun x y c hx hy hc => ?_⟩
  · rwa [Feeds, channels]
  · rw [scaled_extent, scaled_extent]
  · rw [scaled_extent] at hx hy hc
    refine scaled_value_congr suits.spans hx hy channels fun hk x y held => ?_
    exact same x y c held (channels ▸ hk) hc

/-- Scaling a region with taps that stay inside of it. Each value of a channel that source and target
share is a mean of which the machine holds every number in its words, and lies between any bounds of
that channel over the region; so a region of one value keeps it. A channel that the source lacks is
opaque. Nothing but the shared channels of the region counts: another source, and another buffer,
with the same values there gives the same result. -/
theorem resizeWith_means {result : Samples} (suits : taps.Suits region target)
    (done : source.resizeWith taps region target = .ok result) :
    let shared := min source.channels target.channels
    result.toExtent = target ∧
    (∀ x y, x < target.width → y < target.height →
      (∀ c, c < shared →
        (¬(region.width = target.width ∧ region.height = target.height) →
          mean32 taps source region target x y c = some (result.value x y c)) ∧
        (∀ low high,
          (∀ x' y', region.Holds x' y' → low ≤ source.value x' y' c ∧ source.value x' y' c ≤ high) →
            low ≤ result.value x y c ∧ result.value x y c ≤ high) ∧
        (∀ v, (∀ x' y', region.Holds x' y' → source.value x' y' c = v) → result.value x y c = v)) ∧
      (∀ c, shared ≤ c → c < target.channels → result.value x y c = 255)) ∧
    (∀ other : Samples, other.toExtent = source.toExtent →
      (∀ x y c, region.Holds x y → c < shared → other.value x y c = source.value x y c) →
        ∃ result', other.resizeWith taps region target = .ok result' ∧ result'.Agree result) ∧
    ∀ (shape : Shape) (bytes bytes' : Bytes) (offset : Nat), source = shape.read bytes offset →
      (∀ x y c, region.Holds x y → c < shared →
        bytes'.getD (offset + shape.address x y c) 0 = bytes.getD (offset + shape.address x y c) 0) →
        ∃ result', (shape.read bytes' offset).resizeWith taps region target = .ok result' ∧
          result'.Agree result := by
  intro shared
  have elsewhere (other : Samples) (extent : other.toExtent = source.toExtent)
      (same : ∀ x y c, region.Holds x y → c < shared → other.value x y c = source.value x y c) :=
    resizeWith_congr suits done extent fun x y c held hs ht =>
      same x y c held (Nat.lt_min.2 ⟨hs, ht⟩)
  obtain ⟨feeds, within, rfl⟩ := resizeWith_eq_ok_iff.1 done
  refine ⟨scaled_extent .., fun x y hx hy => ⟨fun c hc => ?_, fun c hc hc' => ?_⟩, elsewhere, ?_⟩
  · have hs : c < source.channels := (Nat.lt_min.1 hc).1
    refine ⟨fun resized => mean32_eq suits resized hx hy hs,
      fun low high => scaled_between suits hx hy hs, fun v constant => ?_⟩
    have between : v ≤ (source.scaled taps region target).value x y c ∧ _ ≤ v :=
      scaled_between suits hx hy hs fun x' y' held => by
        rw [constant x' y' held]
        exact ⟨UInt8.le_refl v, UInt8.le_refl v⟩
    exact UInt8.le_antisymm between.2 between.1
  · exact scaled_lacking (by omega) x y
  · rintro shape bytes bytes' offset rfl same
    exact elsewhere (shape.read bytes' offset) rfl same

/-- Two of three pixels, scaled to one pixel with alpha by the taps at the centres of the samples. -/
theorem resizeWith_means_strip :
    let source : Samples := ⟨⟨3, 1, 3⟩, fun x _ c => .ofNat (100 * x + c)⟩
    let region : Region := ⟨1, 0, 2, 1⟩
    ∃ result, source.resizeWith .centred region ⟨1, 1, 4⟩ = .ok result ∧
      mean32 .centred source region ⟨1, 1, 4⟩ 0 0 2 = some 152 ∧ result.value 0 0 2 = 152 ∧
        102 ≤ result.value 0 0 2 ∧ result.value 0 0 2 ≤ 202 ∧ result.value 0 0 3 = 255 := by
  intro source region
  have within : region.Within source.toExtent := ⟨by decide, by decide, by decide, by decide⟩
  have done : source.resizeWith .centred region ⟨1, 1, 4⟩ = .ok (source.scaled .centred region _) :=
    resizeWith_eq_ok (.inr ⟨rfl, rfl⟩) within
  have suits : TapTable.Suits .centred region ⟨1, 1, 4⟩ := by
    refine ⟨fun x hx => ?_, fun y hy => ?_⟩
    · obtain rfl : x = 0 := Nat.lt_one_iff.1 hx
      exact ⟨by decide, by decide, by decide⟩
    · obtain rfl : y = 0 := Nat.lt_one_iff.1 hy
      exact ⟨by decide, by decide, by decide⟩
  obtain ⟨-, values, -⟩ := resizeWith_means suits done
  obtain ⟨shared, alpha⟩ := values 0 0 (by decide) (by decide)
  obtain ⟨machine, between, -⟩ := shared 2 (by decide)
  have mean : mean32 .centred source region ⟨1, 1, 4⟩ 0 0 2 = some 152 := by decide +kernel
  have value := Option.some.inj ((machine (by decide)).symm.trans mean)
  obtain ⟨low, high⟩ := between 102 202 fun x y held => by
    obtain ⟨left, right, -, -⟩ := held
    have columns : x = 1 ∨ x = 2 := by simp only [region] at left right; omega
    show (102 : UInt8) ≤ .ofNat (100 * x + 2) ∧ .ofNat (100 * x + 2) ≤ (202 : UInt8)
    rcases columns with rfl | rfl <;> decide
  exact ⟨_, done, mean, value, low, high, alpha 3 (by decide) (by decide)⟩

end Samples

end Raster
