import Raster.Rounding
import Raster.Samples.Kernel

/-!
# Bilinear scaling

A target sample is a weighted mean of four source samples. Along each axis a tap
names the two neighbours and the weight of the upper one in 1/256; the mean is
taken in integers and rounded.

* `Tap.centred` — the taps of an axis, aligned at the centres of the samples.
* `blend` — the mean of four values.
* `Samples.resizeBilinear` — a region scaled to the target; equal sizes are copied.
-/

namespace Raster

/-! ## Taps -/

/-- Two neighbouring indices and the weight of the second in 1/256. -/
structure Tap where
  lower : Nat
  upper : Nat
  weight : Nat
  deriving DecidableEq

/-- The taps of an axis: source length, target length and target index. -/
abbrev TapTable := (sourceLength targetLength i : Nat) → Tap

/-- The source position of the centre of target sample `i`, kept between the
first and the last source sample. -/
def tapPosition (sourceLength targetLength i : Nat) : Float32 :=
  let scale := binary32 sourceLength / binary32 targetLength
  let position := (binary32 i + 0.5) * scale - 0.5
  let last := binary32 (sourceLength - 1)
  if position < 0 then 0 else if last < position then last else position

/-- The taps at the centres of the samples. Only the upper index is kept from passing
the last source sample. The lower one goes by the position, and the last source
index may be rounded up in 32 bits. -/
def Tap.centred : TapTable := fun sourceLength targetLength i =>
  let position := tapPosition sourceLength targetLength i
  let floor := position.toUInt64.toNat
  { lower := floor
    upper := min (floor + 1) (sourceLength - 1)
    weight := round32 ((position - binary32 floor) * 256) }

/-! ## Means -/

/-- The rounded mean of four values: `p00` and `p01` lie side by side in one row,
`p10` and `p11` below them. -/
def blend (p00 p01 p10 p11 : UInt8) (wx wy : Nat) : UInt8 :=
  let top := p00.toNat * (256 - wx) + p01.toNat * wx
  let bottom := p10.toNat * (256 - wx) + p11.toNat * wx
  UInt8.ofNat ((top * (256 - wy) + bottom * wy + 32768) / 65536)

namespace Samples

/-- The grid of extent `target` whose samples are the means that the taps of both
axes name inside of a region. -/
def interpolate (taps : TapTable) (source : Samples) (region : Region) (target : Extent) :
    Samples where
  toExtent := target
  value x y c :=
    let tx := taps region.width target.width x
    let ty := taps region.height target.height y
    if c < source.channels then
      blend
        (source.value (region.x + tx.lower) (region.y + ty.lower) c)
        (source.value (region.x + tx.upper) (region.y + ty.lower) c)
        (source.value (region.x + tx.lower) (region.y + ty.upper) c)
        (source.value (region.x + tx.upper) (region.y + ty.upper) c) tx.weight ty.weight
    else 255

/-- A region scaled to the target with given taps. -/
def resizeWith (taps : TapTable) (source : Samples) (region : Region) (target : Extent) :
    Except Error Samples := do
  checkChannels "resize" source target
  checkRegion "resize" source region
  if region.width = target.width ∧ region.height = target.height then
    source.copyRegion region.x region.y target
  else .ok (source.interpolate taps region target)

/-- A region scaled to the target, bilinear between the centres of the samples. -/
def resizeBilinear (source : Samples) (region : Region) (target : Extent) :
    Except Error Samples :=
  source.resizeWith .centred region target

end Samples

end Raster
