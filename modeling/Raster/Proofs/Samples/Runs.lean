import Raster.Colour
import Raster.Proofs.Samples.Nearest
import Raster.Proofs.Samples.Taps
import Raster.Proofs.Samples.Transfer
import Raster.Proofs.Samples.Views

/-!
# Runs of kernels over bytes

A kernel describes a whole grid. A machine that runs it visits the rows of its target and makes one
sample after the other from bytes of the source. A run here asks for every byte and every slice, and
has no result if one of them is out of range. So a run with a result is one in which every access is
in range.

Nor is there a result if a sum or a product does not fit in a word: the machine stops at it. Before
anything is written, the ends of a region or a window are added up, once the channels suit. The
centres of nearest samples are multiplied out on the way.

* `Kernel`, `Kernel.run` — the kernels, and their runs from one view into another.
* `Kernel.Ready` — what a kernel leaves to its caller.

Results: `Kernel.run_eq` (a run has a result, which is what the kernel draws, painted),
`View.accesses_in_range` (the places of samples, rows and accesses of a view) and
`View.bilinear_leaves_view` (bilinear taps that do not stay in their region).
-/

namespace Raster

/-- A kernel: it copies each sample from one place, takes the nearest one of a region, or blends four
samples of a region that taps name. Or it converts colours: from packed to packed, from packed to
luma or to chroma, or from luma with two views of chroma. -/
inductive Kernel where
  | transfer (t : Transfer)
  | nearest (region : Region)
  | bilinear (taps : TapTable) (region : Region)
  | repack
  | luma
  | chroma (chromaOf : (r g b : UInt8) → UInt8)
  | colour (u v : View)

/-! ## Samples made of bytes -/

/-- The colour of a sample, if it has three channels. -/
def rgb? (sample : Bytes) : Option Rgb := do
  return ⟨← sample[0]?, ← sample[1]?, ← sample[2]?⟩

/-- The three channels of a colour, if they have room in a sample. -/
def Rgb.sample? (colour : Rgb) (channels : Nat) : Option Bytes :=
  if 3 ≤ channels then some #[colour.r, colour.g, colour.b] else none

/-- The source index nearest to the centre of target sample `i`, if the products are words. -/
def Samples.nearestIndex? (sourceLength targetLength i : Nat) : Option Nat :=
  if FitsWord ((2 * i + 1) * sourceLength) ∧ FitsWord (2 * targetLength) then
    some (nearestIndex sourceLength targetLength i)
  else none

/-- The means of the channels that four samples share with the target. -/
def means? (shared : Nat) (p00 p01 p10 p11 : Bytes) (wx wy : Nat) : Option Bytes := do
  let means ← (List.range shared).mapM fun c => do
    return blend (← p00[c]?) (← p01[c]?) (← p10[c]?) (← p11[c]?) wx wy
  return means.toArray

/-- The mean colour of the block of up to 2×2 samples at `(2 * cx, 2 * cy)`. -/
def View.blockMean? (v : View) (cx cy : Nat) : Option Rgb := do
  let x1 := min (2 * cx + 1) (v.extent.width - 1)
  let y1 := min (2 * cy + 1) (v.extent.height - 1)
  let c00 ← rgb? (← v.pixel? (2 * cx) (2 * cy))
  let c10 ← rgb? (← v.pixel? x1 (2 * cy))
  let c01 ← rgb? (← v.pixel? (2 * cx) y1)
  let c11 ← rgb? (← v.pixel? x1 y1)
  let mean (a b c d : UInt8) : UInt8 := .ofNat ((a.toNat + b.toNat + c.toNat + d.toNat + 2) / 4)
  return ⟨mean c00.r c10.r c01.r c11.r, mean c00.g c10.g c01.g c11.g, mean c00.b c10.b c01.b c11.b⟩

namespace Kernel

/-- The sample at `(x, y)` of the target, made of bytes of the source. -/
def sample? (k : Kernel) (source : View) (target : Extent) (x y : Nat) : Option Bytes :=
  match k with
  | transfer t =>
    let place := t.place source.extent.size target.size x y
    source.pixel? place.1 place.2
  | nearest region => do
    let column ← Samples.nearestIndex? region.width target.width x
    let row ← Samples.nearestIndex? region.height target.height y
    source.pixel? (region.x + column) (region.y + row)
  | bilinear taps region =>
    if region.width = target.width ∧ region.height = target.height then
      source.pixel? (region.x + x) (region.y + y)
    else do
      let tx := taps region.width target.width x
      let ty := taps region.height target.height y
      let p00 ← source.pixel? (region.x + tx.lower) (region.y + ty.lower)
      let p01 ← source.pixel? (region.x + tx.upper) (region.y + ty.lower)
      let p10 ← source.pixel? (region.x + tx.lower) (region.y + ty.upper)
      let p11 ← source.pixel? (region.x + tx.upper) (region.y + ty.upper)
      means? (min source.extent.channels target.channels) p00 p01 p10 p11 tx.weight ty.weight
  | repack =>
    if 3 ≤ source.extent.channels then do
      let sample ← source.pixel? x y
      if target.channels = 1 then
        let colour ← rgb? sample
        return #[grayOfRgb colour.r colour.g colour.b]
      else slice? sample 0 (min source.extent.channels target.channels)
    else do
      let gray ← source.byte? x y 0
      Rgb.sample? ⟨gray, gray, gray⟩ target.channels
  | luma => do
    let colour ← rgb? (← source.pixel? x y)
    return #[lumaOfRgb colour.r colour.g colour.b]
  | chroma chromaOf => do
    let colour ← source.blockMean? x y
    return #[chromaOf colour.r colour.g colour.b]
  | colour u v => do
    let colour := rgbOfYuv (← source.byte? x y 0) (← u.byte? (x / 2) (y / 2) 0)
      (← v.byte? (x / 2) (y / 2) 0)
    colour.sample? target.channels

/-! ## Runs -/

/-- The grid that the kernel draws. -/
def draw (k : Kernel) (source : Samples) (target : Extent) : Except Error Samples :=
  match k with
  | transfer t => t.draw source target
  | nearest region => source.resizeNearest region target
  | bilinear taps region => source.resizeWith taps region target
  | repack => .ok (source.repacked target)
  | luma => .ok (source.luma target)
  | chroma chromaOf => .ok (source.chroma chromaOf target)
  | colour u v => .ok (.coloured source u.samples v.samples target)

/-- The part of the source that the kernel asks about before it draws. -/
def window? (k : Kernel) (target : Extent) : Option Region :=
  match k with
  | transfer (.copy x0 y0) => some ⟨x0, y0, target.width, target.height⟩
  | nearest region | bilinear _ region => some region
  | transfer (.mirror _) | transfer (.rotate _) | repack | luma | chroma _ | colour _ _ => none

/-- The machine stops at the question whether the window lies in the source, which it asks once the
channels suit. -/
def stops (k : Kernel) (source : Samples) (target : Extent) : Bool :=
  source.Feeds target && (k.window? target).any fun window => (window.within? source.size).isNone

/-- A run of the kernel: nothing is written if there is no grid to draw, otherwise the rows of the
target are filled. There is no result if the machine stops, before it writes or at an access that is
out of range. -/
def run (k : Kernel) (source target : View) : Option (Except Error Unit × Bytes) :=
  if k.stops source.samples target.extent then none
  else
    match k.draw source.samples target.extent with
    | .error e => some (.error e, target.bytes)
    | .ok _ => do
      let bytes ← target.fill? (k.sample? source target.extent)
      return (.ok (), bytes)

/-- What the kernel leaves to its caller. The ends of a window or a region have to fit in words. If a
region lies in the source, so do the products that place nearest samples, and taps stay in the region
unless it is only copied. A conversion of colours needs views that belong to frames of one size, with
the channels of their formats. -/
def Ready (k : Kernel) (source target : Extent) : Prop :=
  match k with
  | transfer t => t.InWords target.size
  | nearest region => region.InWords ∧ (region.Within source →
      Samples.CentresFit region.width target.width ∧ Samples.CentresFit region.height target.height)
  | bilinear taps region =>
      region.InWords ∧ (region.Within source → taps.Spans region.size target.size)
  | repack => source.size = target.size ∧
      (3 ≤ target.channels ∨ target.channels = 1 ∧ 3 ≤ source.channels)
  | luma => source.size = target.size ∧ 3 ≤ source.channels ∧ target.channels = 1
  | chroma _ => target.size = source.size.halved ∧ 3 ≤ source.channels ∧ target.channels = 1
  | colour u v => source.size = target.size ∧ u.extent.size = source.size.halved ∧
      v.extent.size = source.size.halved ∧ 3 ≤ target.channels

/-- No machine stops at the ends of a window that are words. -/
theorem stops_eq_false {k : Kernel} {target : Extent}
    (words : ∀ window ∈ k.window? target, window.InWords) (source : Samples) :
    k.stops source target = false := by
  unfold stops
  cases asked : k.window? target with
  | none => exact Bool.and_false _
  | some window =>
    obtain ⟨answer, found, -⟩ := Region.within?_eq (words window asked) source.toExtent
    have found : window.within? source.size = some answer := found
    rw [Option.any_some, found]
    exact Bool.and_false _

/-- The windows of a kernel that is ready end at words. -/
theorem Ready.inWords {k : Kernel} {source target : Extent} (ready : k.Ready source target) :
    ∀ window ∈ k.window? target, window.InWords := by
  intro window asked
  cases k with
  | transfer t =>
    cases t with
    | copy x0 y0 =>
      obtain rfl := Option.some.inj asked
      exact ready
    | mirror axis => cases asked
    | rotate turns => cases asked
  | nearest region =>
    obtain rfl := Option.some.inj asked
    exact ready.1
  | bilinear taps region =>
    obtain rfl := Option.some.inj asked
    exact ready.1
  | repack | luma | chroma chromaOf | colour u v => cases asked

/-- The taps at the centres of the samples suit every region of the source with sides of up to
`2 ^ 24 + 1` samples. -/
theorem ready_centred {region : Region} {source : View}
    (within : region.Within source.extent) (width : region.width ≤ 2 ^ 24 + 1)
    (height : region.height ≤ 2 ^ 24 + 1) (target : Extent) :
    (bilinear .centred region).Ready source.extent target :=
  ⟨within.inWords source.width_inWord source.height_inWord, fun _ =>
    Tap.centred_spans within.width_pos within.height_pos width height target.size⟩

/-- The centres of nearest samples are words if no side is longer than `2 ^ 31` samples. -/
theorem ready_nearest {region : Region} {source : View} {target : Extent}
    (within : region.Within source.extent) (width : region.width ≤ 2 ^ 31)
    (height : region.height ≤ 2 ^ 31) (width' : target.width ≤ 2 ^ 31)
    (height' : target.height ≤ 2 ^ 31) : (nearest region).Ready source.extent target :=
  ⟨within.inWords source.width_inWord source.height_inWord, fun _ =>
    ⟨Samples.CentresFit.of_short width width', Samples.CentresFit.of_short height height'⟩⟩

/-! ## Samples in range -/

variable {k : Kernel} {source target : View} {result : Samples} {x y : Nat}

theorem means?_shows {shared : Nat} {p00 p01 p10 p11 : Bytes} {v00 v01 v10 v11 : Nat → UInt8}
    (h00 : ∀ c, c < shared → p00[c]? = some (v00 c)) (h01 : ∀ c, c < shared → p01[c]? = some (v01 c))
    (h10 : ∀ c, c < shared → p10[c]? = some (v10 c)) (h11 : ∀ c, c < shared → p11[c]? = some (v11 c))
    (wx wy channels : Nat) :
    Shows (means? shared p00 p01 p10 p11 wx wy) channels fun c =>
      if c < shared then blend (v00 c) (v01 c) (v10 c) (v11 c) wx wy else 255 := by
  refine ⟨((List.range shared).map fun c => blend (v00 c) (v01 c) (v10 c) (v11 c) wx wy).toArray,
    ?_, fun c _ => ?_⟩
  · rw [means?, mapM_eq_pure fun c member => ?_]
    · rfl
    · have hc := List.mem_range.1 member
      rw [h00 c hc, h01 c hc, h10 c hc, h11 c hc]
      rfl
  · rw [Array.getD_eq_getD_getElem?, List.getElem?_toArray, List.getElem?_map]
    dsimp only
    split
    · next hc => rw [List.getElem?_range hc, Option.map_some, Option.getD_some]
    · next hc => rw [List.getElem?_eq_none (by simpa using hc), Option.map_none, Option.getD_none]

theorem nearestIndex?_eq {n m i : Nat} (fits : Samples.CentresFit n m) (hi : i < m) :
    Samples.nearestIndex? n m i = some (Samples.nearestIndex n m i) :=
  if_pos ⟨fits.centre hi, fits.2⟩

/-- Taps name four samples in range, and their means make up the sample. -/
theorem sample?_bilinear {taps : TapTable} {region : Region} (within : region.Within source.extent)
    (spans : taps.Spans region.size target.extent.size)
    (resized : ¬(region.width = target.extent.width ∧ region.height = target.extent.height))
    (hx : x < target.extent.width) (hy : y < target.extent.height) :
    Shows ((bilinear taps region).sample? source target.extent x y) target.extent.channels
      ((source.samples.interpolate taps region target.extent).value x y) := by
  obtain ⟨columns, rows⟩ := spans.inside resized
  obtain ⟨left, right⟩ := columns x hx
  obtain ⟨upper, lower⟩ := rows y hy
  -- a tap stays in the region, and the region in the source
  have lookup {dx dy : Nat} (hdx : dx < region.width) (hdy : dy < region.height) :=
    source.pixel?_eq (Nat.lt_of_lt_of_le (Nat.add_lt_add_left hdx region.x) within.right_le)
      (Nat.lt_of_lt_of_le (Nat.add_lt_add_left hdy region.y) within.bottom_le)
  obtain ⟨p00, found00, -, values00⟩ := lookup left upper
  obtain ⟨p01, found01, -, values01⟩ := lookup right upper
  obtain ⟨p10, found10, -, values10⟩ := lookup left lower
  obtain ⟨p11, found11, -, values11⟩ := lookup right lower
  have shared {p : Bytes} {v : Nat → UInt8}
      (values : ∀ c, c < source.extent.channels → p[c]? = some (v c)) (c : Nat)
      (hc : c < min source.extent.channels target.extent.channels) : p[c]? = some (v c) :=
    values c (Nat.lt_of_lt_of_le hc (Nat.min_le_left _ _))
  have means := means?_shows (shared values00) (shared values01) (shared values10) (shared values11)
    (taps region.width target.extent.width x).weight
    (taps region.height target.extent.height y).weight target.extent.channels
  rw [sample?, if_neg resized]
  simp only [found00, found01, found10, found11, Option.bind_eq_bind, Option.bind_some]
  refine means.congr fun c hc => ?_
  have present : c < min source.extent.channels target.extent.channels ↔
      c < source.samples.channels := by
    show _ ↔ c < source.extent.channels
    omega
  simp only [present]
  rfl

/-- The colour of a sample with three channels in range. -/
theorem exists_rgb (colours : 3 ≤ source.extent.channels) (hx : x < source.extent.width)
    (hy : y < source.extent.height) :
    ∃ sample, source.pixel? x y = some sample ∧
      rgb? sample = some (source.samples.rgb x y) := by
  obtain ⟨sample, found, -, values⟩ := source.pixel?_eq hx hy
  refine ⟨sample, found, ?_⟩
  rw [rgb?, values 0 (by omega), values 1 (by omega), values 2 (by omega)]
  rfl

/-- A sample of one byte. -/
theorem shows_singleton {value : Nat → UInt8} {byte : UInt8} (same : byte = value 0) :
    Shows (some #[byte]) 1 value := by
  refine ⟨_, rfl, fun c hc => ?_⟩
  obtain rfl : c = 0 := by omega
  exact same

/-- Three channels of a colour, and opaque alpha after them. -/
theorem shows_colour {channels : Nat} (colours : 3 ≤ channels) (colour : Rgb) :
    Shows (colour.sample? channels) channels colour.channel := by
  refine ⟨_, if_pos colours, fun c _ => ?_⟩
  match c with
  | 0 | 1 | 2 => rfl
  | c + 3 => exact Array.getD_eq_getD_getElem? .. ▸ rfl

/-- The leading channels of a sample. -/
theorem exists_slice (hx : x < source.extent.width) (hy : y < source.extent.height)
    (channels : Nat) :
    ∃ sample, source.pixel? x y = some sample ∧
      Shows (slice? sample 0 (min source.extent.channels channels)) channels
        (source.samples.opaqueValue x y) := by
  obtain ⟨sample, found, size, values⟩ := source.pixel?_eq hx hy
  refine ⟨sample, found, _, slice?_eq (Nat.zero_le _) (by omega), fun c hc => ?_⟩
  rw [Array.getD_eq_getD_getElem?, Array.getElem?_extract, Nat.zero_add]
  by_cases held : c < source.extent.channels
  · rw [if_pos (by omega), values c held]
    exact (if_pos held).symm
  · rw [if_neg (by omega)]
    exact (if_neg held).symm

theorem inside_of_size {e e' : Extent} (same : e.size = e'.size) (hx : x < e'.width)
    (hy : y < e'.height) : x < e.width ∧ y < e.height := by
  obtain ⟨width, height⟩ := Size.mk.inj same
  omega

theorem sides_of_halved {e e' : Extent} (half : e.size = e'.size.halved) :
    e.width = (e'.width + 1) / 2 ∧ e.height = (e'.height + 1) / 2 := Size.mk.inj half

theorem sample?_repack (ready : repack.Ready source.extent target.extent)
    (hx : x < target.extent.width) (hy : y < target.extent.height) :
    Shows (repack.sample? source target.extent x y) target.extent.channels
      ((source.samples.repacked target.extent).value x y) := by
  obtain ⟨size, channels⟩ := ready
  obtain ⟨hx, hy⟩ := inside_of_size size hx hy
  unfold Samples.repacked
  dsimp only [sample?]
  by_cases colours : 3 ≤ source.extent.channels
  · have colours' : 3 ≤ source.samples.channels := colours
    simp only [if_pos colours, if_pos colours']
    split
    · next gray =>
      obtain ⟨sample, found, rgb⟩ := exists_rgb colours hx hy
      rw [found, gray]
      simp only [Option.bind_eq_bind, Option.bind_some, rgb]
      exact shows_singleton rfl
    · obtain ⟨sample, found, leading⟩ := exists_slice hx hy target.extent.channels
      rw [found]
      exact leading
  · have colours' : ¬3 ≤ source.samples.channels := colours
    simp only [if_neg colours, if_neg colours']
    rw [source.byte?_eq hx hy source.fits.channels_pos]
    refine (shows_colour (by omega) ⟨_, _, _⟩).congr fun c _ => ?_
    match c with
    | 0 | 1 | 2 => rfl
    | c + 3 => exact (if_neg (by omega)).symm

theorem sample?_luma (ready : luma.Ready source.extent target.extent)
    (hx : x < target.extent.width) (hy : y < target.extent.height) :
    Shows (luma.sample? source target.extent x y) target.extent.channels
      ((source.samples.luma target.extent).value x y) := by
  obtain ⟨size, colours, gray⟩ := ready
  obtain ⟨hx, hy⟩ := inside_of_size size hx hy
  obtain ⟨sample, found, rgb⟩ := exists_rgb colours hx hy
  simp only [sample?, found, Option.bind_eq_bind, Option.bind_some, rgb, gray]
  exact shows_singleton rfl

theorem blockMean?_eq (colours : 3 ≤ source.extent.channels) (hx : 2 * x < source.extent.width)
    (hy : 2 * y < source.extent.height) :
    source.blockMean? x y = some ⟨source.samples.blockMean 0 x y, source.samples.blockMean 1 x y,
      source.samples.blockMean 2 x y⟩ := by
  have hx1 : min (2 * x + 1) (source.extent.width - 1) < source.extent.width := by omega
  have hy1 : min (2 * y + 1) (source.extent.height - 1) < source.extent.height := by omega
  obtain ⟨p00, found00, rgb00⟩ := exists_rgb colours hx hy
  obtain ⟨p10, found10, rgb10⟩ := exists_rgb colours hx1 hy
  obtain ⟨p01, found01, rgb01⟩ := exists_rgb colours hx hy1
  obtain ⟨p11, found11, rgb11⟩ := exists_rgb colours hx1 hy1
  simp only [View.blockMean?, found00, found10, found01, found11, rgb00, rgb10, rgb01, rgb11,
    Option.bind_eq_bind, Option.bind_some]
  rfl

theorem sample?_chroma {chromaOf : (r g b : UInt8) → UInt8}
    (ready : (chroma chromaOf).Ready source.extent target.extent) (hx : x < target.extent.width)
    (hy : y < target.extent.height) :
    Shows ((chroma chromaOf).sample? source target.extent x y) target.extent.channels
      ((source.samples.chroma chromaOf target.extent).value x y) := by
  obtain ⟨size, colours, gray⟩ := ready
  obtain ⟨width, height⟩ := sides_of_halved size
  have mean := blockMean?_eq (x := x) (y := y) colours (by omega) (by omega)
  simp only [sample?, mean, Option.bind_eq_bind, Option.bind_some, gray]
  exact shows_singleton rfl

theorem sample?_colour {u v : View} (ready : (colour u v).Ready source.extent target.extent)
    (hx : x < target.extent.width) (hy : y < target.extent.height) :
    Shows ((colour u v).sample? source target.extent x y) target.extent.channels
      ((Samples.coloured source.samples u.samples v.samples target.extent).value x y) := by
  obtain ⟨size, blue, red, colours⟩ := ready
  obtain ⟨hx, hy⟩ := inside_of_size size hx hy
  have halved (w : View) (half : w.extent.size = source.extent.size.halved) :
      w.byte? (x / 2) (y / 2) 0 = some (w.samples.value (x / 2) (y / 2) 0) := by
    obtain ⟨width, height⟩ := sides_of_halved half
    exact w.byte?_eq (by omega) (by omega) w.fits.channels_pos
  simp only [sample?, source.byte?_eq hx hy source.fits.channels_pos, halved u blue, halved v red,
    Option.bind_eq_bind, Option.bind_some]
  exact shows_colour colours _

/-- Each sample of the target is made of bytes in range, and is the one that the kernel draws. -/
theorem sample?_shows (drawn : k.draw source.samples target.extent = .ok result)
    (ready : k.Ready source.extent target.extent) (hx : x < target.extent.width)
    (hy : y < target.extent.height) :
    Shows (k.sample? source target.extent x y) target.extent.channels (result.value x y) := by
  cases k with
  | transfer t =>
    obtain ⟨-, fits, rfl⟩ := Transfer.draw_eq_ok_iff.1 drawn
    obtain ⟨hx', hy'⟩ := Transfer.place_inside fits hx hy
    exact source.pixel?_shows hx' hy' _
  | nearest region =>
    obtain ⟨-, within, rest⟩ := Samples.checked_eq_ok.1 drawn
    obtain rfl := Except.ok.inj rest
    obtain ⟨columns, rows⟩ := ready.2 within
    obtain ⟨hx', hy'⟩ := (Samples.nearest_holds within target.extent x y).inside within
    simp only [sample?, nearestIndex?_eq columns hx, nearestIndex?_eq rows hy,
      Option.bind_eq_bind, Option.bind_some]
    exact source.pixel?_shows hx' hy' _
  | bilinear taps region =>
    obtain ⟨-, within, rfl⟩ := Samples.resizeWith_eq_ok_iff.1 drawn
    unfold Samples.scaled
    split
    · next same =>
      have held : region.Holds (region.x + x) (region.y + y) :=
        Region.holds_add (by omega) (by omega)
      obtain ⟨hx', hy'⟩ := held.inside within
      rw [sample?, if_pos same]
      exact source.pixel?_shows hx' hy' _
    · next resized => exact sample?_bilinear within (ready.2 within) resized hx hy
  | repack =>
    obtain rfl := Except.ok.inj drawn
    exact sample?_repack ready hx hy
  | luma =>
    obtain rfl := Except.ok.inj drawn
    exact sample?_luma ready hx hy
  | chroma chromaOf =>
    obtain rfl := Except.ok.inj drawn
    exact sample?_chroma ready hx hy
  | colour u v =>
    obtain rfl := Except.ok.inj drawn
    exact sample?_colour ready hx hy

/-- A run has a result: what the kernel draws, painted into the target. -/
theorem run_eq (ready : k.Ready source.extent target.extent) :
    k.run source target = some (target.receive (k.draw source.samples target.extent)) := by
  unfold run
  rw [stops_eq_false ready.inWords, if_neg Bool.false_ne_true]
  split
  · next e refused =>
    rw [refused]
    rfl
  · next result drawn =>
    rw [drawn, target.fill?_eq fun x y hx hy => sample?_shows drawn ready hx hy]
    rfl

/-- A run stops at the first place that no sample can be made for. -/
theorem run_eq_none (drawn : k.draw source.samples target.extent = .ok result)
    (hx : x < target.shape.width) (hy : y < target.shape.height)
    (missing : k.sample? source target.extent x y = none) : k.run source target = none := by
  unfold run
  split
  · rfl
  · rw [drawn]
    dsimp only
    rw [target.fill?_eq_none hx hy missing]
    rfl

/-- So does a run with a lower tap past the end of the source. -/
theorem run_bilinear_eq_none {taps : TapTable} {region : Region}
    (within : region.Within source.extent) (feeds : source.samples.Feeds target.extent)
    (resized : ¬(region.width = target.extent.width ∧ region.height = target.extent.height))
    (hx : x < target.shape.width) (hy : y < target.shape.height)
    (lost : source.pixel? (region.x + (taps region.width target.extent.width x).lower)
      (region.y + (taps region.height target.extent.height y).lower) = none) :
    (bilinear taps region).run source target = none := by
  refine run_eq_none (Samples.resizeWith_eq_ok_iff.2 ⟨feeds, within, rfl⟩) hx hy ?_
  rw [sample?, if_neg resized]
  dsimp only
  rw [lost]
  rfl

end Kernel

/-! ## Places, rows and runs together -/

/-- What a shape that passes the check is worth, for a buffer whose length is a word. The sums of the
check are words. No two channels of samples share a byte, and all lie before the end of the buffer.
The loop over the rows calls its function once for each row of the grid, in order, on pieces that
follow each other from one row stride to the next and make up the buffer with what is left; each of
them holds the samples of its row, where their addresses are. And no kernel that is run into such a
view, from any other, leaves a buffer or a row, if it is ready. Bilinear scaling is, for regions of
the source with sides of up to `2 ^ 24 + 1` samples, and scaling to nearest samples for sides of up to
`2 ^ 31`. -/
theorem View.accesses_in_range {s : Shape} {bytes : Bytes} (sized : FitsWord bytes.size)
    (accepted : s.check bytes.size = .ok ()) :
    FitsWord s.span ∧
    (Set.MapsTo (fun p => s.address p.1 p.2.1 p.2.2) s.toExtent.places (Set.Iio bytes.size) ∧
      Set.InjOn (fun p => s.address p.1 p.2.1 p.2.2) s.toExtent.places) ∧
    (∀ (m : Type → Type) [Monad m] [LawfulMonad m] (f : (y : Nat) → (row : Bytes) → m Bytes),
      s.visitRows f bytes = do
        let rows ← (List.range s.height).mapM fun y => f y (s.row bytes y)
        return join rows ++ s.afterRows bytes) ∧
    (∀ f : (y : Nat) → (row : Bytes) → Bytes,
      Id.run (s.visitRows (fun y row => pure (f y row)) bytes) = s.mapRows f bytes) ∧
    join (s.rows bytes) ++ s.afterRows bytes = bytes ∧
    (∀ y, y < s.height →
      let stop := y * s.rowStride + (s.row bytes y).size
      s.row bytes y = bytes.extract (y * s.rowStride) stop ∧ stop ≤ bytes.size ∧
        (y + 1 < s.height → stop = (y + 1) * s.rowStride) ∧ s.rowSpan ≤ (s.row bytes y).size ∧
        ∀ x c, x < s.width → c < s.channels →
          (s.row bytes y).getD (x * s.pixelStride + c) 0 = bytes.getD (s.address x y c) 0) ∧
    (∀ (k : Kernel) (source : View), k.Ready source.extent s.toExtent →
      k.run source ⟨bytes, s, sized, accepted⟩ =
        some (receive ⟨bytes, s, sized, accepted⟩ (k.draw source.samples s.toExtent))) ∧
    ∀ (region : Region) (source : View), region.Within source.extent →
      (region.width ≤ 2 ^ 24 + 1 → region.height ≤ 2 ^ 24 + 1 →
        (Kernel.bilinear .centred region).Ready source.extent s.toExtent) ∧
      (region.width ≤ 2 ^ 31 → region.height ≤ 2 ^ 31 → s.width ≤ 2 ^ 31 → s.height ≤ 2 ^ 31 →
        (Kernel.nearest region).Ready source.extent s.toExtent) := by
  have fits := Shape.check_eq_ok.1 accepted
  refine ⟨sized.of_le fits.span_le, ⟨Shape.mapsTo_address fits, Shape.injOn_address fits⟩,
    fun m _ _ f => Shape.visitRows_eq fits f, fun f => ?_, s.join_rows bytes, fun y hy => ?_,
    fun k source ready => Kernel.run_eq ready, fun region source within =>
      ⟨fun width height => Kernel.ready_centred within width height s.toExtent,
        Kernel.ready_nearest within⟩⟩
  · rw [Shape.visitRows_eq_pure (m := Id) fits fun _ _ => rfl]
    rfl
  · obtain ⟨place, stop, next⟩ := Shape.row_place fits hy
    have span := Shape.rowSpan_le_size_row fits hy
    refine ⟨place, stop, next, span, fun x c hx hc => ?_⟩
    have offset := Shape.rowOffset_lt hx hc
    rw [Shape.getD_row fits hy (by omega), Shape.address, Nat.add_assoc]

/-- A row of three samples, the last without padding, in a view whose rows are said to be one byte
apart: the samples are mirrored into it, and the bytes between and after them are kept. -/
theorem View.accesses_in_range_short :
    let s : Shape := ⟨⟨3, 1, 2⟩, 1, 3⟩
    let bytes : Bytes := .replicate 10 9
    let source : View := ⟨#[1, 2, 3, 4, 5, 6], ⟨⟨3, 1, 2⟩, 6, 2⟩, by decide, rfl⟩
    ∃ (sized : FitsWord bytes.size) (accepted : s.check bytes.size = .ok ()),
      s.address 2 0 1 < bytes.size ∧ s.rowSpan ≤ (s.row bytes 0).size ∧
      (Kernel.transfer (.mirror .horizontal)).run source ⟨bytes, s, sized, accepted⟩ =
        some (.ok (), #[5, 6, 9, 3, 4, 9, 1, 2, 9, 9]) := by
  intro s bytes source
  have sized : FitsWord bytes.size := by decide
  have accepted : s.check bytes.size = .ok () := rfl
  obtain ⟨-, ⟨inside, -⟩, -, -, -, rows, runs, -⟩ := View.accesses_in_range sized accepted
  obtain ⟨-, -, -, span, -⟩ := rows 0 (by decide)
  have last : ((2, 0, 1) : Nat × Nat × Nat) ∈ s.toExtent.places :=
    ⟨by decide, by decide, by decide⟩
  refine ⟨sized, accepted, inside last, span, ?_⟩
  rw [runs (.transfer (.mirror .horizontal)) source trivial]
  have painted : s.paint (fun x y => source.samples.opaqueValue (3 - 1 - x) y) bytes =
    #[5, 6, 9, 3, 4, 9, 1, 2, 9, 9] := by decide +kernel
  exact congrArg (fun after => some (Except.ok (), after)) painted

/-- A row of black samples without padding. -/
def View.blackRow (n : Nat) (positive : 0 < n) (word : FitsWord n) : View where
  bytes := .replicate n 0
  shape := ⟨⟨n, 1, 1⟩, n, 1⟩
  sized := by rwa [Array.size_replicate]
  accepted := by
    rw [Array.size_replicate, Shape.check_eq_ok]
    refine ⟨positive, Nat.one_pos, Nat.one_pos, Nat.le_refl 1, fun several => ?_, ?_⟩
    · exact absurd several (Nat.lt_irrefl 1)
    · show (1 - 1) * n + ((n - 1) * 1 + 1) ≤ n
      omega

/-- There is no sample after the last. -/
theorem View.pixel?_blackRow {n : Nat} (positive : 0 < n) (word : FitsWord n) (y : Nat) :
    (blackRow n positive word).pixel? n y = none := by
  refine if_neg fun inside => ?_
  have stop : y * n + n * 1 + 0 + 1 ≤ (Array.replicate n (0 : UInt8)).size := inside.2
  rw [Array.size_replicate] at stop
  omega

/-- A whole row is scaled to one sample more. The position of the last one is rounded up to a sample
that the row does not have, and the run stops at it. -/
theorem View.bilinear_leaves_view :
    let source : View := .blackRow 16777220 (by decide) (by decide)
    let target : View := .blackRow 16777221 (by decide) (by decide)
    let region : Region := ⟨0, 0, 16777220, 1⟩
    region.Within source.extent ∧ source.samples.Feeds target.extent ∧
      (Kernel.bilinear .centred region).run source target = none := by
  intro source target region
  have within : region.Within source.extent := ⟨by decide, by decide, by decide, by decide⟩
  have feeds : source.samples.Feeds target.extent := .inl (Nat.le_refl 1)
  refine ⟨within, feeds, Kernel.run_bilinear_eq_none within feeds (x := 16777220) (y := 0) (by decide)
    (by decide) (by decide) ?_⟩
  show source.pixel? (0 + (Tap.centred 16777220 16777221 16777220).lower) _ = none
  rw [Tap.centred_lower_long, Nat.zero_add]
  exact pixel?_blackRow _ _ _

end Raster
