import Raster.Proofs.Samples.Agreement
import Raster.Samples.Bilinear

/-!
# What kernels accept and compute

A kernel checks its grids once and then fills the whole target. For each check
there is the condition it stands for, and for each kernel its result without the
checks:

* `Samples.Feeds`, `Region.Within` — the conditions of the two checks.
* `Region.InWords` — regions that both checks can be made for in words.
* `TapTable.Suits` — taps that stay within the region that they scale, with shares of at most one.
* `TapTable.Spans` — sizes between which no tap leaves the region.
* `Samples.AgreeOn` — grids that agree on a region.
* `Samples.part`, `Samples.nearest`, `Samples.scaled` — kernels without their checks.
* `copyRegion_eq_ok`, … — a kernel succeeds where its conditions hold.
* `Agree.pull`, `Agree.nearest`, `Agree.scaled` — grids that agree give grids that agree,
  since no kernel reads outside of the extent of its source, as long as taps stay inside.
* `AgreeOn.scaled`, `AgreeOn.nearest` — nor does scaling a region read outside of the region.
-/

namespace Raster

/-! ## Conditions -/

/-- The region holds a sample and lies inside of the extent. -/
structure Region.Within (r : Region) (e : Extent) : Prop where
  width_pos : 0 < r.width
  height_pos : 0 < r.height
  right_le : r.x + r.width ≤ e.width
  bottom_le : r.y + r.height ≤ e.height

/-- The sample at `(x, y)` lies in the region. -/
def Region.Holds (r : Region) (x y : Nat) : Prop :=
  r.x ≤ x ∧ x < r.x + r.width ∧ r.y ≤ y ∧ y < r.y + r.height

theorem Region.holds_add {r : Region} {dx dy : Nat} (hdx : dx < r.width) (hdy : dy < r.height) :
    r.Holds (r.x + dx) (r.y + dy) := by
  unfold Holds
  omega

theorem Region.Holds.inside {r : Region} {e : Extent} {x y : Nat} (held : r.Holds x y)
    (within : r.Within e) : x < e.width ∧ y < e.height := by
  obtain ⟨-, right, -, bottom⟩ := held
  exact ⟨Nat.lt_of_lt_of_le right within.right_le, Nat.lt_of_lt_of_le bottom within.bottom_le⟩

/-- The right and the lower end of the region are words. -/
def Region.InWords (r : Region) : Prop := FitsWord (r.x + r.width) ∧ FitsWord (r.y + r.height)

/-- A region within an extent whose sides are words ends at words. -/
theorem Region.Within.inWords {r : Region} {e : Extent} (within : r.Within e)
    (width : FitsWord e.width) (height : FitsWord e.height) : r.InWords :=
  ⟨width.of_le within.right_le, height.of_le within.bottom_le⟩

/-- A region that ends at words can be asked about, and only one that lies inside is found there. -/
theorem Region.within?_eq {r : Region} (words : r.InWords) (e : Extent) :
    ∃ answer, r.within? e.size = some answer ∧ (answer = true ↔ r.Within e) := by
  have split : r.Within e ↔
      r.size.isEmpty = false ∧ r.x + r.width ≤ e.width ∧ r.y + r.height ≤ e.height := by
    rw [Size.isEmpty_eq_false]
    exact ⟨fun ⟨width, height, right, bottom⟩ => ⟨⟨width, height⟩, right, bottom⟩,
      fun ⟨⟨width, height⟩, right, bottom⟩ => ⟨width, height, right, bottom⟩⟩
  unfold within?
  cases empty : r.size.isEmpty with
  | true => exact ⟨false, rfl, by simp [split, empty]⟩
  | false =>
    simp only [Bool.false_eq_true, if_false, add?_eq_some words.1, add?_eq_some words.2,
      Option.bind_eq_bind, Option.bind_some]
    by_cases right : e.size.width < r.x + r.width
    · rw [if_pos right]
      refine ⟨false, rfl, by simp, fun within => ?_⟩
      exact absurd within.right_le (Nat.not_le.2 right)
    · rw [if_neg right]
      refine ⟨_, rfl, ?_⟩
      rw [decide_eq_true_iff, split]
      exact ⟨fun bottom => ⟨empty, Nat.not_lt.1 right, bottom⟩, fun h => h.2.2⟩

namespace Samples

/-- The source has the channels of the target, or lacks its alpha only. -/
def Feeds (source : Samples) (target : Extent) : Prop :=
  target.channels ≤ source.channels ∨ (source.channels = 3 ∧ target.channels = 4)

instance (source : Samples) (target : Extent) : Decidable (source.Feeds target) :=
  inferInstanceAs (Decidable (_ ∨ _ ∧ _))

theorem checkChannels_eq_ok {primitive : String} {source : Samples} {target : Extent} :
    checkChannels primitive source target = .ok () ↔ source.Feeds target := by
  rw [checkChannels, ite_error_eq_ok, and_iff_left rfl, Feeds]
  omega

theorem checkRegion_eq_ok {primitive : String} {source : Samples} {r : Region} :
    checkRegion primitive source r = .ok () ↔ r.Within source.toExtent := by
  rw [checkRegion, ite_error_eq_ok, and_iff_left rfl]
  constructor
  · intro inside
    constructor <;> omega
  · rintro ⟨width, height, right, bottom⟩
    omega

theorem checkSameSize_eq_ok {primitive : String} {source : Samples} {target : Extent} :
    checkSameSize primitive source target = .ok () ↔
      source.Feeds target ∧ source.size = target.size := by
  rw [checkSameSize, check_bind_eq_ok, checkChannels_eq_ok, ite_ok_eq_ok, and_iff_left rfl]

/-- What the two checks of a kernel that scales a region leave of it. -/
theorem checked_eq_ok {primitive : String} {source result : Samples} {target : Extent}
    {region : Region} {rest : Except Error Samples} :
    (do
      checkChannels primitive source target
      checkRegion primitive source region
      rest) = .ok result ↔
      source.Feeds target ∧ region.Within source.toExtent ∧ rest = .ok result := by
  rw [check_bind_eq_ok, check_bind_eq_ok, checkChannels_eq_ok, checkRegion_eq_ok]

theorem wholeRegion_within {s : Samples} {size : Size} (nonempty : size.isEmpty = false)
    (h : s.size = size) : s.wholeRegion.Within s.toExtent := by
  subst h
  obtain ⟨width, height⟩ := Size.isEmpty_eq_false.1 nonempty
  exact ⟨width, height, by simp [wholeRegion], by simp [wholeRegion]⟩

/-! ## Picking samples -/

variable {source : Samples} {target : Extent}

/-- What the check of the channels and a test of the sizes leave of a kernel that picks samples. -/
theorem channels_pull_eq_ok {primitive : String} {result : Samples} {fits : Prop} [Decidable fits]
    {place : (x y : Nat) → Nat × Nat} {e : Error} :
    (do
      checkChannels primitive source target
      if fits then .ok (source.pull target place) else .error e) = .ok result ↔
      source.Feeds target ∧ fits ∧ source.pull target place = result := by
  rw [check_bind_eq_ok, checkChannels_eq_ok, ite_ok_eq_ok]

/-- What the check of the sizes leaves of it. -/
theorem sameSize_pull_eq_ok {primitive : String} {result : Samples}
    {place : (x y : Nat) → Nat × Nat} :
    (do
      checkSameSize primitive source target
      return source.pull target place) = .ok result ↔
      source.Feeds target ∧ source.size = target.size ∧ source.pull target place = result := by
  rw [check_bind_eq_ok, checkSameSize_eq_ok, and_assoc]
  exact and_congr_right fun _ => and_congr_right fun _ => ⟨Except.ok.inj, congrArg Except.ok⟩

/-- The samples from `(x0, y0)` on. -/
def part (source : Samples) (x0 y0 : Nat) (target : Extent) : Samples :=
  source.pull target fun x y => (x0 + x, y0 + y)

/-- A grid copied into its own extent. -/
theorem part_same (s : Samples) : (s.part 0 0 s.toExtent).Agree s := by
  refine ⟨rfl, fun x y c _ _ hc => ?_⟩
  have hc : c < s.channels := hc
  show s.opaqueValue (0 + x) (0 + y) c = _
  rw [opaqueValue, if_pos hc, Nat.zero_add, Nat.zero_add]

theorem copyRegion_eq_ok {x0 y0 : Nat} (feeds : source.Feeds target)
    (right : x0 + target.width ≤ source.width) (bottom : y0 + target.height ≤ source.height) :
    source.copyRegion x0 y0 target = .ok (source.part x0 y0 target) :=
  channels_pull_eq_ok.2 ⟨feeds, ⟨right, bottom⟩, rfl⟩

theorem mirrorHorizontal_eq_ok (feeds : source.Feeds target) (size : source.size = target.size) :
    source.mirrorHorizontal target =
      .ok (source.pull target fun x y => (target.width - 1 - x, y)) :=
  sameSize_pull_eq_ok.2 ⟨feeds, size, rfl⟩

theorem mirrorVertical_eq_ok (feeds : source.Feeds target) (size : source.size = target.size) :
    source.mirrorVertical target =
      .ok (source.pull target fun x y => (x, target.height - 1 - y)) :=
  sameSize_pull_eq_ok.2 ⟨feeds, size, rfl⟩

theorem rotateCcw_eq_ok {turns : Nat} (feeds : source.Feeds target)
    (size : target.size = if turns % 2 = 1 then source.size.swapped else source.size) :
    source.rotateCcw turns target = .ok (source.pull target (rotationSource turns source.size)) :=
  channels_pull_eq_ok.2 ⟨feeds, size, rfl⟩

/-- The samples of a region nearest to those of the target. -/
def nearest (source : Samples) (region : Region) (target : Extent) : Samples :=
  source.pull target fun x y =>
    (region.x + nearestIndex region.width target.width x,
      region.y + nearestIndex region.height target.height y)

theorem resizeNearest_eq_ok {region : Region} (feeds : source.Feeds target)
    (within : region.Within source.toExtent) :
    source.resizeNearest region target = .ok (source.nearest region target) := by
  unfold resizeNearest
  rw [checkChannels_eq_ok.2 feeds, checkRegion_eq_ok.2 within]
  rfl

/-- A region copied where it has the size of the target, and interpolated elsewhere. -/
def scaled (taps : TapTable) (source : Samples) (region : Region) (target : Extent) : Samples :=
  if region.width = target.width ∧ region.height = target.height then
    source.part region.x region.y target
  else source.interpolate taps region target

theorem scaled_extent (taps : TapTable) (source : Samples) (r : Region) (target : Extent) :
    (source.scaled taps r target).toExtent = target := by
  unfold scaled
  split <;> rfl

/-- A channel that the source lacks is opaque. -/
theorem scaled_lacking {taps : TapTable} {region : Region} {c : Nat} (lacks : source.channels ≤ c)
    (x y : Nat) : (source.scaled taps region target).value x y c = 255 := by
  have opaqueAt : ¬c < source.channels := Nat.not_lt.2 lacks
  unfold scaled
  split
  · exact if_neg opaqueAt
  · exact if_neg opaqueAt

theorem resizeWith_eq_ok {taps : TapTable} {region : Region} (feeds : source.Feeds target)
    (within : region.Within source.toExtent) :
    source.resizeWith taps region target = .ok (source.scaled taps region target) := by
  unfold resizeWith scaled
  rw [checkChannels_eq_ok.2 feeds, checkRegion_eq_ok.2 within]
  show (if region.width = target.width ∧ region.height = target.height then _ else _) = _
  split
  · next same =>
    have right := within.right_le
    have bottom := within.bottom_le
    rw [same.1] at right
    rw [same.2] at bottom
    exact copyRegion_eq_ok feeds right bottom
  · rfl

theorem resizeWith_eq_ok_iff {taps : TapTable} {region : Region} {result : Samples} :
    source.resizeWith taps region target = .ok result ↔
      source.Feeds target ∧ region.Within source.toExtent ∧
        source.scaled taps region target = result := by
  constructor
  · intro done
    obtain ⟨feeds, within, -⟩ := checked_eq_ok.1 done
    rw [resizeWith_eq_ok feeds within] at done
    exact ⟨feeds, within, Except.ok.inj done⟩
  · rintro ⟨feeds, within, rfl⟩
    exact resizeWith_eq_ok feeds within

end Samples

/-! ## Taps -/

/-- The tap names two samples of an axis of this length and a share of at most one. -/
structure Tap.Within (t : Tap) (length : Nat) : Prop where
  lower_lt : t.lower < length
  upper_lt : t.upper < length
  weight_le : t.weight ≤ 256

/-- The taps that scale this region to this target stay within the region. -/
structure TapTable.Suits (taps : TapTable) (r : Region) (target : Extent) : Prop where
  column : ∀ x, x < target.width → (taps r.width target.width x).Within r.width
  row : ∀ y, y < target.height → (taps r.height target.height y).Within r.height

/-- Taps that scale `n` samples of an axis to `m` name samples of the axis. -/
def TapTable.Inside (taps : TapTable) (n m : Nat) : Prop :=
  ∀ i, i < m → (taps n m i).lower < n ∧ (taps n m i).upper < n

/-- To scale one size to another no sample beyond the first is read: equal sizes are copied, and the
taps of other sizes stay inside along both axes. -/
def TapTable.Spans (taps : TapTable) (size target : Size) : Prop :=
  size = target ∨ taps.Inside size.width target.width ∧ taps.Inside size.height target.height

theorem TapTable.Spans.inside {taps : TapTable} {r : Region} {target : Extent}
    (spans : taps.Spans r.size target.size)
    (resized : ¬(r.width = target.width ∧ r.height = target.height)) :
    taps.Inside r.width target.width ∧ taps.Inside r.height target.height :=
  spans.resolve_left fun same => resized (Size.mk.inj same)

theorem TapTable.Suits.spans {taps : TapTable} {r : Region} {target : Extent}
    (suits : taps.Suits r target) : taps.Spans r.size target.size :=
  .inr ⟨fun x hx => ⟨(suits.column x hx).lower_lt, (suits.column x hx).upper_lt⟩,
    fun y hy => ⟨(suits.row y hy).lower_lt, (suits.row y hy).upper_lt⟩⟩

/-! ## Kernels on grids that agree -/

namespace Samples

theorem nearestIndex_lt {n m i : Nat} (hn : 0 < n) : nearestIndex n m i < n := by
  have last : nearestIndex n m i ≤ n - 1 := Nat.min_le_right _ _
  omega

namespace Agree

variable {a b : Samples} {target : Extent}

/-- A grid picked at places inside of the source depends on what lies there only. -/
theorem pull (h : a.Agree b) {place : (x y : Nat) → Nat × Nat}
    (inside : ∀ x y, x < target.width → y < target.height →
      (place x y).1 < a.width ∧ (place x y).2 < a.height) :
    (a.pull target place).Agree (b.pull target place) where
  extent := rfl
  value x y c hx hy _ := h.opaqueValue c (inside x y hx hy).1 (inside x y hx hy).2

theorem part (h : a.Agree b) {x0 y0 : Nat} (right : x0 + target.width ≤ a.width)
    (bottom : y0 + target.height ≤ a.height) : (a.part x0 y0 target).Agree (b.part x0 y0 target) := by
  refine h.pull fun x y hx hy => ?_
  constructor <;> dsimp only <;> omega

theorem copy (h : a.Agree b) (size : a.size = target.size) :
    (a.part 0 0 target).Agree (b.part 0 0 target) := by
  obtain ⟨width, height⟩ := Size.mk.inj size
  exact h.part (by omega) (by omega)

end Agree

/-! ## Kernels on grids that agree on a region -/

/-- Scaling reads samples of the region only. -/
theorem nearest_holds {region : Region} {e : Extent} (within : region.Within e) (target : Extent)
    (x y : Nat) : region.Holds (region.x + nearestIndex region.width target.width x)
      (region.y + nearestIndex region.height target.height y) :=
  Region.holds_add (nearestIndex_lt within.width_pos) (nearestIndex_lt within.height_pos)

/-- A scaled value comes from its own channel, and from samples of the region. -/
theorem scaled_value_congr {a b : Samples} {taps : TapTable} {r : Region} {target : Extent}
    {x y c : Nat} (spans : taps.Spans r.size target.size) (hx : x < target.width)
    (hy : y < target.height)
    (channels : a.channels = b.channels)
    (same : c < a.channels → ∀ x y, r.Holds x y → a.value x y c = b.value x y c) :
    (a.scaled taps r target).value x y c = (b.scaled taps r target).value x y c := by
  unfold scaled
  split
  · next size =>
    show a.opaqueValue (r.x + x) (r.y + y) c = b.opaqueValue (r.x + x) (r.y + y) c
    unfold opaqueValue
    rw [← channels]
    split
    · next hc => exact same hc _ _ (Region.holds_add (by omega) (by omega))
    · rfl
  · next resized =>
    obtain ⟨columns, rows⟩ := spans.inside resized
    obtain ⟨left, right⟩ := columns x hx
    obtain ⟨top, bottom⟩ := rows y hy
    simp only [interpolate]
    rw [← channels]
    split
    · next hc =>
      have tapped {dx dy : Nat} (hdx : dx < r.width) (hdy : dy < r.height) :
          a.value (r.x + dx) (r.y + dy) c = b.value (r.x + dx) (r.y + dy) c :=
        same hc _ _ (Region.holds_add hdx hdy)
      rw [tapped left top, tapped right top, tapped left bottom, tapped right bottom]
    · rfl

/-- Equal extents, and equal values at all samples of a region. -/
structure AgreeOn (r : Region) (a b : Samples) : Prop where
  extent : a.toExtent = b.toExtent
  value : ∀ x y c, r.Holds x y → x < a.width → y < a.height → c < a.channels →
    a.value x y c = b.value x y c

theorem Agree.on {a b : Samples} (h : a.Agree b) (r : Region) : a.AgreeOn r b where
  extent := h.extent
  value x y c _ := h.value x y c

namespace AgreeOn

variable {a b : Samples} {r r' : Region} {target : Extent}

theorem mono (h : a.AgreeOn r b) (inside : ∀ x y, r'.Holds x y → r.Holds x y) : a.AgreeOn r' b where
  extent := h.extent
  value x y c held := h.value x y c (inside x y held)

theorem take (h : a.AgreeOn r b) {n : Nat} (hn : n ≤ a.channels) :
    (a.take n).AgreeOn r (b.take n) where
  extent := by simp only [Samples.take, h.extent]
  value x y c held hx hy hc := h.value x y c held hx hy (Nat.lt_of_lt_of_le hc hn)

theorem scaled (h : a.AgreeOn r b) {taps : TapTable} (spans : taps.Spans r.size target.size)
    (within : r.Within a.toExtent) : (a.scaled taps r target).Agree (b.scaled taps r target) where
  extent := by rw [scaled_extent, scaled_extent]
  value x y c hx hy _ := by
    rw [scaled_extent] at hx hy
    refine scaled_value_congr spans hx hy ?_ fun hc x y held => ?_
    · rw [h.extent]
    · obtain ⟨hx, hy⟩ := held.inside within
      exact h.value x y c held hx hy hc

theorem nearest (h : a.AgreeOn r b) (within : r.Within a.toExtent) :
    (a.nearest r target).Agree (b.nearest r target) where
  extent := rfl
  value x y c _ _ _ := by
    have held := nearest_holds within target x y
    obtain ⟨hx, hy⟩ := held.inside within
    simp only [Samples.nearest, pull, opaqueValue, ← h.extent]
    split
    · next hc => exact h.value _ _ c held hx hy hc
    · rfl

end AgreeOn

theorem Agree.nearest {a b : Samples} (h : a.Agree b) {region : Region}
    (within : region.Within a.toExtent) {target : Extent} :
    (a.nearest region target).Agree (b.nearest region target) :=
  (h.on region).nearest within

theorem Agree.scaled {a b : Samples} (h : a.Agree b) {taps : TapTable} {region : Region}
    {target : Extent} (spans : taps.Spans region.size target.size)
    (within : region.Within a.toExtent) :
    (a.scaled taps region target).Agree (b.scaled taps region target) :=
  (h.on region).scaled spans within

end Samples

end Raster
