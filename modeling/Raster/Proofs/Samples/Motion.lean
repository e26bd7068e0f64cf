import Mathlib.Data.Set.Function
import Raster.Orientation.Transport
import Raster.Proofs.Samples.Kernel

/-!
# Motions

A motion takes the pixels of a grid to those of another grid, one for one. Turning, mirroring
and one after the other are motions, and each of them treats a halved grid as it treats the
whole: the blocks of two by two pixels of a grid of even sides are taken to blocks.

* `Motion` — the new size, and where each pixel goes.
* `Motion.Agree` — motions that take every pixel to the same place.
* `Samples.Carried` — a grid shows the samples of another where a motion takes them.
* `Picture.Carried` — all grids of a picture do, chroma on the halved size.

Results: `Samples.carried_pull` (picking samples backwards carries them forwards),
`Picture.Carried.andThen` (motions compose) and `Picture.Carried.unique` (a motion of a picture
decides every sample of the result).
-/

namespace Raster

/-! ## Pixels -/

/-- The pixels of a grid. -/
def Size.pixels (s : Size) : Set (Nat × Nat) := { p | p.1 < s.width ∧ p.2 < s.height }

/-- Both sides are even. -/
def Size.IsEven (s : Size) : Prop := s.width % 2 = 0 ∧ s.height % 2 = 0

instance (s : Size) : Decidable s.IsEven := inferInstanceAs (Decidable (_ ∧ _))

/-- Both sides are numbers of 32 bits. -/
def Size.InRange (s : Size) : Prop := s.width < UInt32.size ∧ s.height < UInt32.size

namespace Rotation

/-- The rotation back. -/
def inverse : Rotation → Rotation
  | deg0 => deg0
  | deg90 => deg270
  | deg180 => deg180
  | deg270 => deg90

@[simp] theorem inverse_inverse (r : Rotation) : r.inverse.inverse = r := by
  cases r <;> rfl

@[simp] theorem size_inverse (r : Rotation) (s : Size) : r.inverse.size (r.size s) = s := by
  cases r <;> rfl

variable {r : Rotation} {s : Size} {x y : Nat}

theorem point_mem (hx : x < s.width) (hy : y < s.height) : r.point s x y ∈ (r.size s).pixels := by
  cases r with
  | deg0 => exact ⟨hx, hy⟩
  | deg90 =>
    show y < s.height ∧ s.width - x - 1 < s.width
    omega
  | deg180 =>
    show s.width - x - 1 < s.width ∧ s.height - y - 1 < s.height
    omega
  | deg270 =>
    show s.height - y - 1 < s.height ∧ x < s.width
    omega

/-- A rotation and the rotation back leave every pixel in its place. -/
theorem point_inverse (hx : x < s.width) (hy : y < s.height) :
    r.inverse.point (r.size s) (r.point s x y).1 (r.point s x y).2 = (x, y) := by
  cases r with
  | deg0 => rfl
  | deg90 =>
    show (s.width - (s.width - x - 1) - 1, y) = (x, y)
    congr 1
    omega
  | deg180 =>
    show (s.width - (s.width - x - 1) - 1, s.height - (s.height - y - 1) - 1) = (x, y)
    congr 1 <;> omega
  | deg270 =>
    show (x, s.height - (s.height - y - 1) - 1) = (x, y)
    congr 1
    omega

/-- A rotation takes its samples from where the rotation back puts them. -/
theorem rotationSource_eq (turns : Nat) (s : Size) (x y : Nat) :
    let r := ofQuarterTurns turns
    Samples.rotationSource turns s x y = r.inverse.point (r.size s) x y := by
  have four : turns % 4 = 0 ∨ turns % 4 = 1 ∨ turns % 4 = 2 ∨ turns % 4 = 3 := by omega
  unfold ofQuarterTurns Samples.rotationSource
  rcases four with h | h | h | h
  · simp only [h]
    rfl
  · simp only [h]
    exact congrArg (·, x) (Nat.sub_right_comm ..)
  · simp only [h]
    exact Prod.ext (Nat.sub_right_comm ..) (Nat.sub_right_comm ..)
  · simp only [h]
    exact congrArg (y, ·) (Nat.sub_right_comm ..)

theorem size_ofQuarterTurns (turns : Nat) (s : Size) :
    (ofQuarterTurns turns).size s = if turns % 2 = 1 then s.swapped else s := by
  have four : turns % 4 = 0 ∨ turns % 4 = 1 ∨ turns % 4 = 2 ∨ turns % 4 = 3 := by omega
  unfold ofQuarterTurns
  rcases four with h | h | h | h
  · rw [h, if_neg (by omega)]
    rfl
  · rw [h, if_pos (by omega)]
    rfl
  · rw [h, if_neg (by omega)]
    rfl
  · rw [h, if_pos (by omega)]
    rfl

theorem rotationSource_lt {turns : Nat} (hx : x < (if turns % 2 = 1 then s.swapped else s).width)
    (hy : y < (if turns % 2 = 1 then s.swapped else s).height) :
    (Samples.rotationSource turns s x y).1 < s.width ∧
      (Samples.rotationSource turns s x y).2 < s.height := by
  rw [← size_ofQuarterTurns] at hx hy
  have inside := point_mem (r := (ofQuarterTurns turns).inverse) hx hy
  rwa [size_inverse, ← rotationSource_eq] at inside

end Rotation

namespace FlipAxis

variable {axis : FlipAxis} {s : Size} {p : Nat × Nat}

theorem point_mem (h : p ∈ s.pixels) : axis.point s p ∈ s.pixels := by
  obtain ⟨hx, hy⟩ := h
  cases axis with
  | horizontal =>
    show s.width - p.1 - 1 < s.width ∧ p.2 < s.height
    omega
  | vertical =>
    show p.1 < s.width ∧ s.height - p.2 - 1 < s.height
    omega

/-- A flip takes itself back. -/
theorem point_point (h : p ∈ s.pixels) : axis.point s (axis.point s p) = p := by
  obtain ⟨hx, hy⟩ := h
  obtain ⟨x, y⟩ := p
  cases axis with
  | horizontal =>
    show (s.width - (s.width - x - 1) - 1, y) = (x, y)
    congr 1
    omega
  | vertical =>
    show (x, s.height - (s.height - y - 1) - 1) = (x, y)
    congr 1
    omega

end FlipAxis

/-! ## Motions of pixels -/

/-- A map of the pixels of every grid onto those of a grid of the new size, one for one. -/
structure Motion where
  size : Size → Size
  point : (s : Size) → (x y : Nat) → Nat × Nat
  bijOn : ∀ s, Set.BijOn (fun p => point s p.1 p.2) s.pixels (size s).pixels
  size_halved : ∀ s, size s.halved = (size s).halved
  isEven_size : ∀ {s}, s.IsEven → (size s).IsEven
  /-- The pixels of a block are taken to those of a block. -/
  point_halved : ∀ {s x y}, s.IsEven → x < s.width → y < s.height →
    point s.halved (x / 2) (y / 2) = ((point s x y).1 / 2, (point s x y).2 / 2)

namespace Motion

theorem inside (f : Motion) {s : Size} {x y : Nat} (hx : x < s.width) (hy : y < s.height) :
    (f.point s x y).1 < (f.size s).width ∧ (f.point s x y).2 < (f.size s).height :=
  (f.bijOn s).mapsTo (⟨hx, hy⟩ : (x, y) ∈ s.pixels)

/-- Every pixel of the new grid is the place of a pixel of the old one. -/
theorem exists_point (f : Motion) {s : Size} {u v : Nat} (hu : u < (f.size s).width)
    (hv : v < (f.size s).height) :
    ∃ x y, x < s.width ∧ y < s.height ∧ f.point s x y = (u, v) := by
  obtain ⟨⟨x, y⟩, ⟨hx, hy⟩, same⟩ := (f.bijOn s).surjOn (⟨hu, hv⟩ : (u, v) ∈ (f.size s).pixels)
  exact ⟨x, y, hx, hy, same⟩

/-- A counter-clockwise rotation. -/
def turn (r : Rotation) : Motion where
  size := r.size
  point := r.point
  bijOn s := by
    have back : Set.InvOn (fun p => r.inverse.point (r.size s) p.1 p.2) (fun p => r.point s p.1 p.2)
        s.pixels (r.size s).pixels := by
      refine ⟨?_, ?_⟩
      · rintro ⟨x, y⟩ ⟨hx, hy⟩
        exact Rotation.point_inverse hx hy
      · rintro ⟨x, y⟩ ⟨hx, hy⟩
        have there := Rotation.point_inverse (r := r.inverse) hx hy
        rwa [Rotation.inverse_inverse, Rotation.size_inverse] at there
    refine back.bijOn ?_ ?_
    · rintro ⟨x, y⟩ ⟨hx, hy⟩
      exact Rotation.point_mem hx hy
    · rintro ⟨x, y⟩ ⟨hx, hy⟩
      have there := Rotation.point_mem (r := r.inverse) hx hy
      rwa [Rotation.size_inverse] at there
  size_halved s := by
    cases r <;> rfl
  isEven_size h := by
    cases r with
    | deg0 | deg180 => exact h
    | deg90 | deg270 => exact ⟨h.2, h.1⟩
  point_halved := by
    rintro s x y ⟨width, height⟩ hx hy
    cases r <;> simp only [Rotation.point, Size.halved, Prod.mk.injEq, true_and, and_true] <;> omega

/-- A mirror image. -/
def mirror (axis : FlipAxis) : Motion where
  size s := s
  point s x y := axis.point s (x, y)
  bijOn s := Set.InvOn.bijOn ⟨fun _ => FlipAxis.point_point, fun _ => FlipAxis.point_point⟩
    (fun _ => FlipAxis.point_mem) fun _ => FlipAxis.point_mem
  size_halved _ := rfl
  isEven_size h := h
  point_halved := by
    rintro s x y ⟨width, height⟩ hx hy
    cases axis <;> simp only [FlipAxis.point, Size.halved, Prod.mk.injEq, true_and, and_true] <;>
      omega

/-- One motion after the other. -/
def andThen (f g : Motion) : Motion where
  size s := g.size (f.size s)
  point s x y := g.point (f.size s) (f.point s x y).1 (f.point s x y).2
  bijOn s := (g.bijOn (f.size s)).comp (f.bijOn s)
  size_halved s := by
    rw [f.size_halved, g.size_halved]
  isEven_size h := g.isEven_size (f.isEven_size h)
  point_halved := by
    intro s x y even hx hy
    obtain ⟨hx', hy'⟩ := f.inside hx hy
    rw [f.point_halved even hx hy, f.size_halved, g.point_halved (f.isEven_size even) hx' hy']

@[simp] theorem size_andThen (f g : Motion) (s : Size) : (f.andThen g).size s = g.size (f.size s) :=
  rfl

@[simp] theorem point_andThen (f g : Motion) (s : Size) (x y : Nat) : (f.andThen g).point s x y =
    g.point (f.size s) (f.point s x y).1 (f.point s x y).2 := rfl

/-- The motion of a change of orientation. -/
def ofChange (change : Reorientation) : Motion :=
  match change.flip with
  | none => turn change.rotation
  | some axis => (turn change.rotation).andThen (mirror axis)

theorem point_ofChange (change : Reorientation) (s : Size) (x y : Nat) :
    (ofChange change).point s x y = change.point s x y := by
  obtain ⟨rotation, flip⟩ := change
  cases flip <;> rfl

theorem size_ofChange (change : Reorientation) (s : Size) :
    (ofChange change).size s = change.size s := by
  obtain ⟨rotation, flip⟩ := change
  cases flip <;> rfl

theorem isEmpty_size (f : Motion) {s : Size} (h : s.isEmpty = false) :
    (f.size s).isEmpty = false := by
  obtain ⟨width, height⟩ := Size.isEmpty_eq_false.1 h
  obtain ⟨hx, hy⟩ := f.inside width height
  exact Size.isEmpty_eq_false.2 ⟨by omega, by omega⟩

/-! ## Motions that agree -/

/-- Equal sizes, and the same place for every pixel. -/
structure Agree (f g : Motion) : Prop where
  size : ∀ s, f.size s = g.size s
  point : ∀ {s x y}, x < s.width → y < s.height → f.point s x y = g.point s x y

namespace Agree

variable {f g f' g' h : Motion}

theorem refl (f : Motion) : f.Agree f := ⟨fun _ => rfl, fun _ _ => rfl⟩

theorem symm (a : f.Agree g) : g.Agree f :=
  ⟨fun s => (a.size s).symm, fun hx hy => (a.point hx hy).symm⟩

theorem trans (a : f.Agree g) (b : g.Agree h) : f.Agree h :=
  ⟨fun s => (a.size s).trans (b.size s), fun hx hy => (a.point hx hy).trans (b.point hx hy)⟩

theorem andThen (a : f.Agree f') (b : g.Agree g') : (f.andThen g).Agree (f'.andThen g') where
  size s := by
    show g.size (f.size s) = g'.size (f'.size s)
    rw [a.size, b.size]
  point := by
    intro s x y hx hy
    obtain ⟨hx', hy'⟩ := f.inside hx hy
    show g.point (f.size s) _ _ = g'.point (f'.size s) _ _
    rw [b.point hx' hy', a.size, a.point hx hy]

end Agree

theorem deg0_andThen (f : Motion) : ((turn .deg0).andThen f).Agree f := .refl _

theorem andThen_deg0 (f : Motion) : (f.andThen (turn .deg0)).Agree f := .refl _

end Motion

/-! ## Samples that are carried -/

/-- A grid shows the samples of another of this size where a motion takes them. -/
def Samples.Carried (f : Motion) (size : Size) (source result : Samples) : Prop :=
  ∀ x y c, x < size.width → y < size.height → c < result.channels →
    result.value (f.point size x y).1 (f.point size x y).2 c = source.opaqueValue x y c

/-- The grids of a frame of this size are carried, chroma on the halved size. -/
inductive Picture.Carried (f : Motion) (size : Size) : Picture → Picture → Prop
  | packed {s t : Samples} (pixels : s.Carried f size t) : Carried f size (.packed s) (.packed t)
  | yuv {y u v y' u' v' : Samples} (luma : y.Carried f size y') (blue : u.Carried f size.halved u')
      (red : v.Carried f size.halved v') : Carried f size (.yuv y u v) (.yuv y' u' v')

namespace Samples

variable {f g : Motion} {size : Size} {s s' t t' u : Samples}

/-- A grid picked at the places where the samples come from. -/
theorem carried_pull {target : Extent} {place : (x y : Nat) → Nat × Nat}
    (back : ∀ x y, x < size.width → y < size.height →
      place (f.point size x y).1 (f.point size x y).2 = (x, y)) :
    s.Carried f size (s.pull target place) := by
  intro x y c hx hy _
  show s.opaqueValue _ _ c = _
  rw [back x y hx hy]

/-- A grid at rest. -/
theorem carried_refl (s : Samples) (size : Size) : s.Carried (.turn .deg0) size s :=
  fun _ _ _ _ _ hc => (if_pos hc).symm

theorem Carried.andThen (h : s.Carried f size t) (h' : t.Carried g (f.size size) u)
    (channels : t.channels = s.channels) : s.Carried (f.andThen g) size u := by
  intro x y c hx hy hc
  obtain ⟨hx', hy'⟩ := f.inside hx hy
  show u.value (g.point (f.size size) _ _).1 (g.point (f.size size) _ _).2 c = _
  rw [h' _ _ c hx' hy' hc]
  unfold opaqueValue
  rw [channels]
  split
  · next kept =>
    rw [h x y c hx hy (by omega)]
    exact if_pos kept
  · rfl

/-- The motion lands inside of the result, where grids that agree are equal. -/
theorem Carried.congr (h : s.Carried f size t) (agree : t.Agree t') (ht : t.size = f.size size) :
    s.Carried f size t' := by
  intro x y c hx hy hc
  obtain ⟨hx', hy'⟩ := f.inside hx hy
  rw [← ht] at hx' hy'
  have hc' : c < t.channels := by rwa [agree.extent]
  rw [← agree.value _ _ c hx' hy' hc']
  exact h x y c hx hy hc'

/-- Channels that the target has no use for may be missing. -/
theorem Carried.of_take {n : Nat} (h : (s.take n).Carried f size t)
    (enough : ∀ c, c < t.channels → (c < n ↔ c < s.channels)) : s.Carried f size t := by
  intro x y c hx hy hc
  rw [h x y c hx hy hc]
  unfold opaqueValue take
  dsimp only
  by_cases kept : c < n
  · rw [if_pos kept, if_pos ((enough c hc).1 kept)]
  · rw [if_neg kept, if_neg fun h => kept ((enough c hc).2 h)]

/-- Motions that agree carry alike. -/
theorem Carried.of_agree (h : s.Carried f size t) (agree : f.Agree g) : s.Carried g size t := by
  intro x y c hx hy hc
  rw [← agree.point hx hy]
  exact h x y c hx hy hc

/-- Sources that agree are carried alike. -/
theorem Carried.of_source (h : s.Carried f size t) (agree : s.Agree s') (hs : s.size = size) :
    s'.Carried f size t := by
  subst hs
  intro x y c hx hy hc
  rw [h x y c hx hy hc]
  exact agree.opaqueValue c hx hy

/-- Nothing else is left of the result. -/
theorem Carried.unique (h : s.Carried f size t) (h' : s.Carried f size t')
    (ht : t.size = f.size size) (extent : t.toExtent = t'.toExtent) : t.Agree t' := by
  refine ⟨extent, fun u v c hu hv hc => ?_⟩
  obtain ⟨width, height⟩ := Size.mk.inj ht
  obtain ⟨x, y, hx, hy, same⟩ := f.exists_point (width ▸ hu) (height ▸ hv)
  have value := h x y c hx hy hc
  have value' := h' x y c hx hy (extent ▸ hc)
  rw [same] at value value'
  exact value.trans value'.symm

end Samples

namespace Picture.Carried

variable {f g : Motion} {size : Size} {format : Format} {p p' q q' r : Picture}

/-- A picture at rest. -/
theorem refl (p : Picture) (size : Size) : Carried (.turn .deg0) size p p := by
  cases p with
  | packed s => exact .packed (s.carried_refl size)
  | yuv y u v =>
    exact .yuv (y.carried_refl size) (u.carried_refl size.halved) (v.carried_refl size.halved)

theorem andThen (h : Carried f size p q) (h' : Carried g (f.size size) q r)
    (hp : p.grids = format.grids size) (hq : q.grids = format.grids (f.size size)) :
    Carried (f.andThen g) size p r := by
  cases h with
  | packed first =>
    cases h' with
    | packed second =>
      obtain ⟨n, channels, hs⟩ := extent_of_packed hp
      obtain ⟨n', channels', ht⟩ := extent_of_packed hq
      obtain rfl := Option.some.inj (channels.symm.trans channels')
      exact .packed (first.andThen second (by rw [hs, ht]))
  | yuv luma blue red =>
    cases h' with
    | yuv luma' blue' red' =>
      obtain ⟨-, hy, hu, hv⟩ := extents_of_yuv hp
      obtain ⟨-, hy', hu', hv'⟩ := extents_of_yuv hq
      rw [← f.size_halved] at blue' red'
      exact .yuv (luma.andThen luma' (by rw [hy, hy'])) (blue.andThen blue' (by rw [hu, hu']))
        (red.andThen red' (by rw [hv, hv']))

theorem congr (h : Carried f size p q) (agree : q.Agree q')
    (hq : q.grids = format.grids (f.size size)) : Carried f size p q' := by
  cases h with
  | packed pixels =>
    cases agree with
    | packed same =>
      obtain ⟨n, -, ht⟩ := extent_of_packed hq
      exact .packed (pixels.congr same (Extent.size_eq ht))
  | yuv luma blue red =>
    cases agree with
    | yuv same_luma same_blue same_red =>
      obtain ⟨-, hy, hu, hv⟩ := extents_of_yuv hq
      rw [← f.size_halved] at hu hv
      exact .yuv (luma.congr same_luma (Extent.size_eq hy))
        (blue.congr same_blue (Extent.size_eq hu)) (red.congr same_red (Extent.size_eq hv))

theorem of_agree (h : Carried f size p q) (agree : f.Agree g) : Carried g size p q := by
  cases h with
  | packed pixels => exact .packed (pixels.of_agree agree)
  | yuv luma blue red =>
    exact .yuv (luma.of_agree agree) (blue.of_agree agree) (red.of_agree agree)

theorem of_source (h : Carried f size p q) (agree : p.Agree p') (hp : p.grids = format.grids size) :
    Carried f size p' q := by
  cases h with
  | packed pixels =>
    cases agree with
    | packed same =>
      obtain ⟨n, -, hs⟩ := extent_of_packed hp
      exact .packed (pixels.of_source same (Extent.size_eq hs))
  | yuv luma blue red =>
    cases agree with
    | yuv same_luma same_blue same_red =>
      obtain ⟨-, hy, hu, hv⟩ := extents_of_yuv hp
      exact .yuv (luma.of_source same_luma (Extent.size_eq hy))
        (blue.of_source same_blue (Extent.size_eq hu)) (red.of_source same_red (Extent.size_eq hv))

/-- A motion of a picture decides every sample of the result. -/
theorem unique (h : Carried f size p q) (h' : Carried f size p q')
    (hq : q.grids = format.grids (f.size size)) (grids : q.grids = q'.grids) : q.Agree q' := by
  cases h with
  | packed pixels =>
    cases h' with
    | packed pixels' =>
      obtain ⟨n, -, ht⟩ := extent_of_packed hq
      exact .packed (pixels.unique pixels' (Extent.size_eq ht) (Grids.packed.inj grids))
  | yuv luma blue red =>
    cases h' with
    | yuv luma' blue' red' =>
      obtain ⟨-, hy, hu, hv⟩ := extents_of_yuv hq
      obtain ⟨ey, eu, ev⟩ := Grids.yuv.inj grids
      rw [← f.size_halved] at hu hv
      exact .yuv (luma.unique luma' (Extent.size_eq hy) ey)
        (blue.unique blue' (Extent.size_eq hu) eu) (red.unique red' (Extent.size_eq hv) ev)

end Picture.Carried

end Raster
