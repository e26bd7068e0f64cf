import Raster.Proofs.Samples.Motion

/-!
# Boxes under motions

A rotation or a mirror image takes each box of a grid to a box, and moves the pixels inside as
it moves a grid of the size of the box. So a part cut out of a grid is carried to the part that
the box is taken to. On even sides the same holds of the halved grid and of halved boxes.

* `Motion.TakesBox` — a motion takes a box of a grid to another one.
* `Samples.cut`, `Picture.cut` — the part of a grid or a picture in a box.

Results: `Motion.takesBox_ofChange` (the formulas for boxes fit those for pixels),
`Motion.TakesBox.halved` (and they do on chroma grids) and `Picture.Carried.cut` (parts of
pictures that are carried).
-/

namespace Raster

/-! ## Boxes -/

namespace Box

/-- The box of the samples of a halved grid from that of its corner on. -/
def halved (b : Box) : Box := ⟨b.x / 2, b.y / 2, (b.width + 1) / 2, (b.height + 1) / 2⟩

/-- Even sides, and a corner between blocks of two by two pixels. -/
def IsEven (b : Box) : Prop := (b.x % 2 = 0 ∧ b.y % 2 = 0) ∧ b.size.IsEven

instance (b : Box) : Decidable b.IsEven := inferInstanceAs (Decidable (_ ∧ _))

end Box

theorem Size.containsBox_halved {s : Size} {b : Box} (inside : s.containsBox b = true) :
    s.halved.containsBox b.halved = true := by
  simp only [Size.containsBox_iff, Box.right, Box.bottom, Size.halved, Box.halved] at inside ⊢
  omega

variable {s : Size} {b b' b'' : Box}

theorem Rotation.isEven_box (r : Rotation) (even : s.IsEven) (hb : b.IsEven)
    (inside : s.containsBox b = true) : (r.box s b).IsEven := by
  simp only [Size.IsEven, Box.IsEven, Size.containsBox_iff, Box.right, Box.bottom, Box.size] at *
  cases r <;> simp only [box] <;> omega

theorem FlipAxis.isEven_box (axis : FlipAxis) (even : s.IsEven) (hb : b.IsEven)
    (inside : s.containsBox b = true) : (axis.box s b).IsEven := by
  simp only [Size.IsEven, Box.IsEven, Size.containsBox_iff, Box.right, Box.bottom, Box.size] at *
  cases axis <;> simp only [box] <;> omega

namespace Motion

variable {f g : Motion}

/-- A box of a grid is taken to another one, and the pixels inside as those of a grid of its
size. -/
structure TakesBox (f : Motion) (s : Size) (b b' : Box) : Prop where
  inside : s.containsBox b = true
  lands : (f.size s).containsBox b' = true
  size : b'.size = f.size b.size
  point : ∀ x y, x < b.width → y < b.height → f.point s (b.x + x) (b.y + y) =
    (b'.x + (f.point b.size x y).1, b'.y + (f.point b.size x y).2)

theorem takesBox_turn (r : Rotation) (inside : s.containsBox b = true) :
    (turn r).TakesBox s b (r.box s b) := by
  have edges := Size.containsBox_iff.1 inside
  unfold Box.right Box.bottom at edges
  refine ⟨inside, ?_, by cases r <;> rfl, fun x y hx hy => ?_⟩
  · show (r.size s).containsBox (r.box s b) = true
    rw [Size.containsBox_iff]
    cases r <;> simp only [Rotation.size, Rotation.swapsSides, Rotation.box, Box.right, Box.bottom,
      Size.swapped, if_true, Bool.false_eq_true, if_false] <;> omega
  · show r.point s _ _ = (_ + (r.point b.size x y).1, _ + (r.point b.size x y).2)
    cases r <;> simp only [Rotation.point, Rotation.box, Box.size, Prod.mk.injEq, true_and,
      and_true] <;> omega

theorem takesBox_mirror (axis : FlipAxis) (inside : s.containsBox b = true) :
    (mirror axis).TakesBox s b (axis.box s b) := by
  have edges := Size.containsBox_iff.1 inside
  unfold Box.right Box.bottom at edges
  refine ⟨inside, ?_, by cases axis <;> rfl, fun x y hx hy => ?_⟩
  · show s.containsBox (axis.box s b) = true
    rw [Size.containsBox_iff]
    cases axis <;> simp only [FlipAxis.box, Box.right, Box.bottom] <;> omega
  · show axis.point s _ = (_ + (axis.point b.size (x, y)).1, _ + (axis.point b.size (x, y)).2)
    cases axis <;> simp only [FlipAxis.point, FlipAxis.box, Box.size, Prod.mk.injEq, true_and,
      and_true] <;> omega

namespace TakesBox

/-- One motion after the other. -/
theorem andThen (h : f.TakesBox s b b') (h' : g.TakesBox (f.size s) b' b'') :
    (f.andThen g).TakesBox s b b'' where
  inside := h.inside
  lands := h'.lands
  size := h'.size.trans (congrArg g.size h.size)
  point := by
    intro x y hx hy
    obtain ⟨hx', hy'⟩ := f.inside (s := b.size) hx hy
    rw [← h.size] at hx' hy'
    show g.point (f.size s) (f.point s _ _).1 (f.point s _ _).2 = _
    rw [h.point x y hx hy, h'.point _ _ hx' hy', h.size]
    rfl

theorem isEmpty (h : f.TakesBox s b b') (nonempty : b.isEmpty = false) : b'.isEmpty = false := by
  show b'.size.isEmpty = false
  rw [h.size]
  exact f.isEmpty_size nonempty

/-- Even boxes of a grid of even sides are boxes of its halved grid too. -/
theorem halved (h : f.TakesBox s b b') (even : s.IsEven) (hb : b.IsEven) (hb' : b'.IsEven) :
    f.TakesBox s.halved b.halved b'.halved where
  inside := Size.containsBox_halved h.inside
  lands := by
    rw [f.size_halved]
    exact Size.containsBox_halved h.lands
  size := by
    show b'.size.halved = f.size b.size.halved
    rw [h.size, f.size_halved]
  point := by
    intro x y hx hy
    obtain ⟨⟨left, top⟩, sides⟩ := hb
    obtain ⟨⟨left', top'⟩, -⟩ := hb'
    have ⟨width, height⟩ : b.width % 2 = 0 ∧ b.height % 2 = 0 := sides
    have edges := Size.containsBox_iff.1 h.inside
    unfold Box.right Box.bottom at edges
    have hx : x < (b.width + 1) / 2 := hx
    have hy : y < (b.height + 1) / 2 := hy
    -- the first pixel of the block of a sample shows where the sample is taken to
    have moved := f.point_halved even (x := b.x + 2 * x) (y := b.y + 2 * y) (by omega) (by omega)
    have within := f.point_halved (s := b.size) sides (x := 2 * x) (y := 2 * y)
      (show 2 * x < b.width by omega) (show 2 * y < b.height by omega)
    rw [h.point _ _ (by omega) (by omega)] at moved
    rw [show (b.x + 2 * x) / 2 = b.x / 2 + x by omega,
      show (b.y + 2 * y) / 2 = b.y / 2 + y by omega] at moved
    rw [Nat.mul_div_cancel_left x Nat.two_pos, Nat.mul_div_cancel_left y Nat.two_pos] at within
    show f.point s.halved (b.x / 2 + x) (b.y / 2 + y) =
      (b'.x / 2 + (f.point b.size.halved x y).1, b'.y / 2 + (f.point b.size.halved x y).2)
    rw [moved, within]
    congr 1 <;> dsimp only <;> omega

end TakesBox

/-- The formulas for boxes fit those for pixels. -/
theorem takesBox_ofChange (change : Reorientation) (inside : s.containsBox b = true) :
    (ofChange change).TakesBox s b (change.box s b) := by
  obtain ⟨rotation, flip⟩ := change
  have turned := takesBox_turn rotation inside
  cases flip with
  | none => exact turned
  | some axis => exact turned.andThen (takesBox_mirror axis turned.lands)

end Motion

theorem Reorientation.isEven_box (change : Reorientation) (even : s.IsEven) (hb : b.IsEven)
    (inside : s.containsBox b = true) : (change.box s b).IsEven := by
  obtain ⟨rotation, flip⟩ := change
  have turned := rotation.isEven_box even hb inside
  cases flip with
  | none => exact turned
  | some axis =>
    exact axis.isEven_box ((Motion.turn rotation).isEven_size even) turned
      (Motion.takesBox_turn rotation inside).lands

/-! ## Parts -/

/-- The samples in a box. -/
def Samples.cut (s : Samples) (b : Box) : Samples where
  width := b.width
  height := b.height
  channels := s.channels
  value x y c := s.value (b.x + x) (b.y + y) c

/-- The samples in a box of pixels, chroma in the halved box. -/
def Picture.cut (b : Box) : Picture → Picture
  | .packed s => .packed (s.cut b)
  | .yuv y u v => .yuv (y.cut b) (u.cut b.halved) (v.cut b.halved)

theorem Picture.grids_cut {p : Picture} {format : Format} (b : Box)
    (hp : p.grids = format.grids s) : (p.cut b).grids = format.grids b.size := by
  cases p with
  | packed t =>
    obtain ⟨n, hn, ht⟩ := extent_of_packed hp
    rw [Format.grids_packed hn]
    have channels : t.channels = n := by rw [ht]
    exact congrArg Grids.packed (congrArg (Extent.mk b.width b.height) channels)
  | yuv y u v =>
    obtain ⟨hn, hy, hu, hv⟩ := extents_of_yuv hp
    rw [Format.grids_yuv hn]
    have luma : y.channels = 1 := by rw [hy]
    have blue : u.channels = 1 := by rw [hu]
    have red : v.channels = 1 := by rw [hv]
    show Grids.yuv ⟨_, _, y.channels⟩ ⟨_, _, u.channels⟩ ⟨_, _, v.channels⟩ = _
    rw [luma, blue, red]
    rfl

theorem Samples.Carried.cut {f : Motion} {p q : Samples} (h : p.Carried f s q)
    (takes : f.TakesBox s b b') : (p.cut b).Carried f b.size (q.cut b') := by
  intro x y c hx hy hc
  have edges := Size.containsBox_iff.1 takes.inside
  unfold Box.right Box.bottom at edges
  have hx : x < b.width := hx
  have hy : y < b.height := hy
  have moved := h (b.x + x) (b.y + y) c (by omega) (by omega) hc
  rw [takes.point x y hx hy] at moved
  exact moved

/-- Parts of pictures that are carried. -/
theorem Picture.Carried.cut {f : Motion} {p q : Picture} {format : Format} (h : Carried f s p q)
    (takes : f.TakesBox s b b') (hp : p.grids = format.grids s)
    (even : format.channels = none → s.IsEven ∧ b.IsEven ∧ b'.IsEven) :
    Carried f b.size (p.cut b) (q.cut b') := by
  cases h with
  | packed pixels => exact .packed (pixels.cut takes)
  | yuv luma blue red =>
    obtain ⟨hn, -⟩ := extents_of_yuv hp
    obtain ⟨sides, hb, hb'⟩ := even hn
    have halves := takes.halved sides hb hb'
    exact .yuv (luma.cut takes) (blue.cut halves) (red.cut halves)

end Raster
