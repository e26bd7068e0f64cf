import Raster.Proofs.Samples.Motion

/-!
# Samples that are moved

Copying, mirroring and rotating take every sample of the target from one place of the source. A copy
leaves out what lies beside its window. A mirror image and a rotation have a place for every sample,
each once.

* `Transfer` — the kernels of this kind.
* `Transfer.place` — where a sample comes from.
* `Transfer.Fits` — the targets that a kernel can fill.

Results: `Transfer.draw_eq_ok_iff` (when there is a grid, and which), `Transfer.place_inside` and
`Transfer.bijOn_place` (the places).
-/

namespace Raster

/-- A kernel that takes each sample from one place: a copy from `(x0, y0)` on, a mirror image, or a
counter-clockwise rotation by quarter turns. -/
inductive Transfer where
  | copy (x0 y0 : Nat)
  | mirror (axis : FlipAxis)
  | rotate (turns : Nat)
  deriving DecidableEq

namespace Transfer

/-- The grid that the kernel draws. -/
def draw (t : Transfer) (source : Samples) (target : Extent) : Except Error Samples :=
  match t with
  | copy x0 y0 => source.copyRegion x0 y0 target
  | mirror .horizontal => source.mirrorHorizontal target
  | mirror .vertical => source.mirrorVertical target
  | rotate turns => source.rotateCcw turns target

/-- Where the sample at `(x, y)` of the target comes from. -/
def place (t : Transfer) (source target : Size) (x y : Nat) : Nat × Nat :=
  match t with
  | copy x0 y0 => (x0 + x, y0 + y)
  | mirror .horizontal => (target.width - 1 - x, y)
  | mirror .vertical => (x, target.height - 1 - y)
  | rotate turns => Samples.rotationSource turns source x y

/-- The window of a copy lies in the source, a mirror image has the size of the source, and a rotation
the size of the source turned. -/
def Fits (t : Transfer) (source target : Size) : Prop :=
  match t with
  | copy x0 y0 => x0 + target.width ≤ source.width ∧ y0 + target.height ≤ source.height
  | mirror _ => source = target
  | rotate turns => target = if turns % 2 = 1 then source.swapped else source

/-- The window of a copy ends at words. No sum is made for a mirror image or a rotation. -/
def InWords (t : Transfer) (target : Size) : Prop :=
  match t with
  | copy x0 y0 => Region.InWords ⟨x0, y0, target.width, target.height⟩
  | mirror _ | rotate _ => True

/-- The kernel leaves no sample of the source out. -/
def Whole : Transfer → Prop
  | copy _ _ => False
  | mirror _ | rotate _ => True

variable {t : Transfer}

/-! ## Grids -/

/-- A kernel draws a grid where the channels and the sizes suit, and takes each sample of it from its
place. -/
theorem draw_eq_ok_iff {source result : Samples} {target : Extent} :
    t.draw source target = .ok result ↔
      source.Feeds target ∧ t.Fits source.size target.size ∧
        source.pull target (t.place source.size target.size) = result := by
  cases t with
  | copy x0 y0 => exact Samples.channels_pull_eq_ok
  | mirror axis =>
    cases axis with
    | horizontal => exact Samples.sameSize_pull_eq_ok
    | vertical => exact Samples.sameSize_pull_eq_ok
  | rotate turns => exact Samples.channels_pull_eq_ok

/-! ## Places -/

/-- A mirror image and a rotation take each sample of the source once. -/
theorem bijOn_place {source target : Size} (whole : t.Whole) (fits : t.Fits source target) :
    Set.BijOn (fun p => t.place source target p.1 p.2) target.pixels source.pixels := by
  cases t with
  | copy x0 y0 => cases whole
  | mirror axis =>
    obtain rfl : source = target := fits
    refine ((Motion.mirror axis).bijOn source).congr fun p _ => ?_
    cases axis with
    | horizontal => exact congrArg (·, p.2) (Nat.sub_right_comm ..)
    | vertical => exact congrArg (p.1, ·) (Nat.sub_right_comm ..)
  | rotate turns =>
    have size : target = (Rotation.ofQuarterTurns turns).size source :=
      fits.trans (Rotation.size_ofQuarterTurns turns source).symm
    subst size
    have back := (Motion.turn (Rotation.ofQuarterTurns turns).inverse).bijOn
      ((Rotation.ofQuarterTurns turns).size source)
    have whole_source : (Motion.turn (Rotation.ofQuarterTurns turns).inverse).size
        ((Rotation.ofQuarterTurns turns).size source) = source := Rotation.size_inverse _ _
    rw [whole_source] at back
    exact back.congr fun p _ => (Rotation.rotationSource_eq turns source p.1 p.2).symm

theorem place_inside {source target : Size} (fits : t.Fits source target) {x y : Nat}
    (hx : x < target.width) (hy : y < target.height) :
    (t.place source target x y).1 < source.width ∧
      (t.place source target x y).2 < source.height := by
  cases t with
  | copy x0 y0 =>
    obtain ⟨right, bottom⟩ := fits
    show x0 + x < source.width ∧ y0 + y < source.height
    omega
  | mirror axis =>
    exact (bijOn_place (t := mirror axis) trivial fits).mapsTo (⟨hx, hy⟩ : (x, y) ∈ target.pixels)
  | rotate turns =>
    exact (bijOn_place (t := rotate turns) trivial fits).mapsTo (⟨hx, hy⟩ : (x, y) ∈ target.pixels)

end Transfer

end Raster
