import Raster.Proofs.Engine.Orientation
import Raster.Proofs.Samples.Symmetry

/-!
# Rotations and flips one after the other

The engine rotates and flips frame by frame, and every frame in between has a size and strides
of its own. Only the product of the symmetries counts: two chains of rotations and flips with
the same product leave the same bytes in the output.

* `Move.symmetry`, `Move.product` — the element of the dihedral group that a rotation, a flip or
  a chain of them stands for.
* `Move.Path` — how a chain may end, whatever the canonical frames in between.
* `Move.SameEnd` — two chains that always end in one and the same outcome.

Results: `Move.Path.carries` (a chain moves samples by the product of its symmetries),
`Move.sameEnd_of_product` (so that product decides the outcome) and `Move.symmetries_act` (which
chains end alike, and that no sample is lost or duplicated).
-/

namespace Raster

namespace Move

/-! ## The symmetry of a move -/

/-- What a rotation or a flip does to every grid. -/
def symmetry : Move → Option (DihedralGroup 4)
  | rotate degrees =>
    if degrees < 360 ∧ degrees % 90 = 0 then some (.r (degrees / 90 : Nat)) else none
  | flip .horizontal => some (.sr 0)
  | flip .vertical => some (.sr 2)
  | _ => none

/-- What a chain of rotations and flips does, the first of them first. -/
def product : List Move → Option (DihedralGroup 4)
  | [] => some 1
  | m :: rest => do return (← m.symmetry) * (← product rest)

variable {m m' : Move} {f f' : Motion} {g g' : DihedralGroup 4} {size targetSize : Size}
  {w w' rest : List Move}

theorem product_cons : product (m :: rest) = some g ↔
    ∃ a b, m.symmetry = some a ∧ product rest = some b ∧ a * b = g := by
  simp [product, Option.bind_eq_some_iff]

theorem product_single (h : m.symmetry = some g) : product [m] = some g :=
  product_cons.2 ⟨g, 1, h, rfl, mul_one g⟩

theorem product_pair (h : m.symmetry = some g) (h' : m'.symmetry = some g') :
    product [m, m'] = some (g * g') :=
  product_cons.2 ⟨g, g', h, product_single h', rfl⟩

theorem symmetry_rotate {a : Nat} (ha : a < 4) : (rotate (90 * a)).symmetry = some (.r a) := by
  rw [symmetry, if_pos (by omega), Nat.mul_div_cancel_left a (by decide)]

theorem Carries.of_agree (h : m.Carries f) (agree : f.Agree f') : m.Carries f' where
  whole := h.whole
  suits size := by
    rw [← agree.size]
    exact h.suits size
  grid s target whole := (h.grid s target (whole.trans (agree.size s.size).symm)).of_agree agree

theorem rotate_carries_turns {a : Nat} (ha : a < 4) : (rotate (90 * a)).Carries (.turns a) := by
  have turned := rotate_carries (.ofQuarterTurns a)
  rw [Rotation.degrees, Rotation.quarterTurns_ofQuarterTurns, Nat.mod_eq_of_lt ha,
    Nat.mul_comm] at turned
  exact turned

/-- A rotation or a flip carries samples by its symmetry. -/
theorem carries_of_symmetry (h : m.symmetry = some g) : m.Carries (.ofSymmetry g) := by
  cases m with
  | crop x0 y0 x1 y1 => cases h
  | resize => cases h
  | resizeNearest => cases h
  | rotate degrees =>
    rw [symmetry] at h
    split at h
    · next angle =>
      obtain rfl := Option.some.inj h
      have turned := rotate_carries_turns (a := degrees / 90) (by omega)
      rw [Nat.mul_div_cancel' (Nat.dvd_of_mod_eq_zero angle.2), ← Motion.turns_mod,
        ← ZMod.val_natCast] at turned
      exact turned
    · cases h
  | flip axis =>
    cases axis with
    | horizontal =>
      obtain rfl := Option.some.inj h
      exact (flip_carries .horizontal).of_agree (Motion.andThen_deg0 _).symm
    | vertical =>
      obtain rfl := Option.some.inj h
      exact (flip_carries .vertical).of_agree Motion.mirror_vertical

/-- A rotation or a flip asks for one size of its output. -/
theorem size_of_suits (h : m.symmetry = some g) (suits : m.Suits size targetSize) :
    targetSize = (Motion.ofSymmetry g).size size := by
  have whole := (carries_of_symmetry h).suits size
  cases m with
  | crop x0 y0 x1 y1 => cases h
  | resize => cases h
  | resizeNearest => cases h
  | rotate degrees => exact suits.2.trans whole.2.symm
  | flip axis => exact suits.symm.trans whole

/-! ## Chains -/

/-- A frame for the result of a move that is not the last of its chain: canonical, of the format
of the input and of a size that the move asks for. -/
structure Between (m : Move) (input between : Frame) : Prop where
  canonical : ∃ bytes, Frame.ofBuffer bytes between.metadata = .ok between
  format : between.format = input.format
  suits : m.Suits input.size between.size

/-- The outcomes in which a chain of moves may end. Each move but the last writes into a frame
of its own, which the next one reads; a move that fails ends the chain. -/
inductive Path : List Move → (input output : Frame) → Outcome → Prop
  | last {m : Move} {input output : Frame} :
      Path [m] input output ((Primitive.move m).run input output)
  | step {m : Move} {rest : List Move} {input between output : Frame} {r : Outcome}
      (next : m.Between input between)
      (done : ((Primitive.move m).run input between).status = .ok ())
      (path : Path rest ((Primitive.move m).run input between).frame output r) :
      Path (m :: rest) input output r
  | stop {m : Move} {rest : List Move} {input between output : Frame} {e : Error}
      (next : m.Between input between) (unfinished : rest ≠ [])
      (failed : ((Primitive.move m).run input between).status = .error e) :
      Path (m :: rest) input output (.failed e output)

/-- Both chains can be run, and whatever the frames in between, they succeed and end in one
outcome. -/
def SameEnd (w w' : List Move) (input output : Frame) : Prop :=
  ∃ r : Outcome, r.status = .ok () ∧ Path w input output r ∧ Path w' input output r ∧
    ∀ r', Path w input output r' ∨ Path w' input output r' → r' = r

variable {input between output : Frame} {source : Picture} {target : Canvas} {r : Outcome}

/-- A frame between two moves receives what the first of them carries. -/
theorem Between.carries (next : m.Between input between) (h : m.symmetry = some g)
    (hsource : input.picture = .ok source) :
    between.Sound ∧ between.size = (Motion.ofSymmetry g).size input.size ∧
      ((Primitive.move m).run input between).Carries (.ofSymmetry g) input.size source between := by
  obtain ⟨bytes, canonical⟩ := next.canonical
  have sound := Frame.sound_ofBuffer canonical
  have ⟨target, htarget, _⟩ := sound
  have size := size_of_suits h next.suits
  exact ⟨sound, size, Primitive.run_carries (carries_of_symmetry h) hsource htarget
    (by rw [next.format, Format.compatible_refl]) size⟩

/-- A chain carries samples by the product of its symmetries. -/
theorem Path.carries (path : Path w input output r) (h : product w = some g)
    (hsource : input.picture = .ok source) (htarget : output.writable = .ok target)
    (compatible : input.format.compatible output.format = true)
    (size : output.size = (Motion.ofSymmetry g).size input.size) :
    r.Carries (.ofSymmetry g) input.size source output := by
  induction path generalizing source g with
  | last =>
    obtain ⟨a, b, hm, hb, rfl⟩ := product_cons.1 h
    obtain rfl := Option.some.inj hb
    rw [mul_one] at size ⊢
    exact Primitive.run_carries (carries_of_symmetry hm) hsource htarget compatible size
  | step next done path ih =>
    obtain ⟨a, b, hm, hb, rfl⟩ := product_cons.1 h
    obtain ⟨sound, between_size, carried⟩ := next.carries hm hsource
    obtain ⟨written_size, -, written_format⟩ := Metadata.mk.inj carried.metadata
    have product := Motion.ofSymmetry_mul a b
    refine (carried.andThen sound between_size ?_ fun shown hshown => ?_).of_agree product
    · rw [next.format]
      exact Frame.grids_picture hsource
    · have later := ih hb hshown htarget (by rw [written_format, next.format]; exact compatible)
        (by rw [written_size, between_size, size, ← product.size]; rfl)
      rw [written_size, between_size] at later
      exact later
  | stop next unfinished failed =>
    obtain ⟨a, b, hm, hb, rfl⟩ := product_cons.1 h
    obtain ⟨-, -, carried⟩ := next.carries hm hsource
    cases carried.status.symm.trans failed

/-- There are canonical frames for the results on the way. -/
theorem exists_path (w : List Move) (output : Frame) (nonempty : w ≠ []) (h : product w = some g)
    (pixels : input.size.isEmpty = false) : ∃ r, Path w input output r := by
  induction w generalizing input g with
  | nil => exact absurd rfl nonempty
  | cons m rest ih =>
    obtain ⟨a, b, hm, hb, -⟩ := product_cons.1 h
    cases rest with
    | nil => exact ⟨_, .last⟩
    | cons m' rest =>
      have pixels' := (Motion.ofSymmetry a).isEmpty_size pixels
      obtain ⟨between, zeroed, -, metadata⟩ := Frame.exists_zeroed
        { input.metadata with size := (Motion.ofSymmetry a).size input.size } pixels'
        input.format_ne_unknown
      obtain ⟨between_size, -, between_format⟩ := Metadata.mk.inj metadata
      have between_size : between.size = (Motion.ofSymmetry a).size input.size := between_size
      have next : m.Between input between := by
        refine ⟨⟨_, metadata ▸ zeroed⟩, between_format, ?_⟩
        rw [between_size]
        exact (carries_of_symmetry hm).suits _
      cases done : ((Primitive.move m).run input between).status with
      | error e => exact ⟨_, .stop next (List.cons_ne_nil _ _) done⟩
      | ok u =>
        have written := (Primitive.run_lawful (.move m)).metadata input between
        obtain ⟨written_size, -, -⟩ := Metadata.mk.inj written
        have written_pixels :
            ((Primitive.move m).run input between).frame.size.isEmpty = false := by
          rw [written_size, between_size]
          exact pixels'
        obtain ⟨r, path⟩ := ih (List.cons_ne_nil _ _) hb written_pixels
        exact ⟨r, .step next done path⟩

/-- Chains with the same product end alike. -/
theorem sameEnd_of_product (hw : product w = some g) (hw' : product w' = some g)
    (nonempty : w ≠ []) (nonempty' : w' ≠ []) (hsource : input.picture = .ok source)
    (htarget : output.writable = .ok target)
    (compatible : input.format.compatible output.format = true)
    (size : output.size = (Motion.ofSymmetry g).size input.size) : SameEnd w w' input output := by
  have pixels := Frame.nonempty_of_picture hsource
  obtain ⟨r, path⟩ := exists_path w output nonempty hw pixels
  obtain ⟨r', path'⟩ := exists_path w' output nonempty' hw' pixels
  have carried := path.carries hw hsource htarget compatible size
  have carried' := path'.carries hw' hsource htarget compatible size
  refine ⟨r, carried.status, path, ?_, ?_⟩
  · rw [carried.unique carried' size]
    exact path'
  · rintro s (other | other)
    · exact (other.carries hw hsource htarget compatible size).unique carried size
    · exact (other.carries hw' hsource htarget compatible size).unique carried size

/-- A chain leaves in a sound output what it carries there. -/
theorem Path.shows (path : Path w input output r) (h : product w = some g)
    (hsource : input.picture = .ok source) (sound : output.Sound)
    (compatible : input.format.compatible output.format = true)
    (size : output.size = (Motion.ofSymmetry g).size input.size) :
    ∃ shown, r.frame.picture = .ok shown ∧ source.Carried (.ofSymmetry g) input.size shown := by
  have ⟨target, htarget, _⟩ := sound
  exact (path.carries h hsource htarget compatible size).shows sound size

/-- A chain whose symmetries cancel restores the input in a frame of its format. -/
theorem Path.restores (path : Path w input output r) (h : product w = some 1)
    (hsource : input.picture = .ok source) (sound : output.Sound)
    (format : output.format = input.format) (size : output.size = input.size) :
    ∃ shown, r.frame.picture = .ok shown ∧ shown.Agree source := by
  have ⟨target, htarget, _⟩ := sound
  have compatible : input.format.compatible output.format = true := by
    rw [format, Format.compatible_refl]
  have carried := path.carries h hsource htarget compatible size
  obtain ⟨shown, hshown, moved⟩ := carried.shows sound size
  obtain ⟨shown_size, -, shown_format⟩ := Metadata.mk.inj carried.metadata
  have grids : source.grids = input.format.grids input.size := Frame.grids_picture hsource
  have shown_grids : shown.grids = input.format.grids input.size := by
    rw [Frame.grids_picture hshown, shown_size, shown_format, format, size]
  exact ⟨shown, hshown, moved.unique (.refl source input.size) shown_grids
    (shown_grids.trans grids.symm)⟩

/-! ## The dihedral group -/

/-- Rotations and flips act on frames as the dihedral group of order eight. Rotations add up, each
flip undoes itself, both flips make half a turn and a flip turns rotations around; beyond that,
any two chains with the same product end alike. Each symmetry takes the samples of every grid one
for one, and no two symmetries do the same. -/
theorem symmetries_act {input output : Frame} {source : Picture} {target : Canvas}
    (hsource : input.picture = .ok source) (htarget : output.writable = .ok target)
    (compatible : input.format.compatible output.format = true) :
    (∀ a b, a < 4 → b < 4 → output.size = (Rotation.ofQuarterTurns (a + b)).size input.size →
      SameEnd [rotate (90 * a), rotate (90 * b)] [rotate (90 * ((a + b) % 4))] input output) ∧
    (∀ axis, output.size = input.size →
      SameEnd [flip axis, flip axis] [rotate 0] input output ∧
        (output.Sound → output.format = input.format →
          ∀ r, Path [flip axis, flip axis] input output r →
            ∃ shown, r.frame.picture = .ok shown ∧ shown.Agree source)) ∧
    (output.size = input.size →
      SameEnd [flip .horizontal, flip .vertical] [rotate 180] input output) ∧
    (∀ a, a < 4 → output.size = (Rotation.ofQuarterTurns a).size input.size →
      SameEnd [rotate (90 * a), flip .horizontal]
        [flip .horizontal, rotate (90 * ((4 - a) % 4))] input output) ∧
    (∀ w w' g, w ≠ [] → w' ≠ [] → product w = some g → product w' = some g →
      output.size = (Motion.ofSymmetry g).size input.size →
        SameEnd w w' input output ∧ (output.Sound → ∀ r, Path w input output r →
          ∃ shown, r.frame.picture = .ok shown ∧
            source.Carried (.ofSymmetry g) input.size shown)) ∧
    (∀ g s, Set.BijOn (fun p => (Motion.ofSymmetry g).point s p.1 p.2) s.pixels
      ((Motion.ofSymmetry g).size s).pixels) ∧
    ∀ g h s, 2 ≤ s.width → 2 ≤ s.height → (∀ x y, x < s.width → y < s.height →
      (Motion.ofSymmetry g).point s x y = (Motion.ofSymmetry h).point s x y) → g = h := by
  have alike {w w' : List Move} {g : DihedralGroup 4} (hw : product w = some g)
      (hw' : product w' = some g) (nonempty : w ≠ []) (nonempty' : w' ≠ [])
      (size : output.size = (Motion.ofSymmetry g).size input.size) : SameEnd w w' input output :=
    sameEnd_of_product hw hw' nonempty nonempty' hsource htarget compatible size
  refine ⟨?rotations, ?involutions, ?flips, ?around, ?chains,
    fun g s => (Motion.ofSymmetry g).bijOn s, fun g h s width height same =>
      Motion.ofSymmetry_injective width height same⟩
  case rotations =>
    intro a b ha hb size
    have sum : DihedralGroup.r (((a + b) % 4 : Nat) : ZMod 4) = .r a * .r b := by
      rw [DihedralGroup.r_mul_r, ZMod.natCast_mod, Nat.cast_add]
    refine alike (product_pair (symmetry_rotate ha) (symmetry_rotate hb))
      (sum ▸ product_single (symmetry_rotate (Nat.mod_lt _ (by decide)))) nofun nofun ?_
    rw [size, ← sum]
    show _ = (Rotation.ofQuarterTurns _).size input.size
    rw [ZMod.val_natCast, Nat.mod_mod, Rotation.ofQuarterTurns_mod]
  case involutions =>
    intro axis size
    have twice : product [flip axis, flip axis] = some 1 := by
      cases axis <;> rfl
    exact ⟨alike twice rfl nofun nofun size, fun sound format r path =>
      path.restores twice hsource sound format size⟩
  case flips => exact fun size => alike (g := .r 2) rfl rfl nofun nofun size
  case around =>
    intro a ha size
    have turned : DihedralGroup.sr 0 * .r (((4 - a) % 4 : Nat) : ZMod 4) = .r a * .sr 0 := by
      interval_cases a <;> rfl
    refine alike (product_pair (symmetry_rotate ha) rfl)
      (turned ▸ product_pair rfl (symmetry_rotate (Nat.mod_lt _ (by decide)))) nofun nofun ?_
    rw [size, ← turned]
    interval_cases a <;> rfl
  case chains =>
    intro w w' g nonempty nonempty' hw hw' size
    exact ⟨alike hw hw' nonempty nonempty' size, fun sound r path =>
      path.shows hw hsource sound compatible size⟩

/-- Two quarter turns of a row, by way of a column, and half a turn. -/
theorem symmetries_act_row : ∃ r, Path [rotate 90, rotate 90] .nv12Row .nv12Row r ∧
    Path [rotate 180] .nv12Row .nv12Row r ∧ r.status = .ok () ∧
      r.frame.memory = #[3, 2, 1, 11, 21, 10, 20] := by
  obtain ⟨source, hsource⟩ : ∃ source, Frame.nv12Row.picture = .ok source := ⟨_, rfl⟩
  obtain ⟨target, htarget⟩ : ∃ target, Frame.nv12Row.writable = .ok target := ⟨_, rfl⟩
  obtain ⟨rotations, -⟩ := symmetries_act hsource htarget (by decide)
  obtain ⟨r, status, path, path', unique⟩ := rotations 1 1 (by decide) (by decide) rfl
  refine ⟨r, path, path', status, ?_⟩
  rw [← unique _ (.inr .last)]
  decide +kernel

end Move

end Raster
