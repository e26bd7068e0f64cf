import Raster.Proofs.Engine.Failure
import Raster.Proofs.Engine.Plan
import Raster.Proofs.Engine.Stepwise

/-!
# Reads that stay in their slices

If no tap leaves the region that it scales, every byte that is read belongs to a sample of the input,
and the machine never stops. Then the engine that watches its slices is the portable engine, for
single requests and for chains. A row that a tap leaves is scaled by the watchful engine only if its
slice goes on.

* `Request.StaysInside` — a request no tap of which leaves the region that is scaled.
* `Frame.blackRow` — a row of pixels with some bytes to spare.

Results: `Primitive.inSlices_of_staysInside` (a primitive reads in its slices),
`Request.serve_checked` (so does every request) and `Frame.resize_blackRow` (what a row needs to be
scaled).
-/

namespace Raster

/-! ## Slices -/

namespace TapTable

variable {taps : TapTable} {n m k : Nat}

theorem le_reach {i : Nat} (hi : i < m) : (taps n m i).lower ≤ taps.reach n m := by
  have upTo (k : Nat) (hk : i < k) : (taps n m i).lower ≤
      k.fold (fun i _ last => max last (max (taps n m i).lower (taps n m i).upper)) 0 := by
    induction k with
    | zero => omega
    | succ k ih =>
      rw [Nat.fold_succ]
      rcases Nat.eq_or_lt_of_le (Nat.le_of_lt_succ hk) with rfl | before
      · omega
      · have := ih before
        omega
  exact upTo m hi

theorem reach_le (bounded : ∀ i, i < m → (taps n m i).lower ≤ k ∧ (taps n m i).upper ≤ k) :
    taps.reach n m ≤ k := by
  have upTo (j : Nat) (hj : j ≤ m) :
      j.fold (fun i _ last => max last (max (taps n m i).lower (taps n m i).upper)) 0 ≤ k := by
    induction j with
    | zero => exact Nat.zero_le k
    | succ j ih =>
      obtain ⟨lower, upper⟩ := bounded j hj
      rw [Nat.fold_succ]
      exact Nat.max_le.2 ⟨ih (by omega), Nat.max_le.2 ⟨lower, upper⟩⟩
  exact upTo m (Nat.le_refl m)

end TapTable

/-- Taps that stay inside reach no farther than the last sample. -/
theorem TapTable.Inside.reach_lt {taps : TapTable} {n m : Nat} (inside : taps.Inside n m)
    (positive : 0 < n) : taps.reach n m < n := by
  have last : taps.reach n m ≤ n - 1 := reach_le fun i hi => by
    obtain ⟨lower, upper⟩ := inside i hi
    omega
  omega

namespace Shape

variable {s : Shape} {length : Nat}

/-- A sample ends in the buffer, in each of its channels. -/
theorem address_le (fits : s.Fits length) {x y k : Nat} (hx : x < s.width) (hy : y < s.height)
    (hk : k ≤ s.channels) : s.address x y k ≤ length := by
  have last := address_lt fits hx hy (c := s.channels - 1) (by have := fits.channels_pos; omega)
  have channels := fits.channels_pos
  simp only [address] at last ⊢
  omega

/-- The slice of a grid holds what taps name in a region of the grid, if they stay inside. -/
theorem holdsTaps_of_spans (fits : s.Fits length) {r : Region} (within : r.Within s.toExtent)
    {taps : TapTable} {target : Size} (spans : taps.Spans r.size target) {channels : Nat}
    (narrowed : channels ≤ s.channels) :
    { s with channels }.holdsTaps taps length r target = true := by
  unfold holdsTaps
  rcases spans with same | ⟨columns, rows⟩
  · simp [same]
  · have right := columns.reach_lt within.width_pos
    have bottom := rows.reach_lt within.height_pos
    have width := within.right_le
    have height := within.bottom_le
    have held := address_le fits (x := r.x + taps.reach r.width target.width)
      (y := r.y + taps.reach r.height target.height) (k := channels)
      (by simp only [Region.size] at right; omega) (by simp only [Region.size] at bottom; omega)
      narrowed
    exact Bool.or_eq_true_iff.2 (.inr (decide_eq_true held))

end Shape

/-- The slice of a grid holds what a move asks for, if the taps of its region stay inside. -/
theorem Component.inSlice_of_spans {c : Component} {planes : List Plane} (inside : c.Inside planes)
    {region : Option Region} {target : Extent} (within : ∀ r ∈ region, r.Within c.extent)
    (spans : ∀ r ∈ region, Tap.centred.Spans r.size target.size) {channels : Nat}
    (narrowed : channels ≤ c.extent.channels) :
    c.inSlice planes channels region target = true := by
  cases region with
  | none => rfl
  | some r => exact Shape.holdsTaps_of_spans inside (within r rfl) (spans r rfl) narrowed

/-! ## Primitives -/

/-- The slices hold what a move asks for. -/
theorem Move.inSlices_of_staysInside {m : Move} {format targetFormat : Format}
    {size targetSize : Size} (suits : m.Suits size targetSize) (nonempty : size.isEmpty = false)
    (inside : m.StaysInside format size targetSize) {source : Canvas} (held : source.Inside)
    (hsource : source.components.grids = format.grids size) {target : Components}
    (htarget : target.grids = targetFormat.grids targetSize) :
    m.inSlices source target = true := by
  unfold Canvas.Inside at held
  unfold inSlices
  cases hs : source.components with
  | packed pixels =>
    cases target with
    | yuv py pu pv => rfl
    | packed place =>
      rw [hs] at hsource held
      obtain ⟨n, -, hpixels⟩ := Format.eq_of_grids_packed hsource
      obtain ⟨k, -, hplace⟩ := Format.eq_of_grids_packed htarget
      have pixels_size := Extent.size_eq hpixels
      have place_size := Extent.size_eq hplace
      dsimp only
      rw [pixels_size]
      exact Component.inSlice_of_spans (held pixels List.mem_cons_self)
        (fun r => region?_within suits nonempty pixels_size)
        (fun r h => place_size ▸ inside.grid r h) (Nat.min_le_right _ _)
  | yuv y u v =>
    cases target with
    | packed place => rfl
    | yuv py pu pv =>
      rw [hs] at hsource held
      obtain ⟨yuv, hy, hu, hv⟩ := Format.eq_of_grids_yuv hsource
      obtain ⟨-, hpy, hpu, hpv⟩ := Format.eq_of_grids_yuv htarget
      have one {c : Component} {side : Size} (hc : c.extent = ⟨side.width, side.height, 1⟩) :
          1 ≤ c.extent.channels := by rw [hc]
      have chroma {c place : Component} (inside_c : c.Inside source.planes)
          (hc : c.extent = ⟨size.halved.width, size.halved.height, 1⟩)
          (hplace : place.extent = ⟨targetSize.halved.width, targetSize.halved.height, 1⟩) :
          c.inSlice source.planes 1 (m.chromaRegion? c.extent.size) place.extent = true := by
        rw [Extent.size_eq hc]
        exact Component.inSlice_of_spans inside_c
          (fun r => chromaRegion?_within suits nonempty (Extent.size_eq hc))
          (fun r h => Extent.size_eq hplace ▸ inside.chroma yuv r h) (one hc)
      have luma : y.inSlice source.planes 1 (m.region? y.extent.size) py.extent = true := by
        rw [Extent.size_eq hy]
        exact Component.inSlice_of_spans (held y (by simp [Components.list]))
          (fun r => region?_within suits nonempty (Extent.size_eq hy))
          (fun r h => Extent.size_eq hpy ▸ inside.grid r h) (one hy)
      dsimp only
      rw [luma, chroma (held u (by simp [Components.list])) hu hpu,
        chroma (held v (by simp [Components.list])) hv hpv]
      rfl

theorem Primitive.inSlices_of_staysInside {p : Primitive} {input output : Frame}
    (inside : p.StaysInside input.metadata output.metadata) : p.inSlices input output = true := by
  unfold inSlices
  split
  · next m target strokes source readable prepared =>
    obtain ⟨check, prepared⟩ := check_bind_eq_ok.1 prepared
    obtain ⟨shown, -, prepared⟩ := bind_eq_ok.1 prepared
    obtain ⟨canvas, writable, prepared⟩ := bind_eq_ok.1 prepared
    have accepts := check_eq_ok.1 check
    obtain ⟨-, suits⟩ := accepts.suits
    obtain ⟨hsource, held⟩ := Frame.readable_eq_ok.1 readable
    have hcanvas := Frame.grids_canvas (Frame.writable_eq_ok.1 writable).1
    split at prepared
    · cases prepared
      exact Move.inSlices_of_staysInside suits accepts.source_nonempty (inside accepts) held
        (Frame.grids_canvas hsource) hcanvas
    · cases prepared
  · rfl

/-! ## Requests -/

/-- No tap of a request leaves the region that is scaled. A chain that does not make the metadata of
the output is refused. -/
def Request.StaysInside (r : Request) (input output : Metadata) : Prop :=
  match r with
  | call p => p.StaysInside input output
  | orient => (Reorientation.between input.orientation output.orientation).StaysInside input output
  | perform op => op.StaysInside input output
  | execute operations => input.after operations = output → input.StaysInside operations
  | preprocess roi uniform => input.StaysInside (input.planTo output roi uniform)

/-- Where nothing is to be done the picture is copied. -/
theorem Metadata.resize_staysInside {input output : Metadata} {roi : Option Box} {uniform : Bool}
    (nothing : input.planTo output roi uniform = []) :
    (Primitive.move .resize).StaysInside input output := by
  obtain ⟨rfl, -⟩ := plan_eq_nil_iff.1 nothing
  exact fun _ => Move.resize_staysInside input.format input.size

namespace Engine

theorem checked_call {p : Primitive} {input output : Frame}
    (inside : p.StaysInside input.metadata output.metadata) :
    checked.call p input output = some (p.run input output) :=
  if_pos (Primitive.inSlices_of_staysInside inside)

theorem checked_exact {m : Move} (noRegion : ∀ grid, m.region? grid = none)
    (input output : Frame) :
    checked.call (.move m) input output = some ((Primitive.move m).run input output) :=
  checked_call fun _ => Move.staysInside_of_exact _ _ _ noRegion

theorem checked_cropBox {crop : Box} {input output : Frame}
    (inside : crop.StaysInside input.metadata output.metadata) :
    checked.cropBox crop input output = some (software.cropBox crop input output : Outcome) := by
  unfold cropBox
  cases toCrop : crop.toCrop with
  | error e => rfl
  | ok p => exact checked_call (inside p toCrop)

theorem checked_orient {input output : Frame}
    (inside : (Reorientation.between input.orientation output.orientation).StaysInside
      input.metadata output.metadata) :
    checked.orient input output = some (software.orient input output : Outcome) := by
  have turn (degrees : Nat) := checked_exact (m := .rotate degrees) fun _ => rfl
  have mirror (axis : FlipAxis) := checked_exact (m := .flip axis) fun _ => rfl
  have turned (degrees : Nat) (scratch : Frame) :
      (software.call (.move (.rotate degrees)) input scratch : Outcome) =
        (Primitive.move (.rotate degrees)).run input scratch := rfl
  unfold orient
  generalize Reorientation.between input.orientation output.orientation = change at inside ⊢
  obtain ⟨rotation, flip⟩ := change
  cases flip with
  | none =>
    cases rotation with
    | deg0 => exact checked_call (inside rfl)
    | deg90 | deg180 | deg270 => exact turn _ input output
  | some axis =>
    cases rotation with
    | deg0 => exact mirror axis input output
    | deg90 | deg180 | deg270 =>
      dsimp only
      split
      · rfl
      · rw [turn, turned]
        generalize Primitive.run _ input _ = rotated
        obtain ⟨status, frame⟩ := rotated
        cases status with
        | error e => rfl
        | ok done => exact mirror axis frame output

theorem checked_perform {op : Operation} {input output : Frame}
    (inside : op.StaysInside input.metadata output.metadata) :
    checked.perform op input output = some (software.perform op input output : Outcome) := by
  cases op with
  | cropResize crop size => exact checked_cropBox inside
  | convert format => exact checked_call trivial
  | orient orientation => exact checked_orient inside
  | uniformCropResize crop size =>
    show checked.cropUniformly crop input output =
      some (software.cropUniformly crop input output : Outcome)
    unfold cropUniformly
    cases taken : output.topLeft (uniformFit crop.size output.size) with
    | error e => rfl
    | ok region =>
      dsimp only
      rw [checked_cropBox ((Frame.fitsInto_of_topLeft taken).2 ▸ inside)]
      rfl

/-- A chain stays in its slices from step to step. -/
theorem checked_steps (timestamp : Option Nat) (output : Frame) {operations : List Operation}
    {source : Frame} (held spare : Bytes) (yields : source.metadata.after operations = output.metadata)
    (inside : source.metadata.StaysInside operations) :
    checked.steps timestamp output operations source held spare =
      some (software.steps timestamp output operations source held spare : Outcome) := by
  induction operations generalizing source held spare with
  | nil => rfl
  | cons op rest ih =>
    obtain ⟨here, later⟩ := inside
    have yields : (op.outputMetadata source.metadata).after rest = output.metadata := yields
    cases rest with
    | nil => exact checked_perform (yields ▸ here)
    | cons next others =>
      unfold steps
      dsimp only
      generalize op.outputMetadata source.metadata = target at here later yields ⊢
      split
      · rfl
      · next scratch hscratch =>
        have performed : checked.perform op source (scratch.stamped timestamp) =
            some (software.perform op source (scratch.stamped timestamp) : Outcome) :=
          checked_perform (Frame.metadata_ofBuffer hscratch ▸ here)
        rw [performed]
        simp only [bind, pure, Option.bind_some]
        split
        · rfl
        · split
          · rfl
          · next following hfollowing =>
            have metadata := Frame.metadata_ofBuffer hfollowing
            rw [← metadata] at later yields
            exact ih _ _ yields later

theorem checked_execute {operations : List Operation} {input output : Frame}
    (inside : input.metadata.after operations = output.metadata →
      input.metadata.StaysInside operations) :
    checked.execute operations input output =
      some (software.execute operations input output : Outcome) := by
  unfold execute
  dsimp only
  split
  · rfl
  · split
    · rfl
    · next yields =>
      have yields := Decidable.not_not.1 yields
      exact checked_steps _ output _ _ yields (inside yields)

theorem checked_preprocess {roi : Option Box} {uniform : Bool} {input output : Frame}
    (inside : input.metadata.StaysInside (input.metadata.planTo output.metadata roi uniform)) :
    checked.preprocess roi uniform input output =
      some (software.preprocess roi uniform input output : Outcome) := by
  unfold preprocess
  dsimp only
  split
  · next nothing =>
    exact checked_call (Metadata.resize_staysInside (List.isEmpty_iff.1 nothing))
  · exact checked_execute fun _ => inside

end Engine

/-- A request no tap of which leaves its region is served as by an engine that reads anywhere. -/
theorem Request.serve_checked (r : Request) {input output : Frame}
    (inside : r.StaysInside input.metadata output.metadata) :
    r.serve Engine.checked input output = some (r.serve Engine.software input output : Outcome) := by
  cases r with
  | call p => exact Engine.checked_call inside
  | orient => exact Engine.checked_orient inside
  | perform op => exact Engine.checked_perform inside
  | execute operations => exact Engine.checked_execute inside
  | preprocess roi uniform => exact Engine.checked_preprocess inside

/-! ## Rows that a tap leaves -/

/-- The last of these taps lies just after the row. -/
theorem Tap.reach_centred_long : Tap.centred.reach 16777220 16777221 = 16777220 := by
  refine Nat.le_antisymm (TapTable.reach_le fun i _ => ?_) ?_
  · have lower := toUInt64_tapPosition_le (n := 16777220) (by decide) 16777221 i
    have last : (binary32 (16777220 - 1)).toUInt64.toNat = 16777220 := by decide
    rw [last] at lower
    exact ⟨lower, Nat.le_trans (Nat.min_le_right _ _) (by decide)⟩
  · exact centred_lower_long ▸ TapTable.le_reach (by decide : 16777220 < 16777221)

/-- A row of black pixels without gaps in a plane that may go on after it. -/
def Frame.blackRow (format : Format) (channels : Nat) (packed : format.channels = some channels)
    (n spare : Nat) (positive : 0 < n) : Frame where
  planes := [⟨.replicate (n * channels + spare) 0, .packed n channels⟩]
  size := ⟨n, 1⟩
  format
  orientation := .topLeft
  timestamp := none
  accepts_count := Format.acceptsPlaneCount_one (by rintro rfl; cases packed)
  strides_positive := by
    intro plane member
    obtain rfl := List.mem_singleton.1 member
    have channels_pos := Format.channels_pos packed
    exact Stride.hasZero_eq_false.2 ⟨Nat.mul_pos positive channels_pos, channels_pos⟩

namespace Frame

variable {format : Format} {channels : Nat} (packed : format.channels = some channels)
  (n spare : Nat) (positive : 0 < n)

/-- The only grid of the row. -/
theorem readable_blackRow :
    let f := blackRow format channels packed n spare positive
    f.readable = .ok ⟨f.planes, .packed ⟨0, 0, ⟨⟨n, 1, channels⟩, n * channels, channels⟩⟩⟩ := by
  intro f
  have nonempty : f.size.isEmpty = false := Size.isEmpty_eq_false.2 ⟨positive, Nat.one_pos⟩
  have separate : f.isContiguousYuv = false := by
    have pixels : format.isYuv = false := by cases format <;> cases packed <;> rfl
    show (format.isYuv && _) = false
    rw [pixels, Bool.false_and]
  have canvas : Canvas.ofPlanes f.planes f.size format =
      ⟨f.planes, .packed ⟨0, 0, ⟨⟨n, 1, channels⟩, n * channels, channels⟩⟩⟩ := by
    unfold Canvas.ofPlanes
    rw [packed]
    rfl
  rw [readable_eq_ok, canvas_of_separate separate nonempty]
  refine ⟨congrArg Except.ok canvas, ?_⟩
  unfold Canvas.Inside
  simp only [Components.list, List.mem_singleton, forall_eq]
  refine ⟨positive, Nat.one_pos, Format.channels_pos packed, Nat.le_refl _, fun several => ?_, ?_⟩
  · exact absurd several (Nat.lt_irrefl 1)
  · show (1 - 1) * (n * channels) + ((n - 1) * channels + channels) ≤
      (Array.replicate (n * channels + spare) (0 : UInt8)).size - 0
    have row := sub_one_mul_add positive channels
    rw [Array.size_replicate]
    omega

/-- What follows the row is no part of its picture. -/
theorem picture_blackRow (spare' : Nat) :
    let a := blackRow format channels packed n spare positive
    let b := blackRow format channels packed n spare' positive
    a.metadata = b.metadata ∧ ∃ p q, a.picture = .ok p ∧ b.picture = .ok q ∧ p.Agree q := by
  have black (length i : Nat) : (Array.replicate length (0 : UInt8)).getD i 0 = 0 := by
    rw [Array.getD_eq_getD_getElem?, Array.getElem?_replicate]
    split <;> rfl
  refine ⟨rfl, _, _, picture_eq_ok.2 ⟨_, readable_blackRow packed n spare positive, rfl⟩,
    picture_eq_ok.2 ⟨_, readable_blackRow packed n spare' positive, rfl⟩, .packed ⟨rfl, ?_⟩⟩
  intro x y c _ _ _
  exact (black _ _).trans (black _ _).symm

/-- The row is scaled into a longer or a shorter one from a slice that holds what the taps name. -/
theorem resize_blackRow {format' : Format} {channels' : Nat}
    (packed' : format'.channels = some channels') {m : Nat} (positive' : 0 < m)
    (compatible : format.compatible format' = true) (differ : n ≠ m) :
    let input := blackRow format channels packed n spare positive
    let output := blackRow format' channels' packed' m 0 positive'
    ((Primitive.move .resize).run input output).status = .ok () ∧
      (Primitive.move .resize).inSlices input output =
        decide (Tap.centred.reach n m * channels + min channels' channels ≤ n * channels + spare) := by
  intro input output
  have readable : input.readable = .ok _ := readable_blackRow packed n spare positive
  have shown : input.picture = .ok _ := picture_eq_ok.2 ⟨_, readable, rfl⟩
  have writable : output.writable = .ok _ :=
    readable_iff_writable.1 (readable_blackRow packed' m 0 positive')
  have accepts : (Primitive.move .resize).Accepts input.metadata output.metadata :=
    ⟨nonempty_of_picture shown, nonempty_of_writable writable, compatible, trivial⟩
  constructor
  · exact (Primitive.run_draws accepts shown writable rfl).status
  · unfold Primitive.inSlices
    rw [Primitive.prepare_eq_ok (Primitive.check_eq_ok.2 accepts) shown writable, readable]
    have one : Tap.centred.reach 1 1 = 0 :=
      Nat.lt_one_iff.1 ((Tap.centred_inside Nat.one_pos (by decide) 1).reach_lt Nat.one_pos)
    have sizes : ¬(⟨n, 1⟩ : Size) = ⟨m, 1⟩ := fun same => differ (congrArg Size.width same)
    show Shape.holdsTaps ⟨⟨n, 1, min channels' channels⟩, n * channels, channels⟩ .centred
      ((Array.replicate (n * channels + spare) (0 : UInt8)).size - 0) ⟨0, 0, n, 1⟩ ⟨m, 1⟩ = _
    unfold Shape.holdsTaps
    simp only [Region.size, sizes, decide_false, Bool.false_or, Shape.address, one, Nat.zero_add,
      Nat.zero_mul, Array.size_replicate, Nat.sub_zero]

end Frame

theorem Request.serve_call_checked (p : Primitive) (input output : Frame) :
    (call p).serve Engine.checked input output =
      if p.inSlices input output then some (p.run input output) else none := rfl

end Raster
