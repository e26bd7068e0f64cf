import Raster.Proofs.Engine.Footprint
import Raster.Proofs.Engine.ReadBack
import Raster.Proofs.Engine.Rescaling
import Raster.Proofs.Engine.Storage
import Raster.Proofs.Engine.Tensor

/-!
# The whole frame as a region of interest

Preprocessing takes a region of interest, or none for the whole frame. If the region is the whole
frame, and its size stays, the plan begins with a crop that has nothing to do: a copy into the
output where nothing else is to be done, and a copy into a scratch frame in front of all other
steps. Neither can be noticed, since the copy shows what the input shows, and no step reads anything
else.

* `Transform.NeedsInput` — a transform that succeeds on input that can be read only.

Results: `Engine.preprocess_needsInput` (preprocessing is one), `Stage.advance_whole` (a crop of the
whole frame leaves a frame like its input) and `Engine.preprocess_whole_region` (both ways of asking
for the whole frame, and what they copy).
-/

namespace Raster

/-! ## Input that cannot be read -/

/-- Without input that can be read the transform fails. -/
def Transform.NeedsInput (t : Transform) : Prop :=
  ∀ input output, (t input output).status = .ok () → input.Resolves

namespace Transform

theorem needsInput_failed (e : Error) : NeedsInput fun _ output => .failed e output := by
  intro input output done
  cases done

theorem through_needsInput {scratch : Frame} {first : Transform} (h : first.NeedsInput)
    (second : Transform) : (through scratch first second).NeedsInput := by
  intro input output done
  unfold through at done
  dsimp only at done
  split at done
  · cases done
  · next first_done => exact h input _ first_done

end Transform

theorem Primitive.run_needsInput (p : Primitive) : Transform.NeedsInput p.run := by
  intro input output done
  by_contra unreadable
  obtain ⟨e, failed⟩ := p.run_unreadable unreadable output
  rw [failed] at done
  cases done

theorem Reorientation.transform_needsInput (change : Reorientation) (m : Metadata) :
    (change.transform m).NeedsInput := by
  unfold transform
  split
  · exact Primitive.run_needsInput _
  · exact Primitive.run_needsInput _
  · exact Primitive.run_needsInput _
  · split
    · exact Transform.needsInput_failed _
    · exact Transform.through_needsInput (Primitive.run_needsInput _) _

namespace Engine

theorem cropBox_needsInput (crop : Box) : Transform.NeedsInput (software.cropBox crop) := by
  unfold cropBox
  split
  · exact Transform.needsInput_failed _
  · exact Primitive.run_needsInput _

theorem cropUniformly_needsInput (crop : Box) :
    Transform.NeedsInput (software.cropUniformly crop) := by
  intro input output done
  unfold cropUniformly at done
  split at done
  · cases done
  · next region _ => exact cropBox_needsInput crop input region done

theorem perform_needsInput (op : Operation) : Transform.NeedsInput (software.perform op) := by
  cases op with
  | cropResize crop size => exact cropBox_needsInput crop
  | convert format => exact Primitive.run_needsInput .convert
  | orient orientation =>
    intro input output done
    have done : (software.orient input output : Outcome).status = .ok () := done
    rw [orient_eq] at done
    exact Reorientation.transform_needsInput _ _ input output done
  | uniformCropResize crop size => exact cropUniformly_needsInput crop

end Engine

/-- The first step of a chain reads its input. -/
theorem Stage.finish_needsInput {s : Stage} {timestamp : Option Nat} {output : Frame}
    {operations : List Operation} (nonempty : operations ≠ [])
    (done : (s.finish timestamp output operations).status = .ok ()) : s.source.Resolves := by
  cases operations with
  | nil => exact absurd rfl nonempty
  | cons op rest =>
    cases rest with
    | nil => exact Engine.perform_needsInput op s.source output done
    | cons following others =>
      rw [finish_cons (by simp)] at done
      cases advanced : s.advance timestamp op with
      | error e =>
        rw [advanced] at done
        cases done
      | ok next =>
        obtain ⟨blank, -, advanced⟩ := bind_eq_ok.1 advanced
        obtain ⟨⟨⟩, performed, -⟩ := bind_eq_ok.1 advanced
        exact Engine.perform_needsInput op _ _ performed

namespace Engine

theorem execute_needsInput (operations : List Operation) :
    Transform.NeedsInput (software.execute operations) := by
  intro input output done
  have nonempty : operations ≠ [] := by
    rintro rfl
    cases done
  by_cases yields : input.metadata.after operations = output.metadata
  · rw [execute_eq_finish nonempty yields] at done
    exact Stage.finish_needsInput (s := .start input) nonempty done
  · rw [execute_of_not_yields nonempty yields] at done
    cases done

theorem preprocess_needsInput (roi : Option Box) (uniform : Bool) :
    Transform.NeedsInput (software.preprocess roi uniform) := by
  intro input output done
  unfold preprocess at done
  dsimp only at done
  split at done
  · exact Primitive.run_needsInput _ input output done
  · exact execute_needsInput _ input output done

end Engine

/-! ## Pictures cut at their own size -/

theorem Samples.cut_whole {s : Samples} {b : Box} (corner : b.x = 0 ∧ b.y = 0)
    (size : s.size = b.size) : s.cut b = s := by
  obtain ⟨width, height⟩ := Size.mk.inj size
  have extent : (⟨b.width, b.height, s.channels⟩ : Extent) = s.toExtent := by
    rw [← width, ← height]
  have value : (fun x y c => s.value (b.x + x) (b.y + y) c) = s.value := by
    simp only [corner, Nat.zero_add]
  show Samples.mk _ _ = s
  rw [extent, value]

theorem Picture.cut_whole {p : Picture} {format : Format} {size : Size}
    (hp : p.grids = format.grids size) : p.cut (.ofSize size) = p := by
  cases p with
  | packed s =>
    obtain ⟨n, -, hs⟩ := extent_of_packed hp
    exact congrArg packed (Samples.cut_whole ⟨rfl, rfl⟩ (Extent.size_eq hs))
  | yuv y u v =>
    obtain ⟨-, hy, hu, hv⟩ := extents_of_yuv hp
    have chroma {s : Samples} (h : s.size = size.halved) : s.cut (Box.ofSize size).halved = s :=
      Samples.cut_whole ⟨Nat.zero_div 2, Nat.zero_div 2⟩ h
    simp only [cut]
    rw [Samples.cut_whole ⟨rfl, rfl⟩ (Extent.size_eq hy), chroma (Extent.size_eq hu),
      chroma (Extent.size_eq hv)]

/-! ## A crop with nothing to do -/

variable {input output : Frame} {source : Picture}

/-- A crop of the whole frame is a resize, also where input or output cannot be used. -/
theorem Primitive.crop_whole (nonempty : input.size.isEmpty = false) (output : Frame) :
    (move (Box.ofSize input.size).crop).run input output = (move .resize).run input output := by
  have pixels : (Box.ofSize input.size).isEmpty = false := nonempty
  have inside := input.size.containsBox_ofSize
  have check : (move (Box.ofSize input.size).crop).check input output =
      (move .resize).check input output := by
    show (Box.ofSize input.size).crop.check input output = checkCompatible input output
    exact Box.check_crop pixels inside
  cases hsource : input.picture with
  | error e =>
    rw [run_eq, run_eq, draw_unreadable _ hsource, draw_unreadable _ hsource, check]
  | ok source =>
    have grids := Frame.grids_picture hsource
    refine run_agree hsource hsource output check fun accepts => ?_
    obtain ⟨compatible, -⟩ := accepts.suits
    have compatible : input.format.compatible output.format = true := compatible
    -- the resize of the part in the box, which is the whole picture
    have scaled := Move.resize_image_cut compatible grids pixels inside output.size
    rw [Picture.cut_whole grids] at scaled
    exact .ok (scaled ▸ .refl _)

/-- As the first step of a chain it leaves a frame like its input. -/
theorem Stage.advance_whole (hsource : input.picture = .ok source) (range : input.size.InRange)
    (timestamp : Option Nat) : ∃ next : Stage, (start input).advance timestamp
        (.cropResize (.ofSize input.size) input.size) = .ok next ∧ next.source.Alike input := by
  have nonempty := Frame.nonempty_of_picture hsource
  have pixels : (Box.ofSize input.size).isEmpty = false := nonempty
  have inside := input.size.containsBox_ofSize
  have target : (start input).target (.cropResize (.ofSize input.size) input.size) =
      input.metadata := rfl
  have long : byteSize input.metadata.size input.metadata.format ≤
      ((start input).scratch (byteSize input.metadata.size input.metadata.format)).size :=
    Nat.le_of_eq ((start input).size_scratch _).symm
  obtain ⟨blank, hblank⟩ := Frame.ofBuffer_ok nonempty input.format_ne_unknown long
  have blank_metadata := Frame.metadata_ofBuffer hblank
  obtain ⟨blank_size, -, blank_format⟩ := Metadata.mk.inj blank_metadata
  -- the crop into the scratch frame, which shows the whole picture then
  have cropped : (Engine.software.perform (.cropResize (.ofSize input.size) input.size) input
      (blank.stamped timestamp) : Outcome) =
      (Primitive.move (Box.ofSize input.size).crop).run input (blank.stamped timestamp) :=
    Engine.cropBox_eq_crop pixels inside range input (blank.stamped timestamp)
  obtain ⟨⟨done, metadata⟩, shown, hshown, agree⟩ := Primitive.crop_shows hsource
    ((Frame.sound_ofBuffer hblank).stamped timestamp)
    (show (blank.stamped timestamp).size = (Box.ofSize input.size).size from blank_size) blank_format
    pixels inside
  obtain ⟨-, next, -, shows, advanced⟩ := advance_of_blank target hblank timestamp
  rw [show (start input).source = input from rfl, cropped] at shows advanced
  rw [done] at advanced
  refine ⟨_, advanced, .stamped_left (shows.trans ⟨metadata.trans blank_metadata, ?_⟩) timestamp⟩
  rw [hshown, hsource]
  exact .ok (Picture.cut_whole (Frame.grids_picture hsource) ▸ agree)

/-- Without proportional crops the remaining steps of a chain make the same of frames that are
alike, whatever their arenas hold, if no tap leaves the region that it scales. -/
theorem Stage.finish_alike {s s' : Stage} (alike : s.source.Alike s'.source)
    {operations : List Operation} (fills : ∀ crop size, .uniformCropResize crop size ∉ operations)
    (timestamp : Option Nat) {output : Frame}
    (yields : s.source.metadata.after operations = output.metadata)
    (inside : s.source.metadata.StaysInside operations) :
    s.finish timestamp output operations = s'.finish timestamp output operations := by
  have undisturbed (held spare : Bytes) : Engine.Undisturbed operations held spare := by
    intro i crop size found
    exact absurd (List.mem_of_getElem? found) (fills crop size)
  unfold finish
  rw [Engine.steps_eq_stepwise timestamp output operations alike (undisturbed _ _) yields inside,
    Engine.steps_eq_stepwise timestamp output operations (.refl s'.source) (undisturbed _ _)
      (alike.metadata ▸ yields) (alike.metadata ▸ inside), alike.metadata]

/-! ## Both plans -/

/-- In a chain a change of orientation copies or turns. -/
theorem Operation.orient_staysInside (target : Orientation) (m : Metadata) :
    (orient target).StaysInside m ((orient target).outputMetadata m) := by
  intro still accepts
  have same : orientedSize m.size m.orientation target = m.size := by
    have still : Reorientation.between m.orientation target = ⟨.deg0, none⟩ := still
    rw [orientedSize, still]
    rfl
  show Move.resize.StaysInside m.format m.size (orientedSize m.size m.orientation target)
  rw [same]
  exact Move.resize_staysInside m.format m.size

/-- Without a crop a plan has no taps. -/
theorem Metadata.planTo_staysInside {input output : Metadata}
    (same : input.scaledSize output = input.size) (uniform : Bool) :
    input.StaysInside (input.planTo output none uniform) := by
  rw [planTo_eq, cropping_eq_nil.2 ⟨rfl, same⟩, List.nil_append]
  unfold converting orienting
  split <;> split
  · trivial
  · exact ⟨Operation.orient_staysInside _ _, trivial⟩
  · exact ⟨trivial, trivial⟩
  · exact ⟨trivial, Operation.orient_staysInside _ _, trivial⟩

namespace Engine

/-- Input that can be read is preprocessed alike in both ways. -/
theorem preprocess_whole_eq (hsource : input.picture = .ok source) (range : input.size.InRange)
    (output : Frame) :
    (software.preprocess (some (.ofSize input.size)) false input output : Outcome) =
      software.preprocess none false input output := by
  have nonempty := Frame.nonempty_of_picture hsource
  by_cases same : input.metadata.scaledSize output.metadata = input.size
  · have plan : input.metadata.planTo output.metadata (some (.ofSize input.size)) false =
        .cropResize (.ofSize input.size) input.size ::
          input.metadata.planTo output.metadata none false := Metadata.planTo_whole_of_same same
    by_cases still : input.metadata.planTo output.metadata none false = []
    · -- a crop in place of a resize
      obtain ⟨metadata, -⟩ := Metadata.plan_eq_nil_iff.1 still
      rw [preprocess_whole metadata.symm nonempty range, preprocess_of_nothing _ still]
      exact Primitive.crop_whole nonempty output
    · -- a crop in front of all other steps
      have fills := Metadata.not_mem_planTo input.metadata output.metadata none
      have yields := Metadata.after_plan input.metadata output.metadata none false
      have yields' := Metadata.after_plan input.metadata output.metadata
        (some (.ofSize input.size)) false
      rw [preprocess_of_plan _ still rfl, preprocess_of_plan _ (by simp) plan,
        execute_eq_finish still yields, execute_eq_finish (by simp) (plan ▸ yields'),
        Stage.finish_cons still]
      obtain ⟨next, advanced, alike⟩ := Stage.advance_whole hsource range input.timestamp
      rw [advanced]
      have sources : next.source.Alike (Stage.start input).source := alike
      exact Stage.finish_alike sources fills input.timestamp (alike.metadata ▸ yields)
        (alike.metadata ▸ Metadata.planTo_staysInside same false)
  · have plan : input.metadata.planTo output.metadata (some (.ofSize input.size)) false =
        input.metadata.planTo output.metadata none false := Metadata.planTo_whole_of_resized same
    unfold preprocess
    dsimp only
    rw [plan]

end Engine

/-! ## Copies -/

/-- A picture painted from one canonical frame into another takes its bytes along, and leaves what
comes after the samples. -/
theorem Frame.getD_painted {bytes bytes' : Bytes} {m : Metadata} {f g : Frame} {p : Picture}
    {c : Canvas} (hf : ofBuffer bytes m = .ok f) (hg : ofBuffer bytes' m = .ok g)
    (hp : f.picture = .ok p) (hc : g.writable = .ok c) (i : Nat) :
    (g.painted c p).memory.getD i 0 =
      if i < byteSize m.size m.format then bytes.getD i 0 else bytes'.getD i 0 := by
  have metadata := metadata_ofBuffer hg
  have readable := readable_iff_writable.2 hc
  obtain ⟨-, inside, apart, places⟩ := canvas_of_canonical hg readable
  have tiles := bijOn_ofBuffer hg readable
  split
  · next below =>
    obtain ⟨s, hs, rfl⟩ := tiles.surjOn below
    obtain ⟨d, hd, rfl⟩ := picture_eq_ok.1 hp
    have again : ofBuffer (g.painted c d.picture).memory m =
        .ok ((g.painted c d.picture).stamped none) :=
      ofBuffer_memory hg metadata (room_painted hc d.picture)
    have painted := readable_painted hc d.picture
    -- the value at the site, in the frame that is painted and in the one that it comes from
    have grids : d.picture.grids = c.components.grids :=
      d.grids_picture.trans ((canvas_of_canonical hf hd).2.2.2.trans places.symm)
    have agree := Canvas.picture_paint inside apart grids
    have value := agree.valueAt (s := s) (by rw [agree.grids, grids, places]; exact hs)
    rw [valueAt_ofBuffer again painted hs, valueAt_ofBuffer hf hd hs,
      byteAt_ofBuffer again hg painted readable hs, byteAt_ofBuffer hf hg hd readable hs] at value
    exact value
  · next beyond =>
    have free : i ∉ c.footprint := by
      rintro ⟨s, hs, rfl⟩
      exact beyond (tiles.mapsTo (places ▸ hs))
    rw [memory_painted hc, Canvas.getD_paint_of_not_mem inside p free,
      join_pieces_ofBuffer hg readable]

namespace Engine

/-- Between frames of equal metadata preprocessing draws what the input shows. -/
theorem preprocess_draws (hsource : input.picture = .ok source)
    (same : output.metadata = input.metadata) {target : Canvas}
    (htarget : output.writable = .ok target) :
    Outcome.Draws (software.preprocess none false input output) source output := by
  have nothing : input.metadata.planTo output.metadata none false = [] :=
    Metadata.plan_eq_nil_iff.2 ⟨same.symm, rfl⟩
  obtain ⟨size, -, format⟩ := Metadata.mk.inj same
  have accepts : (Primitive.move .resize).Accepts input.metadata output.metadata :=
    ⟨Frame.nonempty_of_picture hsource, Frame.nonempty_of_writable htarget, by
      show input.format.compatible output.format = true
      rw [format, Format.compatible_refl], trivial⟩
  have drawn := Primitive.run_draws accepts hsource htarget rfl
  rw [size, format, ← Frame.grids_picture hsource] at drawn
  rw [preprocess_of_nothing _ nothing]
  exact drawn.congr (Move.resize_image_same source)

/-- A request for the whole frame, without a region of interest or with the whole frame as one: into
every output both succeed in the same cases, and leave the same output. If the output is sound and
has the metadata of the input, both copy what can be read. The output shows the samples of the input
then, one by one. Between canonical frames it holds the bytes of the input, up to where the samples
end; these are all bytes if there are no spare ones. -/
theorem preprocess_whole_region (range : input.size.InRange) (output : Frame) :
    let r : Outcome := software.preprocess none false input output
    let r' : Outcome := software.preprocess (some (.ofSize input.size)) false input output
    ((r.status = .ok () ↔ r'.status = .ok ()) ∧ r.frame = r'.frame) ∧
      (output.metadata = input.metadata → output.Sound → ∀ source, input.picture = .ok source →
        r.status = .ok () ∧ (∃ shown, r.frame.picture = .ok shown ∧ shown.Agree source) ∧
        ∀ bytes bytes' : Bytes, Frame.ofBuffer bytes input.metadata = .ok input →
          Frame.ofBuffer bytes' input.metadata = .ok output →
            (∀ i, r.frame.memory.getD i 0 =
              if i < byteSize input.size input.format then bytes.getD i 0 else bytes'.getD i 0) ∧
            (bytes.size = byteSize input.size input.format → bytes'.size = bytes.size →
              r.frame.memory = bytes)) := by
  intro r r'
  constructor
  · by_cases readable : input.Resolves
    · obtain ⟨source, hsource⟩ := readable.exists_picture
      have same : r' = r := preprocess_whole_eq hsource range output
      rw [same]
      exact ⟨Iff.rfl, rfl⟩
    · have fails (roi : Option Box) :
          (software.preprocess roi false input output : Outcome).status ≠ .ok () := by
        intro done
        exact readable (preprocess_needsInput roi false input output done)
      have kept (roi : Option Box) :
          (software.preprocess roi false input output : Outcome).frame = output := by
        cases status : (software.preprocess roi false input output : Outcome).status with
        | ok u => exact absurd status (fails roi)
        | error e => exact (preprocess_clean roi false input output e status).2
      exact ⟨iff_of_false (fails none) (fails _), (kept none).trans (kept _).symm⟩
  · intro same sound source hsource
    have ⟨target, htarget, _⟩ := sound
    have drawn : r.Draws source output := preprocess_draws hsource same htarget
    refine ⟨drawn.status, drawn.shows sound, fun bytes bytes' hinput houtput => ?_⟩
    obtain ⟨c, hc, painted⟩ := drawn.painted
    have held := Frame.getD_painted hinput houtput hsource hc
    have size : (output.painted c source).memory.size = bytes'.size := by
      rw [← Frame.memory_ofBuffer houtput]
      exact size_join_of_sizes (Plane.sizes_of_room (Frame.room_painted hc source))
    rw [painted]
    refine ⟨held, fun exact_size exact_size' => bytes_ext (size.trans exact_size') fun i hi => ?_⟩
    have below : i < byteSize input.size input.format := by
      rw [← exact_size, ← exact_size', ← size]
      exact hi
    rw [held i]
    exact if_pos below

/-- A row with pairs of chroma is copied either way. -/
theorem preprocess_whole_region_row :
    let bytes : Bytes := #[1, 2, 3, 10, 20, 11, 21]
    ∃ output, Frame.zeroed ⟨⟨3, 1⟩, .topLeft, .nv12⟩ = .ok output ∧
      Frame.ofBuffer bytes ⟨⟨3, 1⟩, .topLeft, .nv12⟩ = .ok .nv12Row ∧
        let r : Outcome := software.preprocess none false .nv12Row output
        let r' : Outcome := software.preprocess (some ⟨0, 0, 3, 1⟩) false .nv12Row output
        r.status = .ok () ∧ r'.status = .ok () ∧ r.frame.memory = bytes ∧ r'.frame.memory = bytes := by
  intro bytes
  obtain ⟨output, houtput, sound, metadata⟩ :=
    Frame.exists_zeroed ⟨⟨3, 1⟩, .topLeft, .nv12⟩ rfl nofun
  have hinput : Frame.ofBuffer bytes ⟨⟨3, 1⟩, .topLeft, .nv12⟩ = .ok .nv12Row := rfl
  obtain ⟨source, hsource⟩ : ∃ source, Frame.nv12Row.picture = .ok source := ⟨_, rfl⟩
  have range : Frame.nv12Row.size.InRange := ⟨by decide, by decide⟩
  obtain ⟨⟨status, frames⟩, copies⟩ := preprocess_whole_region range output
  obtain ⟨done, -, canonical⟩ := copies metadata sound source hsource
  obtain ⟨-, whole⟩ := canonical bytes _ hinput houtput
  have held := whole rfl (by rw [Array.size_replicate]; rfl)
  exact ⟨output, houtput, hinput, done, status.1 done, held, frames ▸ held⟩

end Engine

end Raster
