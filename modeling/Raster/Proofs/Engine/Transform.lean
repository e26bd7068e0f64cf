import Raster.Engine.Chain
import Raster.Proofs.Engine.Run
import Raster.Proofs.Frame.Region

/-!
# What transforms do with their frames

Two frames are *alike* when they have the same metadata and show the same picture: only
then can a transform take one for the other. Bytes between samples, the storage layout and
the capture time make no difference.

* `Frame.Alike` — frames that show the same.
* `Transform.Reads` — input that is alike gives equal outcomes.
* `Operation.StaysInside` — metadata between which no tap of an operation leaves its region.
* `Transform.Lawful` — the output keeps its metadata, the room of its planes and its capture time.
* `Outcome.Paints` — a request that paints one image into every output of the same metadata.
* `Transform.Overwrites` — what the output held before does not show through.

Results: `Engine.perform_lawful` (every operation is lawful), `Engine.perform_reads` (an operation
reads the picture and nothing else, if no tap leaves its region), `Engine.perform_paints` and
`Engine.perform_overwrites` (every operation but a proportional crop paints its whole output, and
so overwrites it).
-/

namespace Raster

/-! ## Frames that are alike -/

/-- The same metadata and the same picture. -/
structure Frame.Alike (a b : Frame) : Prop where
  metadata : a.metadata = b.metadata
  picture : SamePicture a.picture b.picture

namespace Frame.Alike

variable {a b c : Frame}

theorem refl (f : Frame) : f.Alike f := ⟨rfl, .refl _⟩

theorem symm (h : a.Alike b) : b.Alike a := ⟨h.metadata.symm, h.picture.symm⟩

theorem trans (h : a.Alike b) (h' : b.Alike c) : a.Alike c :=
  ⟨h.metadata.trans h'.metadata, h.picture.trans h'.picture⟩

/-- The capture time is not part of a picture. -/
theorem stamped (f : Frame) (s t : Option Nat) : (f.stamped s).Alike (f.stamped t) :=
  ⟨rfl, .refl _⟩

theorem stamped_left (h : a.Alike b) (t : Option Nat) : (a.stamped t).Alike b :=
  (stamped a t a.timestamp).trans h

end Frame.Alike

/-! ## Lawful transforms -/

/-- A request to fill one frame from another. -/
abbrev Transform := (input output : Frame) → Outcome

/-- An outcome with another capture time. -/
def Outcome.stamped (r : Outcome) (t : Option Nat) : Outcome := ⟨r.status, r.frame.stamped t⟩

namespace Transform

/-- Input that is alike gives equal outcomes. -/
def Reads (t : Transform) : Prop :=
  ∀ a b output : Frame, a.Alike b → t a output = t b output

/-- The output keeps all but its bytes. -/
structure Lawful (t : Transform) : Prop where
  metadata : ∀ input output, (t input output).frame.metadata = output.metadata
  room : ∀ input output,
    (t input output).frame.planes.map Plane.room = output.planes.map Plane.room
  stamps : ∀ input output time, t input (output.stamped time) = (t input output).stamped time

/-- What a sound output held before does not show through. -/
def Overwrites (t : Transform) : Prop :=
  ∀ (input : Frame) {a b : Frame}, a.Sound → b.Sound → a.metadata = b.metadata →
    (t input a).status = (t input b).status ∧
      ((t input a).status = .ok () → (t input a).frame.Alike (t input b).frame)

theorem lawful_failed (e : Error) : Lawful fun _ output => .failed e output where
  metadata _ _ := rfl
  room _ _ := rfl
  stamps _ _ _ := rfl

end Transform

/-! ## Outcomes that draw an image -/

/-- The request succeeds, and its output is painted with the image. -/
structure Outcome.Draws (r : Outcome) (image : Picture) (output : Frame) : Prop where
  grids : image.grids = output.format.grids output.size
  painted : ∃ c, output.writable = .ok c ∧ r = ⟨.ok (), output.painted c image⟩

namespace Outcome.Draws

variable {r r' : Outcome} {image image' : Picture} {output : Frame}

theorem status (h : r.Draws image output) : r.status = .ok () := by
  obtain ⟨c, -, rfl⟩ := h.painted
  rfl

theorem metadata (h : r.Draws image output) : r.frame.metadata = output.metadata := by
  obtain ⟨c, -, rfl⟩ := h.painted
  rfl

/-- A sound output shows what was drawn. -/
theorem shows (h : r.Draws image output) (sound : output.Sound) :
    ∃ shown, r.frame.picture = .ok shown ∧ shown.Agree image := by
  obtain ⟨c, writable, rfl⟩ := h.painted
  obtain ⟨c', writable', apart⟩ := sound
  obtain rfl := Except.ok.inj (writable.symm.trans writable')
  exact Frame.picture_painted writable apart h.grids

/-- An outcome draws whatever agrees with what it draws. -/
theorem congr (h : r.Draws image output)
    (agree : image.Agree image') : r.Draws image' output := by
  obtain ⟨c, writable, rfl⟩ := h.painted
  exact ⟨agree.grids ▸ h.grids, c, writable,
    congrArg _ (Frame.painted_congr writable agree h.grids)⟩

/-- Images that agree are drawn alike. -/
theorem unique (h : r.Draws image output) (h' : r'.Draws image' output)
    (agree : image.Agree image') : r = r' := by
  obtain ⟨c, writable, rfl⟩ := h.painted
  obtain ⟨c', writable', rfl⟩ := h'.painted
  obtain rfl := Except.ok.inj (writable.symm.trans writable')
  rw [Frame.painted_congr writable agree h.grids]

end Outcome.Draws

/-- A request that has an image draws it. -/
theorem Primitive.run_draws {p : Primitive} {input output : Frame} {source image : Picture}
    {c : Canvas} (accepts : p.Accepts input.metadata output.metadata)
    (hsource : input.picture = .ok source) (writable : output.writable = .ok c)
    (himage : p.image source (output.format.grids output.size) = .ok image) :
    (p.run input output).Draws image output :=
  ⟨grids_image accepts (Frame.grids_picture hsource) himage,
    c, writable, run_of_image accepts hsource writable himage⟩

/-! ## Requests that paint -/

/-- A frame painted with an image, or left alone where there is none. -/
def Outcome.ofImage (f : Frame) (c : Canvas) : Except Error Picture → Outcome
  | .ok image => ⟨.ok (), f.painted c image⟩
  | .error e => .failed e f

/-- A request that succeeds only on outputs with room for all of their samples. On outputs of the
same metadata it paints one image, or it fails for one reason. -/
structure Outcome.Paints (fill : Frame → Outcome) : Prop where
  needsRoom : ∀ {output}, (fill output).status = .ok () → ∃ c, output.writable = .ok c
  image : ∀ m : Metadata, ∃ answer : Except Error Picture,
    (∀ image, answer = .ok image → image.grids = m.format.grids m.size) ∧
      ∀ (output : Frame) (c : Canvas), output.metadata = m → output.writable = .ok c →
        fill output = .ofImage output c answer

namespace Outcome.Paints

variable {fill : Frame → Outcome} {a b : Frame}

theorem failed (e : Error) : Paints fun output => .failed e output where
  needsRoom := nofun
  image _ := ⟨.error e, nofun, fun _ _ _ _ => rfl⟩

/-- A request that goes by the metadata of its output paints if it does for each of them. -/
theorem of_metadata (h : ∀ m : Metadata, ∃ fill', Paints fill' ∧
    ∀ output : Frame, output.metadata = m → fill output = fill' output) : Paints fill where
  needsRoom := by
    intro output done
    obtain ⟨fill', paints, same⟩ := h output.metadata
    rw [same output rfl] at done
    exact paints.needsRoom done
  image m := by
    obtain ⟨fill', paints, same⟩ := h m
    obtain ⟨answer, grids, run⟩ := paints.image m
    refine ⟨answer, grids, fun output c metadata writable => ?_⟩
    rw [same output metadata, run output c metadata writable]

/-- Where a request succeeds once, it draws the same image into every output with room for it. -/
theorem exists_image (h : Paints fill) (done : (fill a).status = .ok ()) :
    ∃ image, (fill a).Draws image a ∧ ∀ (b : Frame) (c : Canvas), b.metadata = a.metadata →
      b.writable = .ok c → (fill b).Draws image b := by
  obtain ⟨c, writable⟩ := h.needsRoom done
  obtain ⟨answer, grids, run⟩ := h.image a.metadata
  have drawn := run a c rfl writable
  cases answer with
  | error e =>
    rw [drawn] at done
    cases done
  | ok image =>
    have grids := grids image rfl
    refine ⟨image, ⟨grids, c, writable, drawn⟩, fun b c' metadata writable' => ?_⟩
    obtain ⟨size, -, format⟩ := Metadata.mk.inj metadata
    exact ⟨grids.trans (by rw [size, format]; rfl), c', writable', run b c' metadata writable'⟩

/-- What a sound output held before does not show through. -/
theorem overwrites (h : Paints fill) (sound : a.Sound) (sound' : b.Sound)
    (metadata : a.metadata = b.metadata) : (fill a).status = (fill b).status ∧
      ((fill a).status = .ok () → (fill a).frame.Alike (fill b).frame) := by
  have ⟨ca, ha, _⟩ := sound
  have ⟨cb, hb, _⟩ := sound'
  constructor
  · obtain ⟨answer, -, run⟩ := h.image b.metadata
    rw [run a ca metadata ha, run b cb rfl hb]
    cases answer <;> rfl
  · intro done
    obtain ⟨image, drawn, others⟩ := h.exists_image done
    have drawn' := others b cb metadata.symm hb
    obtain ⟨shown, picture, agree⟩ := drawn.shows sound
    obtain ⟨shown', picture', agree'⟩ := drawn'.shows sound'
    refine ⟨drawn.metadata.trans (metadata.trans drawn'.metadata.symm), ?_⟩
    rw [picture, picture']
    exact .ok (agree.trans agree'.symm)

end Outcome.Paints

/-- The transform paints, whatever its input. -/
def Transform.Paints (t : Transform) : Prop := ∀ input, Outcome.Paints (t input)

theorem Transform.Paints.overwrites {t : Transform} (h : t.Paints) : t.Overwrites :=
  fun input => (h input).overwrites

/-! ## Primitives -/

namespace Primitive

variable {p : Primitive} {a b : Frame}

/-- Requests that pass one check, with images that agree, have one outcome. -/
theorem run_agree {q : Primitive} {shown shown' : Picture} (ha : a.picture = .ok shown)
    (hb : b.picture = .ok shown') (output : Frame) (check : p.check a output = q.check b output)
    (images : p.Accepts a.metadata output.metadata →
      SamePicture (p.image shown (output.format.grids output.size))
        (q.image shown' (output.format.grids output.size))) : p.run a output = q.run b output := by
  rw [run_eq, run_eq, draw, draw, ← check, ha, hb]
  cases passed : p.check a output with
  | error e => rfl
  | ok u =>
    have accepts := check_eq_ok.1 passed
    cases htarget : output.writable with
    | error e => rfl
    | ok target =>
      have grids := Frame.grids_canvas (Frame.writable_eq_ok.1 htarget).1
      simp only [Except.bind, bind, grids]
      rcases (images accepts).error_or_ok with ⟨e, hi, hi'⟩ | ⟨im, im', hi, hi', same⟩
      · have hi : p.image shown (output.format.grids output.size) = .error e := hi
        have hi' : q.image shown' (output.format.grids output.size) = .error e := hi'
        rw [hi, hi']
      · have hi : p.image shown (output.format.grids output.size) = .ok im := hi
        have hi' : q.image shown' (output.format.grids output.size) = .ok im' := hi'
        rw [hi, hi']
        simp only [pure, Except.pure]
        rw [Frame.painted_congr htarget same (grids_image accepts (Frame.grids_picture ha) hi)]

/-- Input that has images that agree gives equal outcomes. -/
theorem run_congr {shown shown' : Picture} (metadata : a.metadata = b.metadata)
    (ha : a.picture = .ok shown) (hb : b.picture = .ok shown') (output : Frame)
    (images : p.Accepts a.metadata output.metadata →
      SamePicture (p.image shown (output.format.grids output.size))
        (p.image shown' (output.format.grids output.size))) : p.run a output = p.run b output :=
  run_agree ha hb output (check_congr metadata rfl) images

theorem run_reads (h : a.Alike b) (output : Frame)
    (inside : p.StaysInside a.metadata output.metadata) : p.run a output = p.run b output := by
  rcases h.picture.error_or_ok with ⟨e, ha, hb⟩ | ⟨shown, shown', ha, hb, agree⟩
  · have check := check_congr (p := p) h.metadata (rfl : output.metadata = output.metadata)
    rw [run_eq, run_eq, draw, draw, check, ha, hb]
  · exact run_congr h.metadata ha hb output fun accepts =>
      image_agree accepts inside (Frame.grids_picture ha) agree

/-- A primitive without taps reads the picture only. -/
theorem run_reads_exact {m : Move} (noRegion : ∀ grid, m.region? grid = none) :
    Transform.Reads (move m).run :=
  fun _ _ output h => run_reads h output fun _ => Move.staysInside_of_exact _ _ _ noRegion

theorem run_lawful (p : Primitive) : Transform.Lawful p.run where
  metadata input output := by
    rw [run_eq]
    split <;> rfl
  room input output := by
    rw [run_eq]
    split
    · rfl
    · next canvas image drawn =>
      obtain ⟨-, htarget, -⟩ := draw_eq_ok.1 drawn
      exact Frame.room_painted htarget image
  stamps input output time := by
    have same : p.draw input (output.stamped time) = p.draw input output := rfl
    rw [run_eq, run_eq, same]
    split <;> rfl

theorem run_paints (p : Primitive) : Transform.Paints p.run := by
  refine fun input => ⟨fun {output} done => ?needsRoom, fun m => ?image⟩
  case needsRoom =>
    rw [run_eq] at done
    cases drawn : p.draw input output with
    | error e =>
      rw [drawn] at done
      cases done
    | ok drawing =>
      obtain ⟨-, writable, -⟩ := draw_eq_ok.1 drawn
      exact ⟨_, writable⟩
  case image =>
    by_cases possible : ∃ model : Frame, model.metadata = m
    · obtain ⟨model, rfl⟩ := possible
      refine ⟨p.check input model >>= fun _ => input.picture >>= fun source =>
        p.image source (model.format.grids model.size), fun image h => ?_,
        fun output c same htarget => ?_⟩
      · obtain ⟨check, h⟩ := check_bind_eq_ok.1 h
        obtain ⟨source, hsource, himage⟩ := bind_eq_ok.1 h
        exact grids_image (check_eq_ok.1 check) (Frame.grids_picture hsource) himage
      · have check := check_congr (p := p) (rfl : input.metadata = input.metadata) same
        obtain ⟨size, -, format⟩ := Metadata.mk.inj same
        have grids := Frame.grids_canvas (Frame.writable_eq_ok.1 htarget).1
        rw [size, format] at grids
        rw [run_eq, draw, check, htarget]
        simp only [bind, Except.bind, grids]
        cases p.check input model with
        | error e => rfl
        | ok u =>
          cases input.picture with
          | error e => rfl
          | ok source =>
            dsimp only
            cases p.image source (model.format.grids model.size) <;> rfl
    · refine ⟨.error (.invalidArgument .emptyCrop), ?_,
        fun output _ same _ => absurd ⟨output, same⟩ possible⟩
      rintro image ⟨⟩

theorem run_overwrites (p : Primitive) : Transform.Overwrites p.run := p.run_paints.overwrites

end Primitive

/-! ## Changes of orientation -/

/-- One transform after another, by way of a scratch frame. -/
def Transform.through (scratch : Frame) (first second : Transform) : Transform :=
  fun input output =>
    let r := first input (scratch.stamped input.timestamp)
    match r.status with
    | .error e => .failed e output
    | .ok () => second r.frame output

namespace Transform

variable {scratch : Frame} {first second : Transform}

theorem through_reads (h : first.Reads) (lawful : first.Lawful) (h' : second.Reads) :
    (through scratch first second).Reads := by
  intro a b output alike
  simp only [through, h _ _ _ alike, lawful.stamps, Outcome.stamped]
  split
  · rfl
  · exact h' _ _ output (.stamped _ _ _)

theorem through_lawful (h' : second.Lawful) : (through scratch first second).Lawful where
  metadata input output := by
    unfold through
    dsimp only
    split
    · rfl
    · exact h'.metadata _ _
  room input output := by
    unfold through
    dsimp only
    split
    · rfl
    · exact h'.room _ _
  stamps input output time := by
    unfold through
    dsimp only
    split
    · rfl
    · exact h'.stamps _ _ _

theorem through_paints (h : second.Paints) : (through scratch first second).Paints := by
  intro input
  unfold through
  dsimp only
  split
  · exact .failed _
  · exact h _

end Transform

/-- The transform that a change of orientation asks for, on input of this metadata. -/
def Reorientation.transform (change : Reorientation) (m : Metadata) : Transform :=
  match change.rotation, change.flip with
  | .deg0, none => (Primitive.move .resize).run
  | .deg0, some axis => (Primitive.move (.flip axis)).run
  | rotation, none => (Primitive.move (.rotate rotation.degrees)).run
  | rotation, some axis =>
    match Frame.zeroed { m with size := change.size m.size } with
    | .error e => fun _ output => .failed e output
    | .ok scratch =>
      .through scratch (Primitive.move (.rotate rotation.degrees)).run
        (Primitive.move (.flip axis)).run

/-- With a scratch frame at hand, a flip after a rotation goes through it. -/
theorem Reorientation.transform_of_zeroed {rotation : Rotation} {axis : FlipAxis} {m : Metadata}
    {scratch : Frame} (turns : rotation ≠ .deg0)
    (h : Frame.zeroed { m with size := rotation.size m.size } = .ok scratch) :
    transform ⟨rotation, some axis⟩ m =
      .through scratch (Primitive.move (.rotate rotation.degrees)).run
        (Primitive.move (.flip axis)).run := by
  have zeroed : Frame.zeroed { m with size := Reorientation.size ⟨rotation, some axis⟩ m.size } =
      .ok scratch := h
  unfold transform
  cases rotation with
  | deg0 => exact absurd rfl turns
  | deg90 | deg180 | deg270 =>
    dsimp only
    rw [zeroed]

theorem Reorientation.transform_lawful (change : Reorientation) (m : Metadata) :
    (change.transform m).Lawful := by
  unfold transform
  split
  · exact Primitive.run_lawful _
  · exact Primitive.run_lawful _
  · exact Primitive.run_lawful _
  · split
    · exact Transform.lawful_failed _
    · exact Transform.through_lawful (Primitive.run_lawful _)

/-- Where nothing is turned the picture is scaled to the size of the output. -/
def Reorientation.StaysInside (change : Reorientation) (input output : Metadata) : Prop :=
  change = ⟨.deg0, none⟩ → (Primitive.move .resize).StaysInside input output

/-- Rotations and flips have no taps. -/
theorem Reorientation.transform_reads_of_turns {change : Reorientation}
    (turns : change ≠ ⟨.deg0, none⟩) (m : Metadata) : (change.transform m).Reads := by
  have turn (degrees : Nat) : Transform.Reads (Primitive.move (.rotate degrees)).run :=
    Primitive.run_reads_exact fun _ => rfl
  have mirror (axis : FlipAxis) : Transform.Reads (Primitive.move (.flip axis)).run :=
    Primitive.run_reads_exact fun _ => rfl
  obtain ⟨rotation, flip⟩ := change
  unfold transform
  split
  · next hrotation hflip => exact absurd (congrArg₂ Reorientation.mk hrotation hflip) turns
  · exact mirror _
  · exact turn _
  · split
    · exact fun _ _ _ _ => rfl
    · exact Transform.through_reads (turn _) (Primitive.run_lawful _) (mirror _)

theorem Reorientation.transform_reads (change : Reorientation) {a b : Frame} (alike : a.Alike b)
    (m : Metadata) (output : Frame) (inside : change.StaysInside a.metadata output.metadata) :
    change.transform m a output = change.transform m b output := by
  by_cases turns : change = ⟨.deg0, none⟩
  · subst turns
    exact Primitive.run_reads alike output (inside rfl)
  · exact transform_reads_of_turns turns m _ _ output alike

theorem Reorientation.transform_paints (change : Reorientation) (m : Metadata) :
    (change.transform m).Paints := by
  unfold transform
  split
  · exact Primitive.run_paints _
  · exact Primitive.run_paints _
  · exact Primitive.run_paints _
  · split
    · exact fun _ => .failed _
    · exact Transform.through_paints (Primitive.run_paints _)

namespace Engine

theorem orient_eq (input output : Frame) : software.orient input output =
    (Reorientation.between input.orientation output.orientation).transform input.metadata input
      output := by
  unfold orient Reorientation.transform
  generalize Reorientation.between input.orientation output.orientation = change
  obtain ⟨rotation, flip⟩ := change
  have scratch (axis : FlipAxis) (zeroed : Except Error Frame) (degrees : Nat) :
      (match zeroed with
        | .error e => pure (.failed e output)
        | .ok scratch => do
          let rotated ← software.call (.move (.rotate degrees)) input
            (scratch.stamped input.timestamp)
          match rotated.status with
          | .error e => return .failed e output
          | .ok () => software.call (.move (.flip axis)) rotated.frame output : Id Outcome) =
      (match zeroed with
        | .error e => fun _ output => .failed e output
        | .ok scratch => Transform.through scratch (Primitive.move (.rotate degrees)).run
          (Primitive.move (.flip axis)).run : Transform) input output := by
    cases zeroed <;> rfl
  cases flip with
  | none => cases rotation <;> rfl
  | some axis =>
    cases rotation with
    | deg0 => rfl
    | deg90 => exact scratch axis _ _
    | deg180 => exact scratch axis _ _
    | deg270 => exact scratch axis _ _

theorem orient_reads {a b : Frame} (alike : a.Alike b) (output : Frame)
    (inside : (Reorientation.between a.orientation output.orientation).StaysInside a.metadata
      output.metadata) : (software.orient a output : Outcome) = software.orient b output := by
  have orientation := congrArg Metadata.orientation alike.metadata
  rw [orient_eq, orient_eq, ← alike.metadata, show b.orientation = a.orientation from orientation.symm]
  exact Reorientation.transform_reads _ alike _ output inside

theorem orient_lawful : Transform.Lawful software.orient where
  metadata input output := by
    rw [orient_eq]
    exact (Reorientation.transform_lawful _ _).metadata input output
  room input output := by
    rw [orient_eq]
    exact (Reorientation.transform_lawful _ _).room input output
  stamps input output time := by
    rw [orient_eq, orient_eq]
    exact (Reorientation.transform_lawful _ _).stamps input output time

theorem orient_paints : Transform.Paints software.orient := by
  refine fun input => .of_metadata fun m => ⟨_, Reorientation.transform_paints
    (.between input.orientation m.orientation) input.metadata input, fun output same => ?_⟩
  subst same
  exact orient_eq input output

end Engine

/-! ## Operations -/

/-- No tap of a crop leaves the box. A box without pixels is refused. -/
def Box.StaysInside (crop : Box) (input output : Metadata) : Prop :=
  ∀ p, crop.toCrop = .ok p → p.StaysInside input output

/-- No tap of an operation leaves the region that it scales. -/
def Operation.StaysInside (op : Operation) (input output : Metadata) : Prop :=
  match op with
  | cropResize crop _ => crop.StaysInside input output
  | uniformCropResize crop _ =>
    crop.StaysInside input { output with size := uniformFit crop.size output.size }
  | convert _ => True
  | orient _ =>
    (Reorientation.between input.orientation output.orientation).StaysInside input output

/-- No tap of an operation leaves a frame of up to `2 ^ 24 + 1` pixels a side. -/
theorem Operation.staysInside_of_short (op : Operation) {input : Metadata}
    (width : input.size.width ≤ 2 ^ 24 + 1) (height : input.size.height ≤ 2 ^ 24 + 1)
    (output : Metadata) : op.StaysInside input output := by
  cases op with
  | cropResize crop size => exact fun p _ => p.staysInside_of_short width height _
  | uniformCropResize crop size => exact fun p _ => p.staysInside_of_short width height _
  | convert format => trivial
  | orient orientation => exact fun _ => Primitive.staysInside_of_short _ width height _

namespace Engine

theorem cropBox_reads (crop : Box) {a b : Frame} (alike : a.Alike b) (output : Frame)
    (inside : crop.StaysInside a.metadata output.metadata) :
    (software.cropBox crop a output : Outcome) = software.cropBox crop b output := by
  unfold cropBox
  cases toCrop : crop.toCrop with
  | error e => rfl
  | ok p => exact Primitive.run_reads alike output (inside p toCrop)

theorem cropUniformly_reads (crop : Box) {a b : Frame} (alike : a.Alike b) (output : Frame)
    (inside : crop.StaysInside a.metadata
      { output.metadata with size := uniformFit crop.size output.size }) :
    (software.cropUniformly crop a output : Outcome) = software.cropUniformly crop b output := by
  unfold cropUniformly
  cases taken : output.topLeft (uniformFit crop.size output.size) with
  | error e => rfl
  | ok region =>
    show Outcome.inRegionOf output (software.cropBox crop a region) =
      Outcome.inRegionOf output (software.cropBox crop b region)
    rw [cropBox_reads crop alike region ((Frame.fitsInto_of_topLeft taken).2 ▸ inside)]

/-- An operation whose taps stay inside reads the picture and nothing else. -/
theorem perform_reads (op : Operation) {a b : Frame} (alike : a.Alike b) (output : Frame)
    (inside : op.StaysInside a.metadata output.metadata) :
    (software.perform op a output : Outcome) = software.perform op b output := by
  cases op with
  | cropResize crop size => exact cropBox_reads crop alike output inside
  | convert format => exact Primitive.run_reads alike output trivial
  | orient orientation => exact orient_reads alike output inside
  | uniformCropResize crop size => exact cropUniformly_reads crop alike output inside

theorem cropBox_lawful (crop : Box) : Transform.Lawful (software.cropBox crop) := by
  unfold cropBox
  split
  · exact Transform.lawful_failed _
  · exact Primitive.run_lawful _

theorem cropBox_paints (crop : Box) : Transform.Paints (software.cropBox crop) := by
  unfold cropBox
  split
  · exact fun _ => .failed _
  · exact Primitive.run_paints _

theorem cropUniformly_lawful (crop : Box) : Transform.Lawful (software.cropUniformly crop) where
  metadata input output := by
    unfold cropUniformly
    split
    · rfl
    · rfl
  room input output := by
    unfold cropUniformly
    split
    · rfl
    · next region taken =>
      exact Frame.room_withParts (Frame.expandedPlanes_of_topLeft taken)
        ((cropBox_lawful crop).room input region)
  stamps input output time := by
    unfold cropUniformly
    rw [Frame.topLeft_stamped]
    show (match (output.topLeft (uniformFit crop.size output.size)).map (·.stamped time) with
      | .error e => Outcome.failed e (output.stamped time)
      | .ok region => (software.cropBox crop input region : Outcome).inRegionOf
          (output.stamped time)) = _
    cases output.topLeft (uniformFit crop.size output.size) with
    | error e => rfl
    | ok region =>
      show Outcome.inRegionOf (output.stamped time)
        (software.cropBox crop input (region.stamped time)) = _
      rw [(cropBox_lawful crop).stamps]
      rfl

/-- Every operation is lawful. -/
theorem perform_lawful (op : Operation) : Transform.Lawful (software.perform op) := by
  cases op with
  | cropResize crop size => exact cropBox_lawful crop
  | convert format => exact Primitive.run_lawful .convert
  | orient orientation => exact orient_lawful
  | uniformCropResize crop size => exact cropUniformly_lawful crop

/-- Every operation but a proportional crop paints its whole output. -/
theorem perform_paints (op : Operation)
    (whole : ∀ crop size, op ≠ .uniformCropResize crop size) :
    Transform.Paints (software.perform op) := by
  cases op with
  | cropResize crop size => exact cropBox_paints crop
  | convert format => exact Primitive.run_paints .convert
  | orient orientation => exact orient_paints
  | uniformCropResize crop size => exact absurd rfl (whole crop size)

theorem perform_overwrites (op : Operation)
    (whole : ∀ crop size, op ≠ .uniformCropResize crop size) :
    Transform.Overwrites (software.perform op) := (perform_paints op whole).overwrites

end Engine

end Raster
