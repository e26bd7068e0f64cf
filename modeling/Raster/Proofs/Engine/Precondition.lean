import Raster.Engine.Stroke

/-!
# What preconditions ask for

The precondition of a primitive looks at the metadata of both frames and at nothing
else. `Primitive.Accepts` says in one place what it asks for.

* `Raises` — a step whose errors are all of a kind.

Results: `Primitive.check_eq_ok` (a check passes exactly where the request is accepted),
`Primitive.check_congr` (frames of the same metadata pass or fail it with the same error) and
`Primitive.check_raises` (a check complains about arguments and formats only).
-/

namespace Raster

/-! ## Accepted requests -/

/-- The sizes that a move takes a frame from and to. -/
def Move.Suits (m : Move) (source target : Size) : Prop :=
  match m with
  | crop x0 y0 x1 y1 => x0 ≤ x1 ∧ x1 < source.width ∧ y0 ≤ y1 ∧ y1 < source.height
  | resize | resizeNearest => True
  | rotate degrees =>
    (degrees < 360 ∧ degrees % 90 = 0) ∧
      target = if degrees % 180 = 90 then source.swapped else source
  | flip _ => source = target

/-- The metadata between which a primitive has work to do. -/
def Primitive.Suits (p : Primitive) (source target : Metadata) : Prop :=
  match p with
  | move m => source.format.compatible target.format = true ∧ m.Suits source.size target.size
  | convert => source.format ≠ target.format ∧ source.size = target.size

/-- What the precondition of a primitive asks for. -/
structure Primitive.Accepts (p : Primitive) (source target : Metadata) : Prop where
  source_nonempty : source.size.isEmpty = false
  target_nonempty : target.size.isEmpty = false
  suits : p.Suits source target

/-! ## Checks -/

variable {input output input' output' : Frame}

theorem checkNotEmpty_eq_ok {size : Size} : checkNotEmpty size = .ok () ↔ size.isEmpty = false := by
  rw [checkNotEmpty, ite_error_eq_ok, and_iff_left rfl, Bool.not_eq_true]

theorem ite_eq_ok {c : Prop} [Decidable c] {e : Error} :
    (if c then Except.ok () else .error e) = .ok () ↔ c := by
  rw [ite_ok_eq_ok, and_iff_left rfl]

/-- Planes and formats of a frame need no check, since every frame passes it. -/
theorem checkFrames_eq (input output : Frame) : checkFrames input output =
    (checkNotEmpty input.size >>= fun _ => checkNotEmpty output.size) := by
  unfold checkFrames
  rw [checkPlanes_frame, checkFormat_frame, checkFormat_frame]
  rfl

theorem checkFrames_eq_ok : checkFrames input output = .ok () ↔
    input.size.isEmpty = false ∧ output.size.isEmpty = false := by
  rw [checkFrames_eq, check_bind_eq_ok, checkNotEmpty_eq_ok, checkNotEmpty_eq_ok]

theorem checkCompatible_eq_ok : checkCompatible input output = .ok () ↔
    (input.size.isEmpty = false ∧ output.size.isEmpty = false) ∧
      input.format.compatible output.format = true := by
  unfold checkCompatible
  rw [check_bind_eq_ok, checkFrames_eq_ok, ite_eq_ok]

theorem checkConversion_eq_ok {source target : Format} (hs : source ≠ .unknown)
    (ht : target ≠ .unknown) : checkConversion source target = .ok () ↔ source ≠ target := by
  unfold checkConversion
  split
  · next same => simp [same]
  · next differ => simp [hs, ht, differ]

theorem checkConvert_eq_ok : checkConvert input output = .ok () ↔
    (input.size.isEmpty = false ∧ output.size.isEmpty = false) ∧
      input.format ≠ output.format ∧ input.size = output.size := by
  unfold checkConvert
  rw [check_bind_eq_ok, check_bind_eq_ok, checkFrames_eq_ok, ite_eq_ok,
    checkConversion_eq_ok input.format_ne_unknown output.format_ne_unknown]

theorem checkRotate_eq_ok {degrees : Nat} : checkRotate input output degrees = .ok () ↔
    checkCompatible input output = .ok () ∧ (Move.rotate degrees).Suits input.size output.size := by
  unfold checkRotate
  rw [check_bind_eq_ok]
  refine and_congr_right fun _ => ?_
  rw [ite_error_eq_ok, ite_eq_ok]
  exact and_congr_left fun _ => by omega

theorem Move.check_eq_ok {m : Move} : m.check input output = .ok () ↔
    checkCompatible input output = .ok () ∧ m.Suits input.size output.size := by
  cases m with
  | crop x0 y0 x1 y1 =>
    show checkCrop input output x0 y0 x1 y1 = .ok () ↔ _
    rw [checkCrop, check_bind_eq_ok, ite_eq_ok]
    rfl
  | resize => exact ⟨fun h => ⟨h, trivial⟩, fun h => h.1⟩
  | resizeNearest => exact ⟨fun h => ⟨h, trivial⟩, fun h => h.1⟩
  | rotate degrees => exact checkRotate_eq_ok
  | flip axis =>
    show checkFlip input output = .ok () ↔ _
    rw [checkFlip, check_bind_eq_ok, ite_eq_ok]
    rfl

namespace Primitive

variable {p : Primitive}

/-- A check passes exactly where the request is accepted. -/
theorem check_eq_ok : p.check input output = .ok () ↔ p.Accepts input.metadata output.metadata := by
  cases p with
  | move m =>
    show m.check input output = .ok () ↔ _
    rw [Move.check_eq_ok, checkCompatible_eq_ok]
    exact ⟨fun ⟨⟨⟨hi, ho⟩, hc⟩, hs⟩ => ⟨hi, ho, hc, hs⟩,
      fun ⟨hi, ho, hc, hs⟩ => ⟨⟨⟨hi, ho⟩, hc⟩, hs⟩⟩
  | convert =>
    show checkConvert input output = .ok () ↔ _
    rw [checkConvert_eq_ok]
    exact ⟨fun ⟨⟨hi, ho⟩, hs⟩ => ⟨hi, ho, hs⟩, fun ⟨hi, ho, hs⟩ => ⟨⟨hi, ho⟩, hs⟩⟩

theorem checkCompatible_congr (hi : input.metadata = input'.metadata)
    (ho : output.metadata = output'.metadata) :
    checkCompatible input output = checkCompatible input' output' := by
  obtain ⟨input_size, -, input_format⟩ := Metadata.mk.inj hi
  obtain ⟨output_size, -, output_format⟩ := Metadata.mk.inj ho
  simp only [checkCompatible, checkFrames_eq, input_size, input_format, output_size, output_format]

/-- Frames of the same metadata pass or fail a check alike. -/
theorem check_congr (hi : input.metadata = input'.metadata)
    (ho : output.metadata = output'.metadata) : p.check input output = p.check input' output' := by
  have compatible := checkCompatible_congr hi ho
  obtain ⟨input_size, -, input_format⟩ := Metadata.mk.inj hi
  obtain ⟨output_size, -, output_format⟩ := Metadata.mk.inj ho
  cases p with
  | move m =>
    cases m <;> simp only [check, Move.check, checkCrop, checkResize, checkRotate, checkFlip,
      compatible, input_size, output_size]
  | convert =>
    simp only [check, checkConvert, checkFrames_eq, input_size, input_format, output_size,
      output_format]

end Primitive

/-! ## Kinds of errors -/

/-- Every error of the step is of a kind. -/
def Raises {α : Type} (kind : Error → Prop) (step : Except Error α) : Prop :=
  ∀ e, step = .error e → kind e

namespace Raises

variable {α β : Type} {kind : Error → Prop} {step other : Except Error α}
  {next : α → Except Error β}

theorem ok (a : α) : Raises kind (.ok a : Except Error α) := by
  intro e h
  cases h

theorem error {e : Error} (h : kind e) : Raises kind (.error e : Except Error α) := by
  intro e' h'
  cases h'
  exact h

theorem bind (h : Raises kind step) (h' : ∀ a, Raises kind (next a)) :
    Raises kind (step >>= next) := by
  intro e he
  cases step with
  | error e' =>
    cases he
    exact h e rfl
  | ok a => exact h' a e he

theorem ite {c : Prop} [Decidable c] (h : c → Raises kind step) (h' : ¬c → Raises kind other) :
    Raises kind (if c then step else other) := by
  by_cases hc : c
  · rw [if_pos hc]
    exact h hc
  · rw [if_neg hc]
    exact h' hc

/-- A refusal that names its reason. -/
theorem refuse {c : Prop} [Decidable c] {e : Error} (he : kind e) (h : Raises kind step) :
    Raises kind (if c then .error e else step) :=
  ite (fun _ => error he) fun _ => h

/-- A condition that has to hold. -/
theorem require {c : Prop} [Decidable c] {e : Error} (he : kind e) (h : Raises kind step) :
    Raises kind (if c then step else .error e) :=
  ite (fun _ => h) fun _ => error he

end Raises

section

variable {kind : Error → Prop} (argument : ∀ fault, kind (.invalidArgument fault))
  (unsupported : ∀ fault, kind (.unsupported fault))

include argument

theorem checkFrames_raises : Raises kind (checkFrames input output) := by
  rw [checkFrames_eq]
  exact .bind (.refuse (argument _) (.ok _)) fun _ => .refuse (argument _) (.ok _)

theorem checkCompatible_raises : Raises kind (checkCompatible input output) :=
  .bind (checkFrames_raises argument) fun _ => .require (argument _) (.ok _)

theorem Move.check_raises (m : Move) : Raises kind (m.check input output) := by
  have compatible : Raises kind (checkCompatible input output) := checkCompatible_raises argument
  cases m with
  | crop x0 y0 x1 y1 => exact .bind compatible fun _ => .require (argument _) (.ok _)
  | resize => exact compatible
  | resizeNearest => exact compatible
  | rotate degrees =>
    exact .bind compatible fun _ => .refuse (argument _) (.require (argument _) (.ok _))
  | flip axis => exact .bind compatible fun _ => .require (argument _) (.ok _)

include unsupported

/-- A check complains about arguments and formats only. -/
theorem Primitive.check_raises (p : Primitive) : Raises kind (p.check input output) := by
  cases p with
  | move m => exact m.check_raises argument
  | convert =>
    exact .bind (checkFrames_raises argument) fun _ =>
      .bind (.refuse (argument _) (.refuse (unsupported _) (.ok _))) fun _ =>
        .require (argument _) (.ok _)

end

end Raster
