import Raster.Proofs.Engine.Fit
import Raster.Proofs.Engine.Points
import Raster.Proofs.Engine.Stepwise

/-!
# The calls of a chain

Whatever an engine answers, a chain goes through its points in their order, ends at the first
failure with its error, and shows the engine the output at the last point only. The engine may be
of any kind, as long as it writes into the memory of the frame that it is given.

* `Exchange.Keeps` — the engine has written into that memory.
* `Engine.between` — the change of orientation from a frame to another.

Results: `Engine.perform_runs`, `Engine.steps_runs` (operations and chains run through their
points), `Engine.steps_agree` (before the last point the output makes no difference) and
`Engine.execute_calls` (both, for the chains of every engine).
-/

namespace Raster

/-- The engine has written into the memory of the frame that it was given. -/
def Exchange.Keeps (x : Exchange) : Prop :=
  x.answer.frame.planes.map Plane.room = x.call.output.planes.map Plane.room

/-! ## One operation -/

namespace Engine

variable {op : Operation} {source target : Frame} {log : List Exchange} {r : Outcome}

/-- The change from the orientation of a frame to that of another. -/
abbrev between (source target : Frame) : Reorientation :=
  .between source.orientation target.orientation

variable {m : Type → Type} [Monad m] {p q : Primitive}

theorem orient_of_single {e : Engine m} (single : (between source target).primitives = [p]) :
    e.orient source target = e.call p source target := by
  unfold orient
  unfold between at single
  generalize Reorientation.between source.orientation target.orientation = change at single ⊢
  obtain ⟨rotation, flip⟩ := change
  cases flip <;> cases rotation <;> cases single <;> rfl

theorem orient_of_pair {e : Engine m} (pair : (between source target).primitives = [p, q]) :
    e.orient source target =
      (match Frame.zeroed (source.metadata.rotated (between source target)) with
      | .error e => pure (.failed e target)
      | .ok scratch => do
        let turned ← e.call p source (scratch.stamped source.timestamp)
        match turned.status with
        | .error e => return .failed e target
        | .ok () => e.call q turned.frame target) := by
  unfold orient
  unfold between at pair ⊢
  generalize Reorientation.between source.orientation target.orientation = change at pair ⊢
  obtain ⟨rotation, flip⟩ := change
  cases flip <;> cases rotation <;> cases pair <;> rfl

theorem points_orient_of_single (single : (between source target).primitives = [p]) :
    Operation.points (.orient target.orientation) source.metadata = [.ok p] :=
  Operation.points_of_single single

theorem points_orient_of_pair (pair : (between source target).primitives = [p, q]) :
    Operation.points (.orient target.orientation) source.metadata =
      guarded (Frame.zeroed (source.metadata.rotated (between source target))) [.ok p, .ok q] :=
  Operation.points_of_pair pair

/-- A call at the only point of an operation. -/
theorem runs_of_call {p : Primitive} {part : Frame} (placed : op.place target = .ok part)
    (answer : Outcome) : Runs [op] [.ok p] target [⟨⟨p, source, part⟩, answer⟩]
      ⟨answer.status, op.putBack target answer.frame⟩ :=
  .call .done placed ⟨⟨p, source, part⟩, answer⟩ rfl

theorem leads_cropBox {crop : Box} (h : (asking.cropBox crop source target).Leads log r) :
    (∃ e, crop.toCrop = .error e ∧ log = [] ∧ r = .failed e target) ∨
      ∃ p, crop.toCrop = .ok p ∧ log = [⟨⟨p, source, target⟩, r⟩] := by
  unfold cropBox at h
  split at h
  · next e refused =>
    obtain ⟨rfl, rfl⟩ := Script.leads_done.1 h
    exact .inl ⟨e, refused, rfl, rfl⟩
  · next p accepted => exact .inr ⟨p, accepted, Script.leads_call.1 h⟩

theorem cropBox_runs {crop : Box} {size : Size}
    (h : (asking.cropBox crop source target).Leads log r) :
    Runs [.cropResize crop size] [crop.toCrop] target log r := by
  rcases leads_cropBox h with ⟨e, refused, rfl, rfl⟩ | ⟨p, accepted, rfl⟩
  · rw [refused]
    exact .refused _ e [] target
  · rw [accepted]
    exact runs_of_call rfl r

theorem cropUniformly_runs {crop : Box} {size : Size}
    (h : (asking.cropUniformly crop source target).Leads log r) :
    Runs [.uniformCropResize crop size]
      (guarded (target.topLeft (uniformFit crop.size target.size)) [crop.toCrop]) target log r := by
  unfold cropUniformly at h
  split at h
  · next e refused =>
    obtain ⟨rfl, rfl⟩ := Script.leads_done.1 h
    rw [refused]
    exact .refused _ e [] target
  · next part placed =>
    obtain ⟨first, rest, answer, rfl, cropped, put⟩ := Script.leads_bind.1 h
    obtain ⟨rfl, rfl⟩ := Script.leads_done.1 put
    rw [guarded_ok placed, List.append_nil]
    rcases leads_cropBox cropped with ⟨e, refused, rfl, rfl⟩ | ⟨p, accepted, rfl⟩
    · have kept : (Outcome.failed e part).inRegionOf target = .failed e target :=
        congrArg (Outcome.mk _) (Frame.withRegion_topLeft placed)
      rw [refused, kept]
      exact .refused _ e [] target
    · have place : (Operation.uniformCropResize crop size).place target = .ok part := placed
      rw [accepted]
      exact runs_of_call place answer

theorem orient_runs {orientation : Orientation} (same : target.orientation = orientation)
    (h : (asking.orient source target).Leads log r) :
    Runs [.orient orientation] (Operation.points (.orient orientation) source.metadata) target log
      r := by
  subst same
  rcases (between source target).primitives_cases with ⟨p, single⟩ | ⟨p, q, pair⟩
  · rw [orient_of_single single] at h
    obtain rfl := Script.leads_call.1 h
    have place : (Operation.orient target.orientation).place target = .ok target := rfl
    rw [points_orient_of_single single]
    exact runs_of_call place r
  · rw [orient_of_pair pair] at h
    rw [points_orient_of_pair pair]
    split at h
    · next e refused =>
      obtain ⟨rfl, rfl⟩ := Script.leads_done.1 h
      rw [refused]
      exact .refused _ e _ target
    · next scratch made =>
      obtain ⟨first, rest, turned, rfl, turn, later⟩ := Script.leads_bind.1 h
      obtain rfl := Script.leads_call.1 turn
      let rotation : Exchange := ⟨⟨p, source, scratch.stamped source.timestamp⟩, turned⟩
      rw [guarded_ok made]
      split at later
      · next e failed =>
        obtain ⟨rfl, rfl⟩ := Script.leads_done.1 later
        exact .failed (.failed rotation [] failed) _ (List.cons_ne_nil _ _) target
      · next done =>
        obtain rfl := Script.leads_call.1 later
        have place : (Operation.orient target.orientation).place target = .ok target := rfl
        exact .call (.next rotation done .done) place ⟨⟨q, turned.frame, target⟩, r⟩ rfl

/-- An operation runs through its points. -/
theorem perform_runs (same : target.orientation = op.outputOrientation source.metadata)
    (h : (asking.perform op source target).Leads log r) :
    Runs [op] (guarded (op.place target) (op.points source.metadata)) target log r := by
  cases op with
  | cropResize crop size => exact cropBox_runs h
  | convert format =>
    obtain rfl := Script.leads_call.1 h
    exact runs_of_call rfl r
  | orient orientation =>
    have place : (Operation.orient orientation).place target = .ok target := rfl
    rw [guarded_ok place]
    exact orient_runs same h
  | uniformCropResize crop size => exact cropUniformly_runs h

/-! ## Memory that is kept -/

/-- What an operation leaves is the frame it was given, if the engine keeps to its memory. -/
theorem room_of_runs {points : List Point} (h : Runs [op] points target log r)
    (keeps : ∀ x ∈ log, x.Keeps) :
    r.frame.planes.map Plane.room = target.planes.map Plane.room := by
  rcases Nat.lt_or_eq_of_le h.follows.length_le with short | all
  · rw [h.spared short]
  · obtain ⟨last, part, x, hlast, placed, called, given, rfl⟩ := h.last all
    obtain rfl : op = last := Option.some.inj hlast
    have kept := keeps x (List.mem_of_getLast? called)
    rw [Exchange.Keeps, given] at kept
    cases op with
    | uniformCropResize crop size =>
      exact Frame.room_withParts (Frame.expandedPlanes_of_topLeft placed) kept
    | cropResize crop size | convert format | orient orientation =>
      obtain rfl := Except.ok.inj placed
      exact kept

/-! ## All steps -/

section

variable {metadata : Metadata}

/-- A frame over an arena has a place for each operation. -/
theorem place_of_canonical {bytes : Bytes} (canonical : Frame.ofBuffer bytes metadata = .ok target)
    (op : Operation) (timestamp : Option Nat) :
    ∃ part, op.place (target.stamped timestamp) = .ok part := by
  cases op with
  | uniformCropResize crop size =>
    have separate : (target.stamped timestamp).isContiguousYuv = false :=
      show target.isContiguousYuv = false from Frame.isContiguousYuv_ofBuffer canonical
    have nonempty : target.metadata.size.isEmpty = false := by
      rw [Frame.metadata_ofBuffer canonical]
      exact (Frame.ofBuffer_eq_ok.1 canonical).1
    obtain ⟨part, placed, -⟩ := Frame.topLeft_eq_ok (Frame.expandedPlanes_of_separate separate)
      (uniformFit_fitsInto crop.size nonempty)
    exact ⟨part, placed⟩
  | cropResize crop size | convert format | orient orientation => exact ⟨_, rfl⟩

theorem metadata_of_canonical {bytes : Bytes}
    (canonical : Frame.ofBuffer bytes metadata = .ok target) (timestamp : Option Nat) :
    (target.stamped timestamp).metadata = metadata :=
  (target.metadata_stamped timestamp).trans (Frame.metadata_ofBuffer canonical)

/-- What was written into a frame over an arena gives the next frame, whatever comes after it. -/
theorem ofBuffer_of_room {bytes tail : Bytes} {written : Frame}
    (canonical : Frame.ofBuffer bytes metadata = .ok target)
    (room : written.planes.map Plane.room = target.planes.map Plane.room) :
    ∃ next, Frame.ofBuffer (written.memory ++ tail) metadata = .ok next := by
  have size : written.memory.size = bytes.size := by
    rw [← Frame.memory_ofBuffer canonical]
    exact size_join_of_sizes (Plane.sizes_of_room room)
  obtain ⟨nonempty, long, -⟩ := Frame.ofBuffer_eq_ok.1 canonical
  refine Frame.ofBuffer_ok nonempty (Frame.known_of_ofBuffer canonical) ?_
  rw [Array.size_append]
  omega

end

/-- An operation into a frame over an arena runs through the points of the operation. -/
theorem scratch_runs {bytes : Bytes} {timestamp : Option Nat}
    (canonical : Frame.ofBuffer bytes (op.outputMetadata source.metadata) = .ok target)
    (h : (asking.perform op source (target.stamped timestamp)).Leads log r) :
    Runs [op] (op.points source.metadata) (target.stamped timestamp) log r := by
  have same : (target.stamped timestamp).orientation = op.outputOrientation source.metadata :=
    congrArg Metadata.orientation (metadata_of_canonical canonical timestamp)
  obtain ⟨part, placed⟩ := place_of_canonical canonical op timestamp
  have runs := perform_runs same h
  rwa [guarded_ok placed] at runs

/-- The steps of a chain run through its points. -/
theorem steps_runs {timestamp : Option Nat} {output : Frame} {operations : List Operation}
    {held spare : Bytes} (nonempty : operations ≠ [])
    (yields : source.metadata.after operations = output.metadata)
    (h : (asking.steps timestamp output operations source held spare).Leads log r)
    (keeps : ∀ x ∈ log, x.Keeps) :
    Runs operations (source.metadata.points output operations) output log r := by
  induction operations generalizing source held spare log with
  | nil => exact absurd rfl nonempty
  | cons op rest ih =>
    cases rest with
    | nil => exact perform_runs (congrArg Metadata.orientation yields.symm) h
    | cons next rest =>
      unfold steps at h
      dsimp only at h
      show Runs _ (guarded (Frame.zeroed (op.outputMetadata source.metadata)) _ ++ _) _ _ _
      have more := Metadata.points_ne_nil (op.outputMetadata source.metadata) output (next :: rest)
      rcases ofBuffer_grown spare (op.outputMetadata source.metadata) with
        ⟨e, refused, never⟩ | ⟨scratch, fresh, made, ever⟩
      · rw [refused] at h
        obtain ⟨rfl, rfl⟩ := Script.leads_done.1 h
        obtain ⟨tail, points⟩ := guarded_error never (op.points_ne_nil source.metadata)
        rw [points]
        exact .refused _ e _ output
      · rw [made] at h
        rw [guarded_ok ever]
        obtain ⟨first, later, r', rfl, performed, goes⟩ := Script.leads_bind.1 h
        have step := scratch_runs made performed
        cases status : r'.status with
        | error e =>
          have failed := status ▸ step.follows
          rw [status] at goes
          obtain ⟨rfl, rfl⟩ := Script.leads_done.1 goes
          rw [List.append_nil]
          exact .failed failed _ more output
        | ok =>
          have succeeded := status ▸ step.follows
          have room := room_of_runs step fun x member => keeps x (List.mem_append_left _ member)
          rw [status] at goes
          obtain ⟨written, hwritten⟩ := ofBuffer_of_room made room
          rw [hwritten] at goes
          have metadata := metadata_of_canonical hwritten timestamp
          have rest_yields : (written.stamped timestamp).metadata.after (next :: rest) =
            output.metadata := metadata ▸ yields
          have rest_runs := ih (List.cons_ne_nil _ _) rest_yields goes fun x member =>
            keeps x (List.mem_append_right _ member)
          rw [metadata] at rest_runs
          exact .after succeeded rest_runs op

/-! ## Outputs that are not seen -/

theorem orient_agree {other : Frame} (same : other.orientation = target.orientation) :
    Script.AgreeFor ((Operation.points (.orient target.orientation) source.metadata).length - 1)
      (asking.orient source target) (asking.orient source other) := by
  have change : between source other = between source target := by
    unfold between
    rw [same]
  rcases (between source target).primitives_cases with ⟨p, single⟩ | ⟨p, q, pair⟩
  · rw [points_orient_of_single single]
    exact .zero _ _
  · rw [points_orient_of_pair pair, length_guarded, orient_of_pair pair,
      orient_of_pair (change ▸ pair), change]
    cases Frame.zeroed (source.metadata.rotated (between source target)) with
    | error e => exact .done _ _ _
    | ok scratch =>
      -- both rotate into the same frame
      refine .bind fun log turned rotates => ?_
      obtain rfl := Script.leads_call.1 rotates
      exact .zero _ _

/-- An operation makes all calls but the last without its output. -/
theorem perform_agree {other : Frame} (same : other.metadata = target.metadata)
    (yields : op.outputMetadata source.metadata = target.metadata) :
    Script.AgreeFor ((op.points source.metadata).length - 1) (asking.perform op source target)
      (asking.perform op source other) := by
  cases op with
  | cropResize crop size => exact .zero _ _
  | convert format => exact .zero _ _
  | uniformCropResize crop size => exact .zero _ _
  | orient orientation =>
    obtain rfl : orientation = target.orientation := congrArg Metadata.orientation yields
    exact orient_agree (congrArg Metadata.orientation same)

/-- A chain makes all calls but the last without its output. -/
theorem steps_agree {timestamp : Option Nat} {output other : Frame} {operations : List Operation}
    {held spare : Bytes} (same : other.metadata = output.metadata)
    (yields : source.metadata.after operations = output.metadata) :
    Script.AgreeFor ((source.metadata.points output operations).length - 1)
      (asking.steps timestamp output operations source held spare)
      (asking.steps timestamp other operations source held spare) := by
  induction operations generalizing source held spare with
  | nil => exact .zero _ _
  | cons op rest ih =>
    cases rest with
    | nil =>
      show Script.AgreeFor ((guarded _ _).length - 1) _ _
      rw [length_guarded]
      exact perform_agree same yields
    | cons next rest =>
      unfold steps
      dsimp only
      rcases ofBuffer_grown spare (op.outputMetadata source.metadata) with
        ⟨e, refused, never⟩ | ⟨scratch, fresh, made, ever⟩
      · rw [refused]
        exact .done _ _ _
      · rw [made]
        refine .bind fun log r performed => ?_
        have step := scratch_runs made performed
        cases status : r.status with
        | error e => exact .done _ _ _
        | ok =>
          have count := (status ▸ step.follows).length_of_ok
          dsimp only
          split
          · exact .done _ _ _
          · next written hwritten =>
            have metadata := metadata_of_canonical hwritten timestamp
            have rest_yields : (written.stamped timestamp).metadata.after (next :: rest) =
              output.metadata := metadata ▸ yields
            have left : (source.metadata.points output (op :: next :: rest)).length - 1 - log.length =
                ((written.stamped timestamp).metadata.points output (next :: rest)).length - 1 := by
              show (guarded _ _ ++ (op.outputMetadata source.metadata).points output _).length - 1 -
                _ = _
              rw [List.length_append, length_guarded, metadata]
              omega
            rw [left]
            exact ih rest_yields

/-! ## Chains -/

/-- What any engine does in a chain is to answer the calls of one run. A run goes through the points
of the chain, in their order and up to the first failure, whose error is the status. Before the last
point the output is as it was, and the call at the last point is given the place in the output that
the last operation writes. All calls before it are the same for every output of this metadata. -/
theorem execute_calls {m : Type → Type} [Monad m] [LawfulMonad m] (e : Engine m)
    (operations : List Operation) {input output : Frame}
    (yields : input.metadata.after operations = output.metadata) :
    let chain : Script Outcome := asking.execute operations input output
    let points := input.metadata.points output operations
    e.execute operations input output = chain.serve e ∧
      (∀ log r, chain.Leads log r → (∀ x ∈ log, x.Keeps) → Runs operations points output log r) ∧
      ∀ other : Frame, other.metadata = output.metadata →
        chain.AgreeFor (points.length - 1) (asking.execute operations input other) := by
  cases operations with
  | nil =>
    refine ⟨execute_eq_serve e input output [], fun log r h _ => ?_, fun other _ => .zero _ _⟩
    obtain ⟨rfl, rfl⟩ := Script.leads_done.1 h
    exact .refused _ _ [] output
  | cons op rest =>
    have nonempty : op :: rest ≠ [] := List.cons_ne_nil op rest
    have steps (other : Frame) (same : other.metadata = output.metadata) :=
      execute_eq_steps asking nonempty (yields.trans same.symm)
    refine ⟨execute_eq_serve e input output _, fun log r h keeps => ?_, fun other same => ?_⟩
    · rw [steps output rfl] at h
      exact steps_runs nonempty yields h keeps
    · rw [steps output rfl, steps other same]
      exact steps_agree same yields

/-- Three steps that take four calls: the last one turns with a flip. -/
def cropGrayTurn : List Operation :=
  [.uniformCropResize ⟨0, 0, 1, 1⟩ ⟨1, 1⟩, .convert .gray, .orient .leftTop]

/-- Whatever comes of the first three calls, the output is not touched. -/
theorem execute_calls_dot : ∃ output, Frame.zeroed ⟨⟨1, 1⟩, .leftTop, .gray⟩ = .ok output ∧
    (Frame.rgbDot 10 20 30).metadata.points output cropGrayTurn =
      [.ok (.move (.crop 0 0 0 0)), .ok .convert, .ok (.move (.rotate 90)),
        .ok (.move (.flip .vertical))] ∧
    ∀ log r, (asking.execute cropGrayTurn (.rgbDot 10 20 30) output).Leads log r →
      (∀ x ∈ log, x.Keeps) → log.length < 4 → r.frame = output := by
  obtain ⟨output, made⟩ := Frame.zeroed_ok (m := ⟨⟨1, 1⟩, .leftTop, .gray⟩) rfl nofun
  have yields : (Frame.rgbDot 10 20 30).metadata.after cropGrayTurn = output.metadata := by
    rw [Frame.metadata_ofBuffer made]
    rfl
  obtain ⟨-, runs, -⟩ := execute_calls software cropGrayTurn yields
  exact ⟨output, made, rfl, fun log r h keeps short => (runs log r h keeps).spared short⟩

end Engine

end Raster
