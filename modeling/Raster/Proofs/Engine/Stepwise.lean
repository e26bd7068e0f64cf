import Raster.Proofs.Engine.Transform

/-!
# Chains in shared scratch memory

A chain keeps its intermediate frames in two arenas that it reads and writes in turn. An
arena holds what an earlier step left in it and may be longer than its frame. Neither can be
observed: the outcome is the same as with a new zeroed frame for each step.

* `Engine.stepwise` — a chain run one operation at a time, into frames of their own.
* `Metadata.StaysInside` — a chain no tap of which leaves the region that its step scales.

A proportional crop leaves a part of its output as it was. So it has to be the last step, or
write into an arena that is still empty, which both arenas are once. And a tap that leaves the
frame of a step may find there what the arena held before.

Results: `Engine.perform_scratch` and `Engine.ofBuffer_written` (one step into an arena, and
what the next one reads there), `Engine.steps_eq_stepwise` (all steps),
`Engine.execute_eq_stepwise` (a whole chain) and `Metadata.staysInside_of_short` (no tap leaves
frames of up to `2 ^ 24 + 1` pixels a side).
-/

namespace Raster

/-! ## Chains whose taps stay inside -/

/-- No tap of a step leaves the region that the step scales. -/
def Metadata.StaysInside (m : Metadata) : List Operation → Prop
  | [] => True
  | op :: rest => op.StaysInside m (op.outputMetadata m) ∧ (op.outputMetadata m).StaysInside rest

/-- No tap leaves a frame of up to `2 ^ 24 + 1` pixels a side. The last frame is not read. -/
theorem Metadata.staysInside_of_short {m : Metadata} {operations : List Operation}
    (short : ∀ k < operations.length, (m.after (operations.take k)).size.width ≤ 2 ^ 24 + 1 ∧
      (m.after (operations.take k)).size.height ≤ 2 ^ 24 + 1) : m.StaysInside operations := by
  induction operations generalizing m with
  | nil => trivial
  | cons op rest ih =>
    obtain ⟨width, height⟩ := short 0 (Nat.zero_lt_succ _)
    exact ⟨op.staysInside_of_short width height _,
      ih fun k inner => short (k + 1) (Nat.succ_lt_succ inner)⟩

namespace Engine

/-- A chain run one operation at a time. Every result but the last goes into a zeroed frame
of its own, of the metadata that the chain yields up to there. -/
def stepwise {m : Type → Type} [Monad m] (e : Engine m) :
    List Operation → (yielded : Metadata) → (input output : Frame) → m Outcome
  | [], _, _, output => pure ⟨.ok (), output⟩
  | [op], _, input, output => e.perform op input output
  | op :: rest, yielded, input, output =>
    let target := op.outputMetadata yielded
    match Frame.zeroed target with
    | .error e => pure (.failed e output)
    | .ok fresh => do
      let r ← e.perform op input fresh
      match r.status with
      | .error e => return .failed e output
      | .ok () => stepwise e rest target r.frame output

/-! ## One step -/

theorem size_grown (arena : Bytes) (size : Nat) : size ≤ (grown arena size).size := by
  rw [grown, Array.size_append, Array.size_replicate]
  omega

theorem size_extract_grown (arena : Bytes) (size : Nat) :
    ((grown arena size).extract 0 size).size = size := by
  have := size_grown arena size
  rw [Array.size_extract]
  omega

/-- An empty arena is grown by zeros only. -/
theorem extract_grown_empty (size : Nat) :
    (grown #[] size).extract 0 size = .replicate size 0 := by
  have exact_size : (Array.replicate size (0 : UInt8)).size = size := Array.size_replicate
  rw [grown, Array.empty_append]
  show (Array.replicate size 0).extract 0 size = _
  rw [Array.extract_eq_self_of_le (by omega)]

variable {op : Operation} {source source' : Frame} {spare : Bytes} {m : Metadata}

/-- The first bytes of an arena give a frame exactly where zeros do. -/
theorem ofBuffer_grown (spare : Bytes) (m : Metadata) :
    (∃ e, Frame.ofBuffer ((grown spare (byteSize m.size m.format)).extract 0
        (byteSize m.size m.format)) m = .error e ∧ Frame.zeroed m = .error e) ∨
      ∃ scratch fresh, Frame.ofBuffer ((grown spare (byteSize m.size m.format)).extract 0
        (byteSize m.size m.format)) m = .ok scratch ∧ Frame.zeroed m = .ok fresh := by
  have long := Nat.le_of_eq (size_extract_grown spare (byteSize m.size m.format)).symm
  have zeros : byteSize m.size m.format ≤
      (Array.replicate (byteSize m.size m.format) (0 : UInt8)).size :=
    Nat.le_of_eq Array.size_replicate.symm
  cases hs : Frame.ofBuffer ((grown spare (byteSize m.size m.format)).extract 0
      (byteSize m.size m.format)) m with
  | error e => exact .inl ⟨e, rfl, Frame.ofBuffer_error long zeros hs⟩
  | ok scratch =>
    cases hz : Frame.zeroed m with
    | error e =>
      rw [Frame.ofBuffer_error zeros long hz] at hs
      cases hs
    | ok fresh => exact .inr ⟨scratch, fresh, rfl, rfl⟩

/-- What an operation makes of a frame over an arena is what it makes of a zeroed frame, if
it overwrites its output or the arena was empty. -/
theorem perform_scratch {scratch fresh : Frame} (alike : source.Alike source')
    (inside : op.StaysInside source.metadata m)
    (unread : spare = #[] ∨ ∀ crop size, op ≠ .uniformCropResize crop size)
    (hscratch : Frame.ofBuffer ((grown spare (byteSize m.size m.format)).extract 0
      (byteSize m.size m.format)) m = .ok scratch)
    (hfresh : Frame.zeroed m = .ok fresh) (timestamp : Option Nat) :
    let r : Outcome := software.perform op source (scratch.stamped timestamp)
    let r' : Outcome := software.perform op source' fresh
    r.status = r'.status ∧ (r.status = .ok () → r.frame.Alike r'.frame) := by
  have lawful := perform_lawful op
  dsimp only
  rw [lawful.stamps, perform_reads op alike scratch (Frame.metadata_ofBuffer hscratch ▸ inside)]
  rcases unread with rfl | whole
  · rw [extract_grown_empty] at hscratch
    have same : scratch = fresh := Except.ok.inj (hscratch.symm.trans hfresh)
    rw [same]
    exact ⟨rfl, fun _ => .stamped_left (.refl _) timestamp⟩
  · have metadata := Frame.metadata_ofBuffer hscratch
    have metadata' := Frame.metadata_ofBuffer hfresh
    obtain ⟨status, frames⟩ := perform_overwrites op whole source' (Frame.sound_ofBuffer hscratch)
      (Frame.sound_ofBuffer hfresh) (metadata.trans metadata'.symm)
    exact ⟨status, fun h => .stamped_left (frames h) timestamp⟩

/-- The arena that an operation has written shows what the operation made, whatever comes
after its frame. -/
theorem ofBuffer_written {bytes : Bytes} {scratch : Frame} (h : Frame.ofBuffer bytes m = .ok scratch)
    (op : Operation) (source : Frame) (timestamp : Option Nat) (tail : Bytes) :
    let r : Outcome := software.perform op source (scratch.stamped timestamp)
    ∃ next, Frame.ofBuffer (r.frame.memory ++ tail) m = .ok next ∧ next.Alike r.frame := by
  have lawful := perform_lawful op
  have hm := Frame.metadata_ofBuffer h
  intro r
  have metadata : r.frame.metadata = m := (lawful.metadata _ _).trans hm
  have again := Frame.ofBuffer_memory h metadata (lawful.room _ _)
  obtain ⟨next, p, q, hnext, hp, hq, agree⟩ := Frame.picture_ofBuffer_append again tail
  have metadata' := Frame.metadata_ofBuffer hnext
  refine ⟨next, hnext, metadata'.trans metadata.symm, ?_⟩
  have shown : r.frame.picture = .ok p := hp
  rw [hq, shown]
  exact .ok agree

/-! ## All steps -/

/-- A proportional crop is the last step, or the first that writes into its arena. -/
def Undisturbed (operations : List Operation) (held spare : Bytes) : Prop :=
  ∀ i crop size, operations[i]? = some (.uniformCropResize crop size) →
    i + 1 = operations.length ∨ (i = 0 ∧ spare = #[]) ∨ (i = 1 ∧ held = #[])

theorem Undisturbed.head {next : Operation} {rest : List Operation} {held : Bytes}
    (h : Undisturbed (op :: next :: rest) held spare) :
    spare = #[] ∨ ∀ crop size, op ≠ .uniformCropResize crop size := by
  by_cases empty : spare = #[]
  · exact .inl empty
  · refine .inr fun crop size same => ?_
    rcases h 0 crop size (by simp [same]) with last | ⟨-, now⟩ | ⟨one, -⟩
    · simp at last
    · exact empty now
    · cases one

/-- After a step the arenas have changed places. -/
theorem Undisturbed.tail {rest : List Operation} {held written : Bytes}
    (h : Undisturbed (op :: rest) held spare) : Undisturbed rest written held := by
  intro i crop size found
  rcases h (i + 1) crop size (by simpa using found) with last | ⟨zero, -⟩ | ⟨one, empty⟩
  · exact .inl (by simpa using last)
  · cases zero
  · exact .inr (.inl ⟨by omega, empty⟩)

/-- Steps through shared arenas have the outcome of steps into frames of their own. -/
theorem steps_eq_stepwise (timestamp : Option Nat) (output : Frame) (operations : List Operation)
    {source source' : Frame} {held spare : Bytes} (alike : source.Alike source')
    (undisturbed : Undisturbed operations held spare)
    (yields : source.metadata.after operations = output.metadata)
    (inside : source.metadata.StaysInside operations) :
    (software.steps timestamp output operations source held spare : Outcome) =
      software.stepwise operations source.metadata source' output := by
  induction operations generalizing source source' held spare with
  | nil => rfl
  | cons op rest ih =>
    cases rest with
    | nil => exact perform_reads op alike output (yields ▸ inside.1)
    | cons next others =>
      unfold steps stepwise
      dsimp only
      obtain ⟨here, later⟩ := inside
      have yields : (op.outputMetadata source.metadata).after (next :: others) = output.metadata :=
        yields
      generalize htarget : op.outputMetadata source.metadata = target at here later yields ⊢
      rcases ofBuffer_grown spare target with ⟨e, hs, hz⟩ | ⟨scratch, fresh, hs, hz⟩
      · rw [hs, hz]
      · rw [hs, hz]
        obtain ⟨status, frames⟩ := perform_scratch alike here undisturbed.head hs hz timestamp
        obtain ⟨following, hnext, shows⟩ := ofBuffer_written hs op source timestamp
          ((grown spare (byteSize target.size target.format)).extract
            (byteSize target.size target.format)
            (grown spare (byteSize target.size target.format)).size)
        have metadata := Frame.metadata_ofBuffer hnext
        simp only [bind, pure]
        rw [← status]
        cases done : (software.perform op source (scratch.stamped timestamp) : Outcome).status with
        | error e => rfl
        | ok u =>
          dsimp only
          rw [hnext]
          have rest_alike : (following.stamped timestamp).Alike
              (software.perform op source' fresh : Outcome).frame :=
            .stamped_left (shows.trans (frames done)) timestamp
          rw [← metadata] at later yields ⊢
          exact ih rest_alike undisturbed.tail yields later

/-! ## A whole chain -/

/-- A chain that makes the metadata of the output is its steps, for any engine. They begin with
empty arenas. -/
theorem execute_eq_steps {n : Type → Type} [Monad n] (e : Engine n) {operations : List Operation}
    {input output : Frame} (nonempty : operations ≠ [])
    (yields : input.metadata.after operations = output.metadata) :
    e.execute operations input output = e.steps input.timestamp output operations input #[] #[] := by
  unfold execute
  dsimp only
  rw [if_neg (by simpa using nonempty), if_neg (by simpa using yields)]

/-- A chain whose metadata comes out as that of the output has the outcome of its operations
run one at a time, as long as no tap leaves the region that it scales. Any other chain is refused,
and the output stays as it was. -/
theorem execute_eq_stepwise {operations : List Operation} (input output : Frame)
    (nonempty : operations ≠ [])
    (uniform : ∀ i crop size, operations[i]? = some (.uniformCropResize crop size) →
      i ≤ 1 ∨ i + 1 = operations.length) :
    (input.metadata.after operations = output.metadata → input.metadata.StaysInside operations →
      (software.execute operations input output : Outcome) =
        software.stepwise operations input.metadata input output) ∧
    (input.metadata.after operations ≠ output.metadata →
      (software.execute operations input output : Outcome) =
        ⟨.error (.metadataMismatch (.chain (input.metadata.after operations) output.metadata)),
          output⟩) := by
  have some_operation : ¬operations.isEmpty = true := by simpa using nonempty
  unfold execute
  dsimp only
  rw [if_neg some_operation]
  constructor
  · intro yields inside
    rw [if_neg (by simpa using yields)]
    refine steps_eq_stepwise _ output operations (.refl input) ?_ yields inside
    -- both arenas are empty at first
    intro i crop size found
    rcases uniform i crop size found with early | last
    · by_cases zero : i = 0
      · exact .inr (.inl ⟨zero, rfl⟩)
      · exact .inr (.inr ⟨by omega, rfl⟩)
    · exact .inl last
  · intro differs
    rw [if_pos differs]
    rfl

/-- The third step writes into an arena that the first one has left longer than needed. -/
theorem execute_eq_stepwise_dot :
    let chain : List Operation :=
      [.uniformCropResize ⟨0, 0, 1, 1⟩ ⟨1, 1⟩, .convert .gray, .orient .topRight, .orient .topLeft]
    let outcome : Outcome := software.execute chain (.rgbDot 10 20 30) (.grayDot 7)
    outcome = software.stepwise chain (Frame.rgbDot 10 20 30).metadata (.rgbDot 10 20 30)
      (.grayDot 7) ∧ outcome.frame.memory = #[18] := by
  intro chain outcome
  have inside : (Frame.rgbDot 10 20 30).metadata.StaysInside chain :=
    Metadata.staysInside_of_short (by decide)
  refine ⟨(execute_eq_stepwise _ _ (by simp [chain]) ?_).1 (by decide) inside, by decide +kernel⟩
  intro i crop size found
  obtain ⟨inside, here⟩ := List.getElem?_eq_some_iff.1 found
  by_cases third : i = 2
  · subst third
    cases here
  · have short : i < 4 := inside
    show i ≤ 1 ∨ i + 1 = 4
    omega

end Engine

end Raster
