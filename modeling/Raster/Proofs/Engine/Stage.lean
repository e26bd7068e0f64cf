import Raster.Proofs.Engine.Fit
import Raster.Proofs.Engine.Stepwise
import Raster.Proofs.Frame.Gapless

/-!
# A chain between two steps

Between two steps a chain is determined by the frame that the next step reads and by its two
arenas. A step that is not the last takes one such stage to the next, so a chain may be cut
anywhere.

* `Stage` — the frame to read next and the arenas.
* `Stage.advance`, `Stage.after` — one step and several steps on.
* `Stage.finish` — the remaining steps, the last one into the output.

Results: `Engine.execute_eq_finish` (a whole chain), `Stage.finish_cons` and `Stage.finish_append`
(a chain is cut into steps), `Stage.advance_ok` (what a step leaves behind) and
`Stage.advance_congr` (two stages that an operation cannot tell apart).
-/

namespace Raster

/-- Where a chain stands: the next frame to read, the arena that holds it, and the arena that
the next step writes. -/
structure Stage where
  source : Frame
  held : Bytes
  spare : Bytes

namespace Stage

/-- The metadata that an operation makes of the frame to read next. -/
def target (s : Stage) (op : Operation) : Metadata := op.outputMetadata s.source.metadata

/-- The bytes of the spare arena that become the output of a step. -/
def scratch (s : Stage) (size : Nat) : Bytes := (Engine.grown s.spare size).extract 0 size

/-- The bytes of the spare arena after the output of a step. -/
def remainder (s : Stage) (size : Nat) : Bytes :=
  (Engine.grown s.spare size).extract size (Engine.grown s.spare size).size

/-- A step that is not the last. It writes the spare arena, which the next step reads. -/
def advance (timestamp : Option Nat) (s : Stage) (op : Operation) : Except Error Stage := do
  let size := byteSize (s.target op).size (s.target op).format
  let blank ← Frame.ofBuffer (s.scratch size) (s.target op)
  let r : Outcome := Engine.software.perform op s.source (blank.stamped timestamp)
  r.status
  let written := r.frame.memory ++ s.remainder size
  let next ← Frame.ofBuffer written (s.target op)
  return ⟨next.stamped timestamp, written, s.held⟩

/-- Both arenas are empty at first. -/
def start (input : Frame) : Stage := ⟨input, #[], #[]⟩

/-- Several steps, none of them the last. -/
def after (timestamp : Option Nat) (s : Stage) (operations : List Operation) :
    Except Error Stage :=
  operations.foldlM (advance timestamp) s

/-- The remaining steps of a chain, the last one into the output. -/
def finish (timestamp : Option Nat) (output : Frame) (s : Stage) (operations : List Operation) :
    Outcome :=
  Engine.software.steps timestamp output operations s.source s.held s.spare

/-! ## Cutting a chain -/

variable {timestamp : Option Nat} {output : Frame} {s : Stage} {op : Operation}

theorem finish_cons {rest : List Operation} (nonempty : rest ≠ []) :
    s.finish timestamp output (op :: rest) =
      match s.advance timestamp op with
      | .error e => .failed e output
      | .ok next => next.finish timestamp output rest := by
  cases rest with
  | nil => exact absurd rfl nonempty
  | cons next others =>
    rw [finish]
    unfold Engine.steps advance
    dsimp only [target, scratch, remainder]
    cases Frame.ofBuffer ((Engine.grown s.spare _).extract 0 _) (op.outputMetadata s.source.metadata) with
    | error e => rfl
    | ok blank =>
      simp only [bind, Except.bind, pure, Except.pure]
      cases (Engine.software.perform op s.source (blank.stamped timestamp) : Outcome).status with
      | error e => rfl
      | ok u =>
        dsimp only
        cases Frame.ofBuffer _ (op.outputMetadata s.source.metadata) with
        | error e => rfl
        | ok next => rfl

theorem finish_append (first : List Operation) {second : List Operation} (nonempty : second ≠ []) :
    s.finish timestamp output (first ++ second) =
      match s.after timestamp first with
      | .error e => .failed e output
      | .ok next => next.finish timestamp output second := by
  induction first generalizing s with
  | nil => rfl
  | cons op rest ih =>
    rw [List.cons_append, finish_cons (by simp [nonempty]), after, List.foldlM_cons]
    cases s.advance timestamp op with
    | error e => rfl
    | ok next => exact ih

end Stage

/-! ## Whole chains -/

/-- A chain that makes the metadata of the output begins with empty arenas. -/
theorem Engine.execute_eq_finish {operations : List Operation} {input output : Frame}
    (nonempty : operations ≠ []) (yields : input.metadata.after operations = output.metadata) :
    (software.execute operations input output : Outcome) =
      (Stage.start input).finish input.timestamp output operations :=
  execute_eq_steps software nonempty yields

/-- Any other chain is refused. -/
theorem Engine.execute_of_not_yields {operations : List Operation} {input output : Frame}
    (nonempty : operations ≠ []) (differs : input.metadata.after operations ≠ output.metadata) :
    (software.execute operations input output : Outcome) =
      .failed (.metadataMismatch (.chain (input.metadata.after operations) output.metadata))
        output := by
  unfold execute
  dsimp only
  rw [if_neg (by simpa using nonempty), if_pos differs]
  rfl

namespace Stage

variable {timestamp : Option Nat} {output : Frame} {s : Stage} {op : Operation}

/-! ## What a step leaves behind -/

theorem size_scratch (s : Stage) (size : Nat) : (s.scratch size).size = size :=
  Engine.size_extract_grown s.spare size

/-- The scratch of a step holds what the spare arena held. -/
theorem getD_scratch (s : Stage) {size i : Nat} (hi : i < size) :
    (s.scratch size).getD i 0 = s.spare.getD i 0 := by
  unfold scratch Engine.grown
  simp only [Array.getD_eq_getD_getElem?, Array.getElem?_extract, Array.getElem?_append,
    Array.getElem?_replicate]
  grind

/-- Spare arenas that are equal so far give the same scratch. -/
theorem scratch_congr {s s' : Stage} {size : Nat}
    (same : ∀ i < size, s.spare.getD i 0 = s'.spare.getD i 0) : s.scratch size = s'.scratch size := by
  refine bytes_ext ((s.size_scratch size).trans (s'.size_scratch size).symm) fun i hi => ?_
  rw [size_scratch] at hi
  rw [getD_scratch s hi, getD_scratch s' hi]
  exact same i hi

/-- After its frame, an arena keeps what it held. -/
theorem getD_written (s : Stage) {memory : Bytes} {size : Nat} (exact_size : memory.size = size)
    (i : Nat) : (memory ++ s.remainder size).getD i 0 =
      if i < size then memory.getD i 0 else s.spare.getD i 0 := by
  unfold remainder Engine.grown
  simp only [Array.getD_eq_getD_getElem?, Array.getElem?_append, Array.getElem?_extract,
    Array.getElem?_replicate, exact_size]
  grind

theorem size_written (s : Stage) {memory : Bytes} {size : Nat} (exact_size : memory.size = size) :
    (memory ++ s.remainder size).size = max s.spare.size size := by
  unfold remainder Engine.grown
  simp only [Array.size_append, Array.size_extract, Array.size_replicate, exact_size]
  omega

/-- The frame that a step writes is its scratch written over. What the next step reads shows the
same, whatever the arena holds after it. -/
theorem advance_of_blank {m : Metadata} (target : s.target op = m) {blank : Frame}
    (hblank : Frame.ofBuffer (s.scratch (byteSize m.size m.format)) m = .ok blank)
    (timestamp : Option Nat) :
    let r : Outcome := Engine.software.perform op s.source (blank.stamped timestamp)
    let written := r.frame.memory ++ s.remainder (byteSize m.size m.format)
    r.frame.memory.size = byteSize m.size m.format ∧
      ∃ next : Frame, Frame.ofBuffer written m = .ok next ∧ next.Alike r.frame ∧
        s.advance timestamp op =
          r.status >>= fun _ => .ok ⟨next.stamped timestamp, written, s.held⟩ := by
  subst target
  intro r written
  have memory : r.frame.memory.size = byteSize (s.target op).size (s.target op).format := by
    have room := (Engine.perform_lawful op).room s.source (blank.stamped timestamp)
    have kept : r.frame.memory.size = blank.memory.size :=
      size_join_of_sizes (Plane.sizes_of_room room)
    rw [kept, Frame.memory_ofBuffer hblank, size_scratch]
  obtain ⟨next, hnext, shows⟩ := Engine.ofBuffer_written hblank op s.source timestamp
    (s.remainder (byteSize (s.target op).size (s.target op).format))
  have unfolded : s.advance timestamp op = r.status >>= fun _ =>
      Frame.ofBuffer written (s.target op) >>= fun next =>
        .ok ⟨next.stamped timestamp, written, s.held⟩ := by
    rw [advance, hblank]
    rfl
  refine ⟨memory, next, hnext, shows, ?_⟩
  rw [unfolded, hnext]
  rfl

/-- The next stage holds a frame of the metadata that the operation makes, in the arena that was
spare and may have grown. -/
theorem advance_ok {next : Stage} (h : s.advance timestamp op = .ok next) :
    next.source.metadata = s.target op ∧ next.spare = s.held ∧
      next.held.size = max s.spare.size (byteSize (s.target op).size (s.target op).format) := by
  obtain ⟨blank, hblank, -⟩ := bind_eq_ok.1 h
  obtain ⟨memory, following, hfollowing, -, advanced⟩ := advance_of_blank rfl hblank timestamp
  have metadata := Frame.metadata_ofBuffer hfollowing
  rw [advanced] at h
  obtain ⟨u, -, hnext⟩ := bind_eq_ok.1 h
  obtain rfl := Except.ok.inj hnext
  exact ⟨metadata, rfl, size_written s memory⟩

/-! ## Two runs -/

/-- An operation leaves the same bytes in two blank frames, if these are equal or if it
fills them. -/
theorem memory_perform_eq (op : Operation) (source : Frame) {m : Metadata} {bytes bytes' : Bytes}
    {blank blank' : Frame} (hblank : Frame.ofBuffer bytes m = .ok blank)
    (hblank' : Frame.ofBuffer bytes' m = .ok blank')
    (exact_size : bytes.size = byteSize m.size m.format)
    (exact_size' : bytes'.size = byteSize m.size m.format)
    (settled : op.Fills m.size ∨ bytes = bytes')
    (timestamp timestamp' : Option Nat) :
    let r : Outcome := Engine.software.perform op source (blank.stamped timestamp)
    let r' : Outcome := Engine.software.perform op source (blank'.stamped timestamp')
    r.status = r'.status ∧
      (r.status = .ok () → r.frame.memory = r'.frame.memory ∧ r.frame.Alike r'.frame) := by
  have lawful := Engine.perform_lawful op
  have metadata := Frame.metadata_ofBuffer hblank
  have metadata' := Frame.metadata_ofBuffer hblank'
  dsimp only
  rw [lawful.stamps, lawful.stamps]
  rcases settled with fills | rfl
  · have blank_size : blank.size = m.size := congrArg Metadata.size metadata
    obtain ⟨status, frames⟩ := Engine.perform_overwrites_of_fills source
      (Frame.sound_ofBuffer hblank) (Frame.sound_ofBuffer hblank') (metadata.trans metadata'.symm)
      (blank_size ▸ fills)
    refine ⟨status, fun done => ⟨?_, ((frames done).stamped_left timestamp).trans
      ((Frame.Alike.refl _).stamped_left timestamp').symm⟩⟩
    -- both results are canonical frames without spare bytes, and they are alike
    have again := Frame.ofBuffer_memory hblank ((lawful.metadata source blank).trans metadata)
      (lawful.room source blank)
    have again' := Frame.ofBuffer_memory hblank' ((lawful.metadata source blank').trans metadata')
      (lawful.room source blank')
    have size := size_join_of_sizes (Plane.sizes_of_room (lawful.room source blank))
    have size' := size_join_of_sizes (Plane.sizes_of_room (lawful.room source blank'))
    have shown := Frame.picture_eq_ok.2 ⟨_, Frame.canvas_ofBuffer again, rfl⟩
    rcases (frames done).picture.error_or_ok with ⟨e, failed, -⟩ | ⟨p, q, hp, hq, agree⟩
    · exact absurd (shown.symm.trans failed) (by simp)
    · refine Frame.bytes_eq_of_agree again again' ?_ ?_ hp hq agree
      · exact size.trans ((congrArg Array.size (Frame.memory_ofBuffer hblank)).trans exact_size)
      · exact size'.trans ((congrArg Array.size (Frame.memory_ofBuffer hblank')).trans exact_size')
  · obtain rfl := Except.ok.inj (hblank.symm.trans hblank')
    exact ⟨rfl, fun _ => ⟨rfl, .stamped _ _ _⟩⟩

/-- Two stages between which an operation cannot tell fail alike or lead to stages that show the
same frame, if it fills its frame or their spare arenas are equal so far. The arena just written
is equal where the step wrote it and where it was equal before. -/
theorem advance_congr {s s' : Stage} {op : Operation} {m : Metadata} (target : s.target op = m)
    (target' : s'.target op = m)
    (same : ∀ output : Frame, output.metadata = m →
      (Engine.software.perform op s.source output : Outcome) =
        Engine.software.perform op s'.source output)
    (settled : op.Fills m.size ∨
      ∀ i < byteSize m.size m.format, s.spare.getD i 0 = s'.spare.getD i 0)
    (timestamp timestamp' : Option Nat) :
    (∃ e, s.advance timestamp op = .error e ∧ s'.advance timestamp' op = .error e) ∨
      ∃ next next', s.advance timestamp op = .ok next ∧ s'.advance timestamp' op = .ok next' ∧
        next.source.Alike next'.source ∧
          ∀ i, i < byteSize m.size m.format ∨ s.spare.getD i 0 = s'.spare.getD i 0 →
            next.held.getD i 0 = next'.held.getD i 0 := by
  have long (s : Stage) : byteSize m.size m.format ≤ (s.scratch (byteSize m.size m.format)).size :=
    Nat.le_of_eq (s.size_scratch _).symm
  cases hblank : Frame.ofBuffer (s.scratch (byteSize m.size m.format)) m with
  | error e =>
    have failed' := Frame.ofBuffer_error (long s) (long s') hblank
    refine .inl ⟨e, ?_, ?_⟩
    · rw [advance, target, hblank]
      rfl
    · rw [advance, target', failed']
      rfl
  | ok blank =>
    obtain ⟨blank', hblank'⟩ := Frame.ofBuffer_ok (Frame.ofBuffer_eq_ok.1 hblank).1
      (Frame.known_of_ofBuffer hblank) (long s')
    obtain ⟨status, written⟩ := memory_perform_eq op s'.source hblank hblank' (s.size_scratch _)
      (s'.size_scratch _) (settled.imp_right scratch_congr) timestamp timestamp'
    obtain ⟨size, next, -, shows, advanced⟩ := advance_of_blank target hblank timestamp
    obtain ⟨size', next', -, shows', advanced'⟩ := advance_of_blank target' hblank' timestamp'
    have blank_metadata : blank.metadata = m := Frame.metadata_ofBuffer hblank
    rw [same (blank.stamped timestamp) blank_metadata] at size shows advanced
    rw [advanced, advanced', ← status]
    cases done : (Engine.software.perform op s'.source (blank.stamped timestamp) : Outcome).status with
    | error e => exact .inl ⟨e, rfl, rfl⟩
    | ok u =>
      obtain ⟨memory, alike⟩ := written done
      have sources : (next.stamped timestamp).Alike (next'.stamped timestamp') :=
        (shows.stamped_left timestamp).trans
          (alike.trans (shows'.stamped_left timestamp').symm)
      refine .inr ⟨_, _, rfl, rfl, sources, fun i settled => ?_⟩
      dsimp only
      rw [getD_written s size, getD_written s' size', memory]
      split
      · rfl
      · next beyond => exact settled.resolve_left beyond

end Stage

end Raster
