import Mathlib.Data.List.Induction
import Raster.Proofs.Engine.Stage
import Raster.Proofs.Engine.Window

/-!
# Pixels that a crop leaves out

Two runs of a chain whose frames differ outside of the window of a crop have the same outcome,
unless what earlier steps left in an arena comes to light again. If no tap leaves the region that it
scales, only a proportional crop can bring it to light: it leaves a part of its frame as the arena
was, and unless it is the last step the next one reads that part.

* `Metadata.stepBytes` — how far the frame of a step reaches in its arena.
* `Metadata.Settled` — a byte of an arena that shows nothing from before the crop.
* `Metadata.Sheltered` — proportional crops write over such bytes only.
* `Stage.Parallel` — two runs whose arenas are equal at all settled bytes.

Results: `Stage.Parallel.advance` (a step keeps two runs parallel), `Stage.Parallel.finish_eq` (the
remaining steps have the same outcome) and `Engine.execute_isolates` (so has the whole chain).
`Engine.execute_reads_window` is about chains that begin with the crop, and
`Engine.execute_isolates_of_early` about those with proportional crops in early and last places only.
-/

namespace Raster

/-! ## Settled bytes -/

namespace Metadata

/-- The bytes of the frame that each step of a chain makes. -/
def stepBytes (m : Metadata) (operations : List Operation) (k : Nat) : Nat :=
  let made := m.after (operations.take (k + 1))
  byteSize made.size made.format

/-- A byte of the arena that the steps of one parity write, seen after `t` steps. Either no step
before `first` reached it, or a later one has written over it. -/
def Settled (m : Metadata) (operations : List Operation) (first t parity i : Nat) : Prop :=
  (∀ k < first, k % 2 = parity → m.stepBytes operations k ≤ i) ∨
    ∃ k, first ≤ k ∧ k < t ∧ k % 2 = parity ∧ i < m.stepBytes operations k

/-- From `first` on, every proportional crop that is not the last step fills its frame or writes a
frame of settled bytes. -/
def Sheltered (m : Metadata) (operations : List Operation) (first : Nat) : Prop :=
  ∀ j crop size, first ≤ j → j + 1 < operations.length →
    operations[j]? = some (.uniformCropResize crop size) → uniformFit crop.size size = size ∨
      ∀ i < m.stepBytes operations j, m.Settled operations first j (j % 2) i

variable {m : Metadata} {operations front : List Operation} {t first parity i : Nat}

theorem stepBytes_append_left (rest : List Operation) {k : Nat} (h : k < front.length) :
    m.stepBytes (front ++ rest) k = m.stepBytes front k := by
  rw [stepBytes, stepBytes, List.take_append_of_le_length h]

/-- Nothing comes from before the first step. -/
theorem sheltered_zero (m : Metadata) (operations : List Operation) : m.Sheltered operations 0 :=
  fun _ _ _ _ _ _ => .inr fun _ _ => .inl fun _ none => absurd none (Nat.not_lt_zero _)

/-- A proportional crop that is the first step, the second or the last one brings nothing to
light. -/
theorem sheltered_of_early (first : Nat) (uniform : ∀ j crop size,
    operations[j]? = some (.uniformCropResize crop size) → j ≤ 1 ∨ j + 1 = operations.length) :
    m.Sheltered operations first := by
  intro j crop size reached inner found
  rcases uniform j crop size found with early | last
  · refine .inr fun i _ => .inl fun k before same => ?_
    -- the arena of a step at index 0 or 1 is empty before it
    omega
  · omega

/-- With the next step, the bytes of its own frame become settled. -/
theorem Settled.of_succ (h : m.Settled operations first (t + 1) (t % 2) i) :
    i < m.stepBytes operations t ∨ m.Settled operations first t (t % 2) i := by
  rcases h with untouched | ⟨k, later, before, same, inside⟩
  · exact .inr (.inl untouched)
  · by_cases now : k = t
    · exact .inl (now ▸ inside)
    · exact .inr (.inr ⟨k, later, by omega, same, inside⟩)

/-- A step writes into one arena only. -/
theorem Settled.of_succ_other (h : m.Settled operations first (t + 1) ((t + 1) % 2) i) :
    m.Settled operations first t ((t + 1) % 2) i := by
  rcases h with untouched | ⟨k, later, before, same, inside⟩
  · exact .inl untouched
  · exact .inr ⟨k, later, by omega, same, inside⟩

end Metadata

/-! ## The arenas after some steps -/

namespace Stage

variable {m : Metadata} {operations : List Operation} {first t : Nat}
  {timestamp timestamp' : Option Nat} {input : Frame} {s s' : Stage} {op : Operation}

theorem after_append_singleton (operations : List Operation) :
    s.after timestamp (operations ++ [op]) =
      s.after timestamp operations >>= fun next => next.advance timestamp op := by
  rw [after, List.foldlM_append]
  refine congrArg _ (funext fun next => ?_)
  rw [List.foldlM_cons]
  exact bind_pure _

/-- After some steps of a chain, the next one reads a frame of the metadata made so far, and no
arena is longer than the frames written into it. -/
theorem after_ok (h : (start input).after timestamp operations = .ok s) :
    s.source.metadata = input.metadata.after operations ∧
      (∀ i, (∀ k < operations.length, k % 2 = (operations.length + 1) % 2 →
        input.metadata.stepBytes operations k ≤ i) → s.held.size ≤ i) ∧
      ∀ i, (∀ k < operations.length, k % 2 = operations.length % 2 →
        input.metadata.stepBytes operations k ≤ i) → s.spare.size ≤ i := by
  induction operations using List.reverseRecOn generalizing s with
  | nil =>
    obtain rfl := Except.ok.inj h
    exact ⟨rfl, fun i _ => Nat.zero_le i, fun i _ => Nat.zero_le i⟩
  | append_singleton before op ih =>
    rw [after_append_singleton] at h
    obtain ⟨middle, hmiddle, advanced⟩ := bind_eq_ok.1 h
    obtain ⟨metadata, held_room, spare_room⟩ := ih hmiddle
    obtain ⟨made, spare, held⟩ := advance_ok advanced
    have after_op : input.metadata.after (before ++ [op]) =
        op.outputMetadata (input.metadata.after before) := List.foldl_append
    have target : middle.target op = input.metadata.after (before ++ [op]) := by
      rw [target, metadata, after_op]
    rw [List.length_append, List.length_singleton]
    refine ⟨made.trans target, fun i short => ?_, fun i short => ?_⟩
    · -- the arena just written was spare
      have last := short before.length (by omega) (by omega)
      rw [Metadata.stepBytes, List.take_of_length_le (by simp), ← target] at last
      have room := spare_room i fun k hk parity => by
        rw [← Metadata.stepBytes_append_left [op] hk]
        exact short k (by omega) (by omega)
      rw [held]
      exact Nat.max_le.2 ⟨room, last⟩
    · rw [spare]
      refine held_room i fun k hk parity => ?_
      rw [← Metadata.stepBytes_append_left [op] hk]
      exact short k (by omega) parity

/-! ## Two runs side by side -/

/-- Two runs of a chain after `t` steps, equal in all bytes that show nothing from before the step
`first`. -/
structure Parallel (m : Metadata) (operations : List Operation) (first t : Nat) (s s' : Stage) :
    Prop where
  metadata : s.source.metadata = m.after (operations.take t)
  metadata' : s'.source.metadata = m.after (operations.take t)
  held : ∀ i, m.Settled operations first t ((t + 1) % 2) i → s.held.getD i 0 = s'.held.getD i 0
  spare : ∀ i, m.Settled operations first t (t % 2) i → s.spare.getD i 0 = s'.spare.getD i 0

/-- What a chain has made after one more step. -/
theorem after_take_succ (found : operations[t]? = some op) :
    m.after (operations.take (t + 1)) = op.outputMetadata (m.after (operations.take t)) := by
  have chained : m.after (operations.take t ++ [op]) =
      op.outputMetadata (m.after (operations.take t)) := List.foldl_append
  rw [List.take_add_one, found, Option.toList_some, chained]

theorem target_of_take (found : operations[t]? = some op)
    (metadata : s.source.metadata = m.after (operations.take t)) :
    s.target op = m.after (operations.take (t + 1)) := by
  rw [after_take_succ found, target, metadata]

/-- A step that cannot tell two parallel runs apart keeps them parallel, and the next one reads
frames that are alike. -/
theorem Parallel.advance (h : Parallel m operations first t s s')
    (sheltered : m.Sheltered operations first)
    (reached : first ≤ t) (inner : t + 1 < operations.length) (found : operations[t]? = some op)
    (same : ∀ output : Frame, output.metadata = m.after (operations.take (t + 1)) →
      (Engine.software.perform op s.source output : Outcome) =
        Engine.software.perform op s'.source output) (timestamp timestamp' : Option Nat) :
    (∃ e, s.advance timestamp op = .error e ∧ s'.advance timestamp' op = .error e) ∨
      ∃ next next', s.advance timestamp op = .ok next ∧ s'.advance timestamp' op = .ok next' ∧
        next.source.Alike next'.source ∧ Parallel m operations first (t + 1) next next' := by
  have target := target_of_take found h.metadata
  have target' := target_of_take found h.metadata'
  have settled : op.Fills (m.after (operations.take (t + 1))).size ∨
      ∀ i < m.stepBytes operations t, s.spare.getD i 0 = s'.spare.getD i 0 := by
    rcases op.fills_or_uniform with fills | ⟨crop, size, rfl⟩
    · exact .inl (fills _)
    · refine (sheltered t crop size reached inner found).imp (fun fills => ?_)
        fun settled i inside => h.spare i (settled i inside)
      rintro _ _ ⟨⟩
      rw [← target]
      exact fills
  rcases advance_congr target target' same settled timestamp timestamp' with
    ⟨e, failed, failed'⟩ | ⟨next, next', advanced, advanced', alike, written⟩
  · exact .inl ⟨e, failed, failed'⟩
  · obtain ⟨made, spare, -⟩ := advance_ok advanced
    obtain ⟨made', spare', -⟩ := advance_ok advanced'
    refine .inr ⟨next, next', advanced, advanced', alike, made.trans target, made'.trans target',
      fun i settled => ?_, fun i settled => ?_⟩
    · rw [show (t + 1 + 1) % 2 = t % 2 by omega] at settled
      exact written i (settled.of_succ.imp_right (h.spare i))
    · rw [spare, spare']
      exact h.held i settled.of_succ_other

/-- Parallel runs whose next step cannot tell them apart have the same outcome. -/
theorem Parallel.finish_eq {rest : List Operation} (h : Parallel m operations first t s s')
    (sheltered : m.Sheltered operations first) (reached : first ≤ t)
    (left : operations.drop t = op :: rest) {output : Frame}
    (yields : m.after operations = output.metadata)
    (inside : (m.after (operations.take t)).StaysInside (op :: rest))
    (same : ∀ output : Frame, output.metadata = m.after (operations.take (t + 1)) →
      (Engine.software.perform op s.source output : Outcome) =
        Engine.software.perform op s'.source output) (timestamp timestamp' : Option Nat) :
    s.finish timestamp output (op :: rest) = s'.finish timestamp' output (op :: rest) := by
  induction rest generalizing t s s' op with
  | nil =>
    have last : operations.take (t + 1) = operations := by
      have count := congrArg List.length left
      rw [List.length_drop, List.length_singleton] at count
      exact List.take_of_length_le (by omega)
    exact same output (by rw [last, yields])
  | cons next others ih =>
    have found : operations[t]? = some op := by
      rw [← List.head?_drop, left, List.head?_cons]
    have later := inside.2
    rw [← after_take_succ found] at later
    have following : operations.drop (t + 1) = next :: others := by
      rw [← List.tail_drop, left, List.tail_cons]
    have inner : t + 1 < operations.length := by
      have count := congrArg List.length following
      rw [List.length_drop, List.length_cons] at count
      omega
    rw [finish_cons (by simp), finish_cons (by simp)]
    rcases h.advance sheltered reached inner found same timestamp timestamp' with
      ⟨e, failed, failed'⟩ | ⟨n, n', advanced, advanced', alike, parallel⟩
    · rw [failed, failed']
    · rw [advanced, advanced']
      have found : operations[t + 1]? = some next := by
        rw [← List.head?_drop, following, List.head?_cons]
      refine ih parallel (by omega) following later fun output made => ?_
      refine Engine.perform_reads next alike output ?_
      rw [parallel.metadata, made, after_take_succ found]
      exact later.1

/-- Two runs are parallel where they begin to be compared: bytes that no step reached are zero. -/
theorem parallel_after {input' : Frame} (metadata : input.metadata = input'.metadata)
    {before : List Operation} (rest : List Operation) (h : (start input).after timestamp before = .ok s)
    (h' : (start input').after timestamp' before = .ok s') :
    Parallel input.metadata (before ++ rest) before.length before.length s s' := by
  obtain ⟨made, held, spare⟩ := after_ok h
  obtain ⟨made', held', spare'⟩ := after_ok h'
  rw [← metadata] at made' held' spare'
  have untouched {parity i : Nat}
      (settled : input.metadata.Settled (before ++ rest) before.length before.length parity i) :
      ∀ k < before.length, k % 2 = parity → input.metadata.stepBytes before k ≤ i := by
    rcases settled with untouched | ⟨k, from_start, until_start, -⟩
    · intro k hk same
      rw [← Metadata.stepBytes_append_left rest hk]
      exact untouched k hk same
    · omega
  have zero (arena : Bytes) {i : Nat} (short : arena.size ≤ i) : arena.getD i 0 = 0 := by
    rw [Array.getD_eq_getD_getElem?, Array.getElem?_eq_none short, Option.getD_none]
  have taken : (before ++ rest).take before.length = before := List.take_left
  exact ⟨by rw [taken, made], by rw [taken, made'],
    fun i settled => (zero _ (held i (untouched settled))).trans
      (zero _ (held' i (untouched settled))).symm,
    fun i settled => (zero _ (spare i (untouched settled))).trans
      (zero _ (spare' i (untouched settled))).symm⟩

end Stage

/-! ## Rows of two pixels -/

/-- A row of two gray pixels. -/
def Frame.grayRow (left right : UInt8) : Frame :=
  ⟨[⟨#[left, right], ⟨2, 1⟩⟩], ⟨2, 1⟩, .gray, .topLeft, none, rfl, by simp [Stride.hasZero]⟩

/-- Rows that begin with the same pixel agree in the window of that pixel. -/
theorem Frame.grayRow_within (left right right' : UInt8) :
    (grayRow left right).AgreeWithin ⟨0, 0, 1, 1⟩ (grayRow left right') := by
  refine ⟨rfl, .inr ⟨_, _, rfl, rfl, .packed ⟨rfl, fun x y c held _ _ channel => ?_⟩⟩⟩
  obtain ⟨-, hx, -, hy⟩ := held
  obtain rfl : x = 0 := Nat.lt_one_iff.1 hx
  obtain rfl : y = 0 := Nat.lt_one_iff.1 hy
  obtain rfl : c = 0 := Nat.lt_one_iff.1 channel
  rfl

/-- Copies of two rows that differ in their second pixel. -/
theorem Stage.rows_copied :
    let copy : List Operation := [.cropResize ⟨0, 0, 2, 1⟩ ⟨2, 1⟩]
    ∃ s s', (start (.grayRow 1 0)).after none copy = .ok s ∧
      (start (.grayRow 1 9)).after none copy = .ok s' ∧
        s.source.AgreeWithin ⟨0, 0, 1, 1⟩ s'.source := by
  intro copy
  obtain ⟨s, run, planes⟩ : ∃ s, (start (.grayRow 1 0)).after none copy = .ok s ∧
      s.source.planes = (Frame.grayRow 1 0).planes := ⟨_, rfl, by decide +kernel⟩
  obtain ⟨s', run', planes'⟩ : ∃ s, (start (.grayRow 1 9)).after none copy = .ok s ∧
      s.source.planes = (Frame.grayRow 1 9).planes := ⟨_, rfl, by decide +kernel⟩
  have metadata : s.source.metadata = (Frame.grayRow 1 0).metadata := (after_ok run).1
  have metadata' : s'.source.metadata = (Frame.grayRow 1 9).metadata := (after_ok run').1
  have within := Frame.grayRow_within 1 0 9
  refine ⟨s, s', run, run', metadata.trans (within.metadata.trans metadata'.symm), ?_⟩
  rw [Frame.picture_congr planes metadata, Frame.picture_congr planes' metadata']
  exact within.picture

/-! ## Whole chains -/

namespace Engine

open Stage

/-- Two runs of a chain are equal if they finish alike after some steps. -/
theorem execute_congr_after {before rest : List Operation} {input input' output : Frame}
    {s s' : Stage} (nonempty : rest ≠ []) (metadata : input.metadata = input'.metadata)
    (run : (start input).after input.timestamp before = .ok s)
    (run' : (start input').after input'.timestamp before = .ok s')
    (finished : input.metadata.after (before ++ rest) = output.metadata →
      s.finish input.timestamp output rest = s'.finish input'.timestamp output rest) :
    (software.execute (before ++ rest) input output : Outcome) =
      software.execute (before ++ rest) input' output := by
  have whole : before ++ rest ≠ [] := by simp [nonempty]
  by_cases yields : input.metadata.after (before ++ rest) = output.metadata
  · rw [execute_eq_finish whole yields, execute_eq_finish whole (metadata ▸ yields),
      finish_append before nonempty, finish_append before nonempty, run, run']
    exact finished yields
  · rw [execute_of_not_yields whole yields, execute_of_not_yields whole (metadata ▸ yields),
      metadata]

section Crop

variable {before rest : List Operation} {op : Operation} {crop : Box} {input input' : Frame}
  {s s' : Stage}

/-- Two runs of a chain whose frames agree in the window of the next crop finish alike. -/
theorem finish_isolates (crops : op.crop? = some crop) (metadata : input.metadata = input'.metadata)
    (run : (start input).after input.timestamp before = .ok s)
    (run' : (start input').after input'.timestamp before = .ok s')
    (agree : s.source.AgreeWithin crop s'.source)
    (sheltered : input.metadata.Sheltered (before ++ op :: rest) before.length)
    (inside : (input.metadata.after before).StaysInside (op :: rest)) {output : Frame}
    (yields : input.metadata.after (before ++ op :: rest) = output.metadata) :
    s.finish input.timestamp output (op :: rest) =
      s'.finish input'.timestamp output (op :: rest) := by
  have taken : (before ++ op :: rest).take before.length = before := List.take_left
  have found : (before ++ op :: rest)[before.length]? = some op := by simp
  have parallel := parallel_after metadata (op :: rest) run run'
  refine parallel.finish_eq sheltered (Nat.le_refl _) List.drop_left yields (taken.symm ▸ inside)
    (fun output made => perform_within crops agree output ?_) input.timestamp input'.timestamp
  rw [parallel.metadata, made, after_take_succ found, taken]
  exact inside.1

/-- Frames that agree in the window of a crop have the same outcome from there on, if no later
proportional crop brings bytes from before the crop to light, and no tap of the crop or of a later
step leaves the region that it scales. -/
theorem execute_isolates (crops : op.crop? = some crop)
    (metadata : input.metadata = input'.metadata)
    (run : (start input).after input.timestamp before = .ok s)
    (run' : (start input').after input'.timestamp before = .ok s')
    (agree : s.source.AgreeWithin crop s'.source)
    (sheltered : input.metadata.Sheltered (before ++ op :: rest) before.length)
    (inside : (input.metadata.after before).StaysInside (op :: rest)) (output : Frame) :
    (software.execute (before ++ op :: rest) input output : Outcome) =
      software.execute (before ++ op :: rest) input' output :=
  execute_congr_after (by simp) metadata run run'
    (finish_isolates crops metadata run run' agree sheltered inside)

/-- The proportional crop writes an arena whose frame is the second since the crop. -/
theorem execute_isolates_row :
    let copy : List Operation := [.cropResize ⟨0, 0, 2, 1⟩ ⟨2, 1⟩]
    let chain : List Operation := copy ++ .cropResize ⟨0, 0, 1, 1⟩ ⟨1, 1⟩ ::
      [.cropResize ⟨0, 0, 1, 1⟩ ⟨2, 1⟩, .uniformCropResize ⟨0, 0, 1, 1⟩ ⟨2, 1⟩,
        .cropResize ⟨0, 0, 2, 1⟩ ⟨2, 1⟩]
    (software.execute chain (.grayRow 1 0) (.grayRow 0 0) : Outcome) =
      software.execute chain (.grayRow 1 9) (.grayRow 0 0) := by
  intro copy chain
  obtain ⟨s, s', run, run', agree⟩ := Stage.rows_copied
  have sheltered : (Frame.grayRow 1 0).metadata.Sheltered chain 1 := by
    intro j crop size reached inner found
    have short : j + 1 < 5 := inner
    have third : j ≠ 2 := by
      rintro rfl
      cases found
    -- the only step before the crop has written the other arena
    refine .inr fun i _ => .inl fun k before parity => ?_
    obtain rfl : k = 0 := Nat.lt_one_iff.1 before
    omega
  have inside : ((Frame.grayRow 1 0).metadata.after copy).StaysInside (chain.drop 1) :=
    Metadata.staysInside_of_short (by decide)
  have crops : (Operation.cropResize ⟨0, 0, 1, 1⟩ ⟨1, 1⟩).crop? = some ⟨0, 0, 1, 1⟩ := rfl
  have metadata : (Frame.grayRow 1 0).metadata = (Frame.grayRow 1 9).metadata := rfl
  exact execute_isolates crops metadata run run' agree sheltered inside (.grayRow 0 0)

/-- Here its arena still holds the first frame, and the pixel that the crop has left out comes to
light. -/
theorem cropped_pixel_shown :
    let copy : List Operation := [.cropResize ⟨0, 0, 2, 1⟩ ⟨2, 1⟩]
    let chain : List Operation := copy ++ .cropResize ⟨0, 0, 1, 1⟩ ⟨1, 1⟩ ::
      [.uniformCropResize ⟨0, 0, 1, 1⟩ ⟨2, 1⟩, .cropResize ⟨0, 0, 2, 1⟩ ⟨2, 1⟩]
    (∃ s s', (start (.grayRow 1 0)).after none copy = .ok s ∧
      (start (.grayRow 1 9)).after none copy = .ok s' ∧
        s.source.AgreeWithin ⟨0, 0, 1, 1⟩ s'.source) ∧
      (software.execute chain (.grayRow 1 0) (.grayRow 0 0) : Outcome).frame.memory = #[1, 0] ∧
        (software.execute chain (.grayRow 1 9) (.grayRow 0 0) : Outcome).frame.memory = #[1, 9] :=
  ⟨Stage.rows_copied, by decide +kernel, by decide +kernel⟩

/-- A chain that begins with a crop reads the window of this crop only. -/
theorem execute_reads_window (crops : op.crop? = some crop) (agree : input.AgreeWithin crop input')
    (inside : input.metadata.StaysInside (op :: rest)) (output : Frame) :
    (software.execute (op :: rest) input output : Outcome) =
      software.execute (op :: rest) input' output := by
  have run : (start input).after input.timestamp [] = .ok (start input) := rfl
  have run' : (start input').after input'.timestamp [] = .ok (start input') := rfl
  show (software.execute ([] ++ op :: rest) input output : Outcome) =
    software.execute ([] ++ op :: rest) input' output
  exact execute_congr_after (by simp) agree.metadata run run'
    (finish_isolates crops agree.metadata run run' agree (Metadata.sheltered_zero _ _) inside)

/-- With proportional crops in early and last places only, a crop isolates what it leaves out. -/
theorem execute_isolates_of_early (crops : op.crop? = some crop)
    (metadata : input.metadata = input'.metadata)
    (run : (start input).after input.timestamp before = .ok s)
    (run' : (start input').after input'.timestamp before = .ok s')
    (agree : s.source.AgreeWithin crop s'.source)
    (early : ∀ j crop size, (before ++ op :: rest)[j]? = some (.uniformCropResize crop size) →
      j ≤ 1 ∨ j + 1 = (before ++ op :: rest).length)
    (inside : (input.metadata.after before).StaysInside (op :: rest)) (output : Frame) :
    (software.execute (before ++ op :: rest) input output : Outcome) =
      software.execute (before ++ op :: rest) input' output :=
  execute_congr_after (by simp) metadata run run'
    (finish_isolates crops metadata run run' agree
      (Metadata.sheltered_of_early before.length early) inside)

end Crop

end Engine

end Raster
