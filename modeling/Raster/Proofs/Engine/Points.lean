import Raster.Proofs.Engine.Script

/-!
# The points of a chain

A chain comes to a list of points, which its operations and the metadata of its input decide. At
each of them it calls a primitive, or a check of its own refuses to. An operation has a point for
each primitive that it expands into: a change of orientation may need two, all others need one.

* `Reorientation.primitives` — the primitives of a change of orientation.
* `Operation.points`, `Metadata.points` — the points of an operation and of a chain.
* `Follows` — calls that go through points up to the first failure.
* `Runs` — calls that do so and leave the output alone before the last point.

Results: `Follows.append`, `Runs.after` (one list of points after another), `Runs.refused`,
`Runs.failed` and `Runs.call` (the ways to end).
-/

namespace Raster

/-! ## Points -/

/-- What a chain comes to: a primitive to call, or the refusal of a check in place of it. -/
abbrev Point := Except Error Primitive

/-- Points that begin with a check. -/
def guarded {α : Type} (check : Except Error α) : List Point → List Point
  | [] => []
  | first :: rest => (check >>= fun _ => first) :: rest

section

variable {α : Type} {check : Except Error α} {points : List Point} {a : α}

@[simp] theorem length_guarded (check : Except Error α) (points : List Point) :
    (guarded check points).length = points.length := by
  cases points <;> rfl

theorem guarded_ok (h : check = .ok a) : guarded check points = points := by
  subst h
  cases points <;> rfl

theorem guarded_error {e : Error} (h : check = .error e) (nonempty : points ≠ []) :
    ∃ rest, guarded check points = .error e :: rest := by
  subst h
  cases points with
  | nil => exact absurd rfl nonempty
  | cons first rest => exact ⟨rest, rfl⟩

end

/-- The primitives of a change of orientation: the rotation if there is one, then the flip if there
is one, and a copy where there is neither. -/
def Reorientation.primitives (change : Reorientation) : List Primitive :=
  let turns := if change.rotation = .deg0 then [] else [Move.rotate change.rotation.degrees]
  let flips := change.flip.toList.map Move.flip
  (if turns ++ flips = [] then [.resize] else turns ++ flips).map .move

/-- There is one primitive, or there are two. -/
theorem Reorientation.primitives_cases (change : Reorientation) :
    (∃ p, change.primitives = [p]) ∨ ∃ p q, change.primitives = [p, q] := by
  obtain ⟨rotation, flip⟩ := change
  cases flip <;> cases rotation <;> simp [primitives]

/-- The metadata of a frame that a change of orientation has rotated, but not flipped yet. -/
def Metadata.rotated (m : Metadata) (change : Reorientation) : Metadata :=
  { m with size := change.size m.size }

namespace Operation

/-- The points of an operation. A rotation with a flip needs a frame in between. -/
def points (op : Operation) (m : Metadata) : List Point :=
  match op with
  | cropResize crop _ | uniformCropResize crop _ => [crop.toCrop]
  | convert _ => [.ok .convert]
  | orient target =>
    let change := Reorientation.between m.orientation target
    let calls := change.primitives.map .ok
    if calls.length = 1 then calls
    else guarded (Frame.zeroed (m.rotated change)) calls

section

variable {m : Metadata} {target : Orientation} {p q : Primitive}

theorem points_of_single (single : (Reorientation.between m.orientation target).primitives = [p]) :
    (orient target).points m = [.ok p] := by
  unfold points
  dsimp only
  rw [single]
  rfl

theorem points_of_pair (pair : (Reorientation.between m.orientation target).primitives = [p, q]) :
    (orient target).points m =
      guarded (Frame.zeroed (m.rotated (.between m.orientation target))) [.ok p, .ok q] := by
  unfold points
  dsimp only
  rw [pair]
  rfl

end

/-- The part of the output that the last call of an operation is given. -/
def place (op : Operation) (output : Frame) : Except Error Frame :=
  match op with
  | uniformCropResize crop _ => output.topLeft (uniformFit crop.size output.size)
  | _ => .ok output

/-- The output with that part as it is left by the call. -/
def putBack (op : Operation) (output part : Frame) : Frame :=
  match op with
  | uniformCropResize _ _ => output.withRegion part
  | _ => part

end Operation

/-- The points of a chain. The frames between its steps have to be made first, and so has the place
for the last call. -/
def Metadata.points (m : Metadata) (output : Frame) : List Operation → List Point
  | [] => [.error (.invalidArgument .noOperations)]
  | [op] => guarded (op.place output) (op.points m)
  | op :: rest =>
    let target := op.outputMetadata m
    guarded (Frame.zeroed target) (op.points m) ++ target.points output rest

theorem Operation.points_ne_nil (op : Operation) (m : Metadata) : op.points m ≠ [] := by
  cases op with
  | cropResize crop size | uniformCropResize crop size => exact List.cons_ne_nil _ _
  | convert format => exact List.cons_ne_nil _ _
  | orient target =>
    rcases (Reorientation.between m.orientation target).primitives_cases with
      ⟨p, single⟩ | ⟨p, q, pair⟩
    · rw [points_of_single single]
      exact List.cons_ne_nil _ _
    · rw [points_of_pair pair]
      exact List.cons_ne_nil _ _

theorem Metadata.points_ne_nil (m : Metadata) (output : Frame) (operations : List Operation) :
    m.points output operations ≠ [] := by
  have more {α : Type} (check : Except Error α) (op : Operation) :
      guarded check (op.points m) ≠ [] := fun none =>
    op.points_ne_nil m (List.length_eq_zero_iff.1 (by rw [← length_guarded check, none]; rfl))
  match operations with
  | [] => exact List.cons_ne_nil _ _
  | [op] => exact more _ op
  | op :: next :: rest => exact List.append_ne_nil_of_left_ne_nil (more _ op) _

/-! ## Runs through points -/

/-- Calls that go through points in their order, up to the first failure, whose error is the
status. -/
inductive Follows : List Point → List Exchange → Except Error Unit → Prop
  | done : Follows [] [] (.ok ())
  | refused (e : Error) (rest : List Point) : Follows (.error e :: rest) [] (.error e)
  | failed {e : Error} (x : Exchange) (rest : List Point) (fails : x.answer.status = .error e) :
      Follows (.ok x.call.primitive :: rest) [x] (.error e)
  | next {rest : List Point} {log : List Exchange} {status : Except Error Unit} (x : Exchange)
      (succeeds : x.answer.status = .ok ()) (later : Follows rest log status) :
      Follows (.ok x.call.primitive :: rest) (x :: log) status

namespace Follows

variable {points points' : List Point} {log log' : List Exchange} {status : Except Error Unit}

theorem length_of_ok (h : Follows points log (.ok ())) : log.length = points.length := by
  generalize ok : Except.ok () = status at h
  induction h with
  | done => rfl
  | refused e rest => cases ok
  | failed x rest fails => cases ok
  | next x succeeds later ih => exact congrArg (· + 1) (ih ok)

theorem length_le (h : Follows points log status) : log.length ≤ points.length := by
  induction h with
  | done => exact Nat.le_refl _
  | refused e rest => exact Nat.zero_le _
  | failed x rest fails => exact Nat.succ_le_succ (Nat.zero_le _)
  | next x succeeds later ih => exact Nat.succ_le_succ ih

/-- A call and then no other point. -/
theorem call (x : Exchange) : Follows [.ok x.call.primitive] [x] x.answer.status := by
  cases status : x.answer.status with
  | error e => exact .failed x [] status
  | ok => exact .next x status .done

theorem append (h : Follows points log (.ok ())) (h' : Follows points' log' status) :
    Follows (points ++ points') (log ++ log') status := by
  generalize ok : Except.ok () = first at h
  induction h with
  | done => exact h'
  | refused e rest => cases ok
  | failed x rest fails => cases ok
  | next x succeeds later ih => exact .next x succeeds (ih ok)

/-- What would come after a failure. -/
theorem append_error {e : Error} (h : Follows points log (.error e)) (points' : List Point) :
    Follows (points ++ points') log (.error e) := by
  generalize error : Except.error e = status at h ⊢
  induction h with
  | done => cases error
  | refused e rest => exact .refused e _
  | failed x rest fails => exact .failed x _ fails
  | next x succeeds later ih => exact .next x succeeds (ih error)

end Follows

/-- A run through the points of a chain. Before the last point the output is as it was; the call at
the last point is given the place of the last operation, and what it makes of that is put back. -/
structure Runs (operations : List Operation) (points : List Point) (output : Frame)
    (log : List Exchange) (r : Outcome) : Prop where
  follows : Follows points log r.status
  spared : log.length < points.length → r.frame = output
  last : log.length = points.length → ∃ op part x, operations.getLast? = some op ∧
    op.place output = .ok part ∧ log.getLast? = some x ∧ x.call.output = part ∧
      r = ⟨x.answer.status, op.putBack output x.answer.frame⟩

namespace Runs

variable {op : Operation} {operations : List Operation} {points rest : List Point}
  {output part : Frame} {log log' : List Exchange} {r : Outcome} {e : Error}

theorem refused (operations : List Operation) (e : Error) (rest : List Point) (output : Frame) :
    Runs operations (.error e :: rest) output [] (.failed e output) where
  follows := .refused e rest
  spared _ := rfl
  last := nofun

/-- The last call of an operation, after others that succeeded. -/
theorem call (before : Follows points log (.ok ())) (placed : op.place output = .ok part)
    (x : Exchange) (given : x.call.output = part) :
    Runs [op] (points ++ [.ok x.call.primitive]) output (log ++ [x])
      ⟨x.answer.status, op.putBack output x.answer.frame⟩ where
  follows := before.append (.call x)
  spared short := by
    rw [List.length_append, List.length_append, before.length_of_ok] at short
    exact absurd short (Nat.lt_irrefl _)
  last _ := ⟨op, part, x, rfl, placed, List.getLast?_concat, given, rfl⟩

/-- A failure at a point that is not the last. -/
theorem failed (before : Follows points log (.error e)) (operations : List Operation)
    (more : rest ≠ []) (output : Frame) :
    Runs operations (points ++ rest) output log (.failed e output) := by
  have count : log.length < (points ++ rest).length := by
    have := before.length_le
    have := List.length_pos_iff.2 more
    rw [List.length_append]
    omega
  exact ⟨before.append_error rest, fun _ => rfl, fun all => absurd all (Nat.ne_of_lt count)⟩

/-- A run that goes on after a step. -/
theorem after (before : Follows points log (.ok ())) (h : Runs operations rest output log' r)
    (op : Operation) : Runs (op :: operations) (points ++ rest) output (log ++ log') r := by
  have count := before.length_of_ok
  refine ⟨before.append h.follows, fun short => h.spared ?_, fun all => ?_⟩
  · rw [List.length_append, List.length_append] at short
    omega
  · rw [List.length_append, List.length_append] at all
    obtain ⟨last, part, x, hlast, placed, called, given, hr⟩ := h.last (by omega)
    refine ⟨last, part, x, ?_, placed, ?_, given, hr⟩
    · rw [List.getLast?_cons, hlast]
      rfl
    · rw [List.getLast?_append, called]
      rfl

end Runs

end Raster
