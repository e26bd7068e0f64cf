import Raster.Engine.Basic
import Raster.Frame.Create
import Raster.Operation
import Raster.Size.Fit

/-!
# Chains of operations

What an engine does with whole operations: it expands each of them into
primitives, and it feeds the result of each step of a chain into the next one.

* `Engine.orient` — the rotation and the flip of a change of orientation.
* `Engine.perform` — one operation.
* `Engine.execute` — a chain. Its last step writes the output; the steps before
  it share two scratch arenas, which they read and write in turn.
-/

namespace Raster

/-! ## Crops -/

/-- The last pixel before an exclusive edge, which has to fit into 32 bits. -/
def lastBefore (edge : Nat) : Except Error Nat :=
  if edge - 1 < UInt32.size then .ok (edge - 1) else .error (.invalidArgument .cropOverflow)

/-- The primitive that crops a box. -/
def Box.toCrop (crop : Box) : Except Error Primitive :=
  if crop.isEmpty then .error (.invalidArgument .emptyCrop)
  else do
    let x1 ← lastBefore crop.right
    let y1 ← lastBefore crop.bottom
    return .move (.crop crop.x crop.y x1 y1)

namespace Engine

variable {m : Type → Type} [Monad m]

/-! ## Single operations -/

/-- The input turned into the orientation of the output. Equal orientations give
a copy; a rotation with a flip goes through a scratch frame. -/
def orient (e : Engine m) (input output : Frame) : m Outcome :=
  let change := Reorientation.between input.orientation output.orientation
  match change.rotation, change.flip with
  | .deg0, none => e.call (.move .resize) input output
  | .deg0, some axis => e.call (.move (.flip axis)) input output
  | rotation, none => e.call (.move (.rotate rotation.degrees)) input output
  | rotation, some axis =>
    match Frame.zeroed { input.metadata with size := change.size input.size } with
    | .error e => pure (.failed e output)
    | .ok scratch => do
      let turn := Primitive.move (.rotate rotation.degrees)
      let rotated ← e.call turn input (scratch.stamped input.timestamp)
      match rotated.status with
      | .error e => return .failed e output
      | .ok () => e.call (.move (.flip axis)) rotated.frame output

/-- The pixels in a box, scaled to the whole output. -/
def cropBox (e : Engine m) (crop : Box) (input output : Frame) : m Outcome :=
  match crop.toCrop with
  | .error e => pure (.failed e output)
  | .ok p => e.call p input output

/-- The pixels in a box, scaled in proportion into the top left of the output. -/
def cropUniformly (e : Engine m) (crop : Box) (input output : Frame) : m Outcome :=
  match output.topLeft (uniformFit crop.size output.size) with
  | .error e => pure (.failed e output)
  | .ok region => do
    let r ← e.cropBox crop input region
    return r.inRegionOf output

/-- A single operation. The output decides on sizes, formats and orientations. -/
def perform (e : Engine m) (op : Operation) (input output : Frame) : m Outcome :=
  match op with
  | .cropResize crop _ => e.cropBox crop input output
  | .uniformCropResize crop _ => e.cropUniformly crop input output
  | .convert _ => e.call .convert input output
  | .orient _ => e.orient input output

/-! ## Chains -/

/-- An arena that has at least so many bytes; new ones are zero. -/
def grown (arena : Bytes) (size : Nat) : Bytes :=
  arena ++ Array.replicate (size - arena.size) 0

/-- The steps of a chain. `source` is the input of the next step and lies in the
arena `held`; a step that is not the last writes into the arena `spare`, whose
first bytes become its output frame. The next step then reads the whole arena. -/
def steps (e : Engine m) (timestamp : Option Nat) (output : Frame) :
    List Operation → (source : Frame) → (held spare : Bytes) → m Outcome
  | [], _, _, _ => pure ⟨.ok (), output⟩
  | [op], source, _, _ => e.perform op source output
  | op :: rest, source, held, spare =>
    let target := op.outputMetadata source.metadata
    let size := byteSize target.size target.format
    let arena := grown spare size
    match Frame.ofBuffer (arena.extract 0 size) target with
    | .error e => pure (.failed e output)
    | .ok scratch => do
      let r ← e.perform op source (scratch.stamped timestamp)
      match r.status with
      | .error e => return .failed e output
      | .ok () =>
        let written := r.frame.memory ++ arena.extract size arena.size
        match Frame.ofBuffer written target with
        | .error e => return .failed e output
        | .ok next => steps e timestamp output rest (next.stamped timestamp) written held

/-- A chain of operations. The output has to have the metadata that the chain
yields, which is checked before anything runs. -/
def execute (e : Engine m) (operations : List Operation) (input output : Frame) : m Outcome :=
  let yields := input.metadata.after operations
  if operations.isEmpty then pure (.failed (.invalidArgument .noOperations) output)
  else if yields ≠ output.metadata then
    pure (.failed (.metadataMismatch (.chain yields output.metadata)) output)
  else e.steps input.timestamp output operations input #[] #[]

end Engine

end Raster
