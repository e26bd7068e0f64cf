import Raster.Engine.Stroke

/-!
# The portable engine

`Engine.software` serves a primitive in three steps: its precondition, the
resolution of both frames into grids (`Primitive.prepare`), and the strokes.
-/

namespace Raster

/-- The output's canvas and the strokes to paint on it. -/
def Primitive.prepare (p : Primitive) (input output : Frame) :
    Except Error (Canvas × List Stroke) := do
  p.check input output
  let source ← input.picture
  let target ← output.writable
  match p.strokes source target.components with
  | some strokes => .ok (target, strokes)
  | none => .error (.unsupported (.transform input.format output.format))

/-- A primitive run on sample grids. -/
def Primitive.run (p : Primitive) (input output : Frame) : Outcome :=
  match p.prepare input output with
  | .error e => .failed e output
  | .ok (canvas, strokes) =>
    let painted := paintAll canvas.planes strokes
    ⟨painted.1, output.withParts (painted.2.map (·.bytes))⟩

/-- The portable engine. -/
def Engine.software : Engine Id where
  name := "software"
  call := Primitive.run

end Raster
