import Raster.Engine.Chain

/-!
# Preprocessing

Turning a frame into one of given metadata: crop and resize first, at the size
before orientation, then convert, then orient.

* `Metadata.planTo` — the chain.
* `Engine.preprocess` — the plan of two frames, executed.
-/

namespace Raster

/-- The chain that turns a frame of metadata `input` into one of metadata
`output`. The crop is the region of interest, or the whole frame when its size
has to change. -/
def Metadata.planTo (input output : Metadata) (roi : Option Box) (uniform : Bool) :
    List Operation :=
  let scaled := orientedSize output.size input.orientation output.orientation
  let crop :=
    match roi with
    | some box => some box
    | none => if scaled = input.size then none else some (.ofSize input.size)
  let cropping :=
    match crop with
    | none => []
    | some box =>
      [if uniform then Operation.uniformCropResize box scaled else .cropResize box scaled]
  let converting := if output.format = input.format then [] else [Operation.convert output.format]
  let orienting :=
    if output.orientation = input.orientation then [] else [Operation.orient output.orientation]
  cropping ++ converting ++ orienting

/-- Fills the output from a region of interest of the input, or from all of it.
Without anything to change this is a copy. A uniform crop keeps its proportions
and leaves the rest of its frame as it is. -/
def Engine.preprocess {m : Type → Type} [Monad m] (e : Engine m) (roi : Option Box)
    (uniform : Bool) (input output : Frame) : m Outcome :=
  let plan := input.metadata.planTo output.metadata roi uniform
  if plan.isEmpty then e.call (.move .resize) input output else e.execute plan input output

end Raster
