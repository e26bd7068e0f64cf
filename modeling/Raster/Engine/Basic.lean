import Raster.Frame.Basic

/-!
# Engines

An engine runs primitive transforms from an input frame into an output frame.
Whatever it does besides — keep a log, fail on purpose, use a device — it does in
a monad of its own.

* `Move`, `Primitive` — the requests an engine serves.
* `Outcome` — whether a request succeeded, and the output frame afterwards.
* `Engine` — a name and a way to serve primitives.
-/

namespace Raster

/-- A transform that moves samples and keeps their colours. -/
inductive Move where
  /-- The part between two inclusive corners, scaled to the output. -/
  | crop (x0 y0 x1 y1 : Nat)
  /-- Bilinear scaling to the output. -/
  | resize
  /-- Nearest-sample scaling to the output. -/
  | resizeNearest
  /-- Counter-clockwise rotation by an angle. -/
  | rotate (degrees : Nat)
  /-- Exchange of left and right, or of top and bottom. -/
  | flip (axis : FlipAxis)
  deriving DecidableEq

/-- A transform of one frame into another. -/
inductive Primitive where
  | move (m : Move)
  /-- Colour conversion to the format of the output. -/
  | convert
  deriving DecidableEq

/-- The result of a request: its status, and the output frame as it is left. -/
structure Outcome where
  status : Except Error Unit
  frame : Frame

namespace Outcome

/-- A request that failed with the output in this state. -/
def failed (e : Error) (output : Frame) : Outcome := ⟨.error e, output⟩

/-- The outcome for the whole frame of a request that wrote into a region of it. -/
def inRegionOf (whole : Frame) (r : Outcome) : Outcome := ⟨r.status, whole.withRegion r.frame⟩

end Outcome

/-- Something that serves primitive transforms. -/
structure Engine (m : Type → Type) where
  name : String
  call : Primitive → (input output : Frame) → m Outcome

namespace Engine

/-- An engine described by its name. -/
def text {m : Type → Type} (e : Engine m) : String :=
  "FrameBufferUtils \x7b processor: \"" ++ e.name ++ "\" \x7d"

end Engine

end Raster
