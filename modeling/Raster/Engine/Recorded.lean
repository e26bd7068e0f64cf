import Raster.Engine.Basic

/-!
# Recorded calls

An engine wrapped so that it logs each call before it is served. The wrapper may
also let chosen calls fail, by their number, without serving them.
-/

namespace Raster

/-- One call of an engine: the request and both frames before it is served. -/
structure Call where
  primitive : Primitive
  input : Frame
  output : Frame

namespace Engine

/-- The engine with a log of its calls, the latest one last. Call number `n`,
counted from zero, fails when `fault n` is an error. -/
def recorded {m : Type → Type} [Monad m] (e : Engine m) (fault : Nat → Option Error) :
    Engine (StateT (List Call) m) where
  name := e.name
  call p input output := fun calls => do
    let outcome ←
      match fault calls.length with
      | some error => pure (.failed error output)
      | none => e.call p input output
    return (outcome, calls ++ [⟨p, input, output⟩])

end Engine

end Raster
