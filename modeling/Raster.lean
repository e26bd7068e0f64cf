import Raster.Detection
import Raster.Engine.Recorded
import Raster.Engine.Software
import Raster.Mask
import Raster.Proofs.Engine.Admission
import Raster.Proofs.Engine.Calls
import Raster.Proofs.Engine.Conversion
import Raster.Proofs.Engine.Corner
import Raster.Proofs.Engine.Cropping
import Raster.Proofs.Engine.Footprint
import Raster.Proofs.Engine.Isolation
import Raster.Proofs.Engine.Magnification
import Raster.Proofs.Engine.Mask
import Raster.Proofs.Engine.Padding
import Raster.Proofs.Engine.Plan
import Raster.Proofs.Engine.Preprocess
import Raster.Proofs.Engine.ReadBack
import Raster.Proofs.Engine.Recast
import Raster.Proofs.Engine.Recolouring
import Raster.Proofs.Engine.Rescaling
import Raster.Proofs.Engine.RoundTrip
import Raster.Proofs.Engine.Storage
import Raster.Proofs.Engine.Symmetry
import Raster.Proofs.Engine.Tensor
import Raster.Proofs.Engine.WholeRegion
import Raster.Proofs.Frame.Contiguous
import Raster.Proofs.Frame.Tiling
import Raster.Proofs.Orientation.Boxes
import Raster.Proofs.Orientation.Detection
import Raster.Proofs.Orientation.Scene
import Raster.Proofs.Samples.Interpolation
import Raster.Proofs.Samples.Moving
import Raster.Tensor
