import Raster.Format
import Raster.Orientation.Basic

/-!
# Frame metadata

What is known of a frame without its pixels: `Metadata` holds the size, the
orientation and the format, and `Metadata.text` shows all three as a record.
-/

namespace Raster

/-- Size, orientation and format of a frame. -/
structure Metadata where
  size : Size
  orientation : Orientation
  format : Format
  deriving DecidableEq

namespace Size

/-- The two sides with a cross between them. -/
def text (s : Size) : String := s!"{s.width}x{s.height}"

end Size

namespace Metadata

/-- The metadata as a record, field by field. -/
def text (m : Metadata) : String :=
  "FrameMetadata \x7b dimension: Dimension \x7b width: " ++ toString m.size.width ++
    ", height: " ++ toString m.size.height ++ " \x7d, orientation: " ++ m.orientation.title ++
    ", format: " ++ m.format.title ++ " \x7d"

end Metadata

end Raster
