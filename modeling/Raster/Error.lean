import Raster.Metadata
import Raster.Decimal.Shortest

/-!
# Errors

Everything that can go wrong, as causes with their data, and the wording of each
cause in one place.

* `FrameError` — a frame, a box or a point that cannot be described or addressed.
* `Error` — a request that cannot be served; it wraps a `FrameError`.
* `FrameError.message`, `Error.message` — the texts.

Each family of causes ends in `other`, which holds the words of a caller that
reports through the same types.
-/

namespace Raster

/-! ## Describing and addressing frames -/

/-- What a format cannot serve as. -/
inductive FormatFault where
  /-- The format is not one that the factory or layout can use. -/
  | format (format : Format)
  | noPixelStride (format : Format)
  | noChroma (format : Format)
  | imageChannels (count : Nat)
  | other (text : String)
  deriving DecidableEq

namespace FormatFault

/-- The wording of a format fault. -/
def text : FormatFault → String
  | format f => f.name
  | noPixelStride f => s!"{f.name} has no single pixel stride"
  | noChroma f => s!"{f.name} has no chroma planes"
  | imageChannels count => s!"{count}-channel image data"
  | other text => text

end FormatFault

/-- What is wrong with the arguments of a frame description. -/
inductive DescriptionFault where
  | reversedCorners (x0 y0 x1 y1 : Nat)
  | zeroStride (format : Format) (row pixel : Nat)
  | imageLength (size : Size) (channels required actual : Nat)
  | other (text : String)
  deriving DecidableEq

namespace DescriptionFault

/-- The wording of a description fault. -/
def text : DescriptionFault → String
  | reversedCorners x0 y0 x1 y1 => s!"crop corners ({x0}, {y0})-({x1}, {y1}) are reversed"
  | zeroStride f row pixel => s!"{f.name} plane has a zero stride ({row}, {pixel})"
  | imageLength size channels required actual =>
    s!"expected {required} bytes for {size.text}x{channels}, got {actual}"
  | other text => text

end DescriptionFault

/-- A frame, a box or a point that cannot be described or addressed. -/
inductive FrameError where
  /-- A point outside its frame. -/
  | outOfBounds (x y : Nat) (frame : Size)
  /-- A box that leaves its frame. -/
  | invalidRegion (region : Box) (frame : Size)
  /-- A format that cannot serve. -/
  | unsupportedFormat (fault : FormatFault)
  /-- A number of planes that the named format cannot have. -/
  | planeCount (format : String) (count : Nat)
  /-- A size that no frame has. -/
  | invalidSize (size : Size) (reason : String)
  /-- A stride below the least one for rows of `width` samples. -/
  | invalidStride (stride least width : Nat)
  /-- Fewer bytes than the described samples span. -/
  | bufferTooSmall (required actual : Nat)
  /-- An argument that makes no sense. -/
  | invalidArgument (fault : DescriptionFault)
  deriving DecidableEq

namespace FrameError

/-- The wording of a frame error. -/
def message : FrameError → String
  | outOfBounds x y frame => s!"point ({x}, {y}) out of bounds for frame {frame.text}"
  | invalidRegion region frame =>
    s!"region ({region.x}, {region.y}, {region.size.text}) exceeds frame bounds {frame.text}"
  | unsupportedFormat fault => s!"unsupported format: {fault.text}"
  | planeCount format count => s!"{format} frame buffer cannot have {count} plane(s)"
  | invalidSize size reason => s!"invalid dimensions: {size.text} ({reason})"
  | invalidStride stride least width =>
    s!"stride {stride} is less than minimum {least} for width {width}"
  | bufferTooSmall required actual =>
    s!"buffer of {actual} bytes is too small, {required} bytes required"
  | invalidArgument fault => s!"invalid argument: {fault.text}"

/-- The error is about coordinates that leave a frame. -/
def isBounds : FrameError → Bool
  | outOfBounds .. | invalidRegion .. => true
  | _ => false

end FrameError

/-! ## Serving requests -/

/-- What is wrong with a request. -/
inductive RequestFault where
  /-- Corners of a normalized box, as bit patterns, one of them negative or not finite. -/
  | normalizedBox (left top right bottom : UInt32)
  | tensorLength (actual expected : Nat)
  | noPlane
  | zeroStride
  | planeCount (format : Format) (count : Nat)
  | emptyFrame (size : Size)
  | incompatible (input output : Format)
  | rotationAngle (degrees : Nat)
  | rotatedSize (output expected : Size)
  | cropCorners (x0 y0 x1 y1 : Nat) (frame : Size)
  | flippedSize
  | sameFormat (format : Format)
  | convertedSize
  | emptyView (width height channels : Nat)
  | viewChannels (asked held : Nat)
  | emptyCrop
  | cropOverflow
  | noOperations
  | normalizationCount (count : Nat)
  | normalizationMean
  | normalizationDeviation
  | normalizationMissing
  | emptyTensor
  | other (text : String)
  deriving DecidableEq

namespace RequestFault

/-- The wording of a request fault. -/
def text : RequestFault → String
  | normalizedBox left top right bottom =>
    let shown := (", ".intercalate ([left, top, right, bottom].map Decimal.text))
    s!"normalized box ({shown}) must be finite and non-negative"
  | tensorLength actual expected => s!"tensor holds {actual} values, expected {expected}"
  | noPlane => "there must be at least 1 plane"
  | zeroStride => "invalid stride information"
  | planeCount format count => s!"{format.name} buffer cannot have {count} plane(s)"
  | emptyFrame size => s!"frame dimension {size.text} must not be empty"
  | incompatible input output =>
    s!"input format {input.name} is not compatible with output format {output.name}"
  | rotationAngle degrees =>
    s!"rotation angle must be a multiple of 90 in [0, 360), got {degrees}"
  | rotatedSize output expected =>
    s!"output dimension {output.text} does not match rotated input {expected.text}"
  | cropCorners x0 y0 x1 y1 frame =>
    s!"invalid crop coordinates ({x0}, {y0})-({x1}, {y1}) for {frame.text} frame"
  | flippedSize => "input and output dimensions must match"
  | sameFormat format => s!"formats must be different, both are {format.name}"
  | convertedSize => "conversion requires equal input and output dimensions"
  | emptyView width height channels => s!"empty sample view {width}x{height}x{channels}"
  | viewChannels asked held => s!"cannot view {asked} of {held} channels"
  | emptyCrop => "crop region must not be empty"
  | cropOverflow => "crop region overflows"
  | noOperations => "operation list must not be empty"
  | normalizationCount count => s!"normalization needs 1 or 3 values, got {count}"
  | normalizationMean => "normalization mean values must be finite"
  | normalizationDeviation => "normalization std values must be positive"
  | normalizationMissing => "Float32 input tensors require normalization options"
  | emptyTensor => "tensor dimension must not be empty"
  | other text => text

end RequestFault

/-- What no transform supports. -/
inductive SupportFault where
  | unknownFormat
  | conversion (source target : Format)
  | transform (source target : Format)
  | tensorColours (format : Format)
  | other (text : String)
  deriving DecidableEq

namespace SupportFault

/-- The wording of a support fault. -/
def text : SupportFault → String
  | unknownFormat => "UNKNOWN format"
  | conversion source target => s!"conversion {source.name} -> {target.name}"
  | transform source target => s!"transform from {source.name} into {target.name}"
  | tensorColours format => s!"{format.name} input tensors, only RGB is supported"
  | other text => text

end SupportFault

/-- What is well formed and missing. -/
inductive MissingFeature where
  | grayToYuv
  | int8Tensors
  | other (text : String)
  deriving DecidableEq

namespace MissingFeature

/-- The wording of a missing feature. -/
def text : MissingFeature → String
  | grayToYuv => "conversion from GRAY to YUV"
  | int8Tensors => "Int8 input tensors"
  | other text => text

end MissingFeature

/-- Why a transform of samples fails on views that are valid on their own. -/
inductive KernelFault where
  | channels (target source : Nat)
  | window (width height x y : Nat) (source : Size)
  | sizes (source target : Size)
  | rotated (target source : Size) (degrees : Nat)
  | region (width height x y : Nat) (source : Size)
  | other (text : String)
  deriving DecidableEq

namespace KernelFault

/-- The wording of a kernel fault. -/
def text : KernelFault → String
  | channels target source => s!"{target} destination channels from {source} source channels"
  | window width height x y source =>
    s!"{width}x{height} at ({x}, {y}) exceeds {source.text} source"
  | sizes source target => s!"{source.text} source vs {target.text} destination"
  | rotated target source degrees =>
    s!"{target.text} destination for {source.text} source rotated {degrees} degrees"
  | region width height x y source =>
    s!"region {width}x{height} at ({x}, {y}) outside {source.text} source"
  | other text => text

end KernelFault

/-- How the metadata of an output disagrees with what is written into it. -/
inductive MismatchFault where
  | chain (yields output : Metadata)
  | other (text : String)
  deriving DecidableEq

namespace MismatchFault

/-- The wording of a mismatch. -/
def text : MismatchFault → String
  | chain yields output => s!"chain yields {yields.text}, output is {output.text}"
  | other text => text

end MismatchFault

/-- A request that cannot be served. -/
inductive Error where
  /-- A bad argument. -/
  | invalidArgument (fault : RequestFault)
  /-- Formats that no transform takes. -/
  | unsupported (fault : SupportFault)
  /-- A path that does not exist. -/
  | unimplemented (feature : MissingFeature)
  /-- A primitive that failed on a valid request. -/
  | backend (primitive : String) (fault : KernelFault)
  /-- An output that is not what the operations yield. -/
  | metadataMismatch (fault : MismatchFault)
  /-- A frame that cannot be described or addressed. -/
  | frame (cause : FrameError)
  deriving DecidableEq

namespace Error

/-- The wording of an error; that of a frame error is passed on as it is. -/
def message : Error → String
  | invalidArgument fault => s!"invalid argument: {fault.text}"
  | unsupported fault => s!"unsupported operation: {fault.text}"
  | unimplemented feature => s!"unimplemented: {feature.text}"
  | backend primitive fault => s!"{primitive} failed: {fault.text}"
  | metadataMismatch fault => s!"output metadata does not match pipeline result: {fault.text}"
  | frame cause => cause.message

/-- A primitive failed. -/
def isBackend : Error → Bool
  | backend .. => true
  | _ => false

/-- The path does not exist. -/
def isUnimplemented : Error → Bool
  | unimplemented _ => true
  | _ => false

/-- The request itself is at fault. -/
def isInvalidArgument : Error → Bool
  | invalidArgument _ | metadataMismatch _ | unsupported _ | frame _ => true
  | backend .. | unimplemented _ => false

end Error

/-! ## Steps that may fail -/

/-- Two steps succeed when the first does and the second does after it. -/
theorem bind_eq_ok {α β : Type} {step : Except Error α} {next : α → Except Error β} {b : β} :
    (step >>= next) = .ok b ↔ ∃ a, step = .ok a ∧ next a = .ok b := by
  constructor
  · intro h
    cases step with
    | error e => cases h
    | ok a => exact ⟨a, rfl, h⟩
  · rintro ⟨a, rfl, h⟩
    exact h

/-- A step after a check succeeds when the check does and the step does. -/
theorem check_bind_eq_ok {β : Type} {check : Except Error Unit} {next : Unit → Except Error β}
    {b : β} : (check >>= next) = .ok b ↔ check = .ok () ∧ next () = .ok b :=
  bind_eq_ok.trans ⟨fun ⟨⟨⟩, h⟩ => h, fun h => ⟨(), h⟩⟩

section

variable {α : Type} {c : Prop} [Decidable c] {a b : α} {e : Error}

/-- A last test of a condition passes where the condition holds. -/
theorem ite_ok_eq_ok : (if c then Except.ok a else .error e) = .ok b ↔ c ∧ a = b := by
  by_cases h : c <;> simp [h]

/-- A test that refuses leaves the rest where the condition does not hold. -/
theorem ite_error_eq_ok {rest : Except Error α} :
    (if c then .error e else rest) = .ok b ↔ ¬c ∧ rest = .ok b := by
  by_cases h : c <;> simp [h]

theorem ite_ok_eq_error : (∃ e', (if c then Except.ok a else .error e) = .error e') ↔ ¬c := by
  by_cases h : c <;> simp [h]

end

/-- A list of steps that all have a result without an effect has none either. -/
theorem mapM_eq_pure {m : Type → Type} [Monad m] [LawfulMonad m] {α β : Type} {step : α → m β}
    {result : α → β} {l : List α} (each : ∀ a ∈ l, step a = pure (result a)) :
    l.mapM step = pure (l.map result) := by
  induction l with
  | nil => rfl
  | cons head rest ih =>
    rw [List.mapM_cons, each head List.mem_cons_self,
      ih fun a member => each a (List.mem_cons_of_mem _ member), pure_bind, pure_bind]
    rfl

end Raster
