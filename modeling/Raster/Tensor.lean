import Raster.Engine.Preprocess

/-!
# Input tensors

A model asks for an RGB image of a fixed size, as bytes or as normalized numbers.

* `Normalization` — `(value - mean) / deviation`, for all channels or for each.
* `TensorSpecs` — what a model asks for.
* `Engine.prepareTensor` — the tensor of a frame: preprocessed where needed, then
  copied or normalized.
-/

namespace Raster

/-! ## Normalization -/

/-- Three numbers, one for each channel. -/
structure Triple where
  first : Float32
  second : Float32
  third : Float32

namespace Triple

/-- The first `count` numbers. -/
def take (t : Triple) (count : Nat) : List Float32 := [t.first, t.second, t.third].take count

/-- The number at place 0, 1 or 2. -/
def get (t : Triple) : Nat → Float32
  | 0 => t.first
  | 1 => t.second
  | _ => t.third

end Triple

/-- Means and standard deviations, of which one is shared or three are used. -/
structure Normalization where
  mean : Triple
  deviation : Triple
  count : Nat

namespace Normalization

/-- One mean and deviation for every channel. -/
def uniform (mean deviation : Float32) : Normalization where
  mean := ⟨mean, mean, mean⟩
  deviation := ⟨deviation, deviation, deviation⟩
  count := 1

/-- Checks that the means in use are finite and the deviations positive. -/
def check (n : Normalization) : Except Error Unit :=
  if n.count ≠ 1 ∧ n.count ≠ 3 then .error (.invalidArgument (.normalizationCount n.count))
  else if !(n.mean.take n.count).all (·.isFinite) then .error (.invalidArgument .normalizationMean)
  else if !(n.deviation.take n.count).all (fun d => d.isFinite && d > 0) then
    .error (.invalidArgument .normalizationDeviation)
  else .ok ()

/-- A value of element `i` of interleaved channels, normalized. -/
def apply (n : Normalization) (i : Nat) (value : UInt8) : Float32 :=
  let channel := if n.count = 1 then 0 else i % 3
  (value.toFloat32 - n.mean.get channel) / n.deviation.get channel

end Normalization

/-! ## Specifications -/

/-- The element type of a tensor. -/
inductive TensorType where
  | uint8
  | float32
  | int8
  deriving DecidableEq

/-- What a model asks for. -/
structure TensorSpecs where
  size : Size
  colours : Format
  type : TensorType
  normalization : Option Normalization

namespace TensorSpecs

/-- Checks that there are tensors of these specifications. -/
def check (s : TensorSpecs) : Except Error Unit :=
  if s.colours ≠ .rgb then .error (.unsupported (.tensorColours s.colours))
  else if s.size.isEmpty then .error (.invalidArgument .emptyTensor)
  else
    match s.type, s.normalization with
    | .float32, none => .error (.invalidArgument .normalizationMissing)
    | _, some n => n.check
    | _, none => .ok ()

/-- The metadata of the image that fills the tensor. -/
def image (s : TensorSpecs) : Metadata := ⟨s.size, .topLeft, .rgb⟩

/-- The frame is not yet the image, or the region is not all of it. -/
def needsPreprocessing (s : TensorSpecs) (f : Frame) (roi : Box) : Bool :=
  roi != .ofSize f.size || f.metadata != s.image

end TensorSpecs

/-! ## Tensors -/

/-- The elements of a tensor, channel by channel, pixel by pixel, row by row. -/
inductive Tensor where
  | uint8 (values : Bytes)
  | float32 (values : Array Float32)

namespace Tensor

/-- The number of elements. -/
def size : Tensor → Nat
  | uint8 values => values.size
  | float32 values => values.size

/-- There is no element. -/
def isEmpty (t : Tensor) : Bool := t.size == 0

end Tensor

/-- The pixels of an RGB frame without the gaps between its rows. -/
def Frame.rgbBytes (f : Frame) : Except Error Bytes :=
  let plane := f.planes.headD default
  let row := f.size.width * 3
  let required := (f.size.height - 1) * plane.stride.row + row
  if plane.bytes.size < required ∨ plane.stride.pixel ≠ 3 then
    .error (.frame (.bufferTooSmall required plane.bytes.size))
  else
    .ok (join ((List.range f.size.height).map fun y =>
      plane.bytes.extract (y * plane.stride.row) (y * plane.stride.row + row)))

/-- The pixels as elements of the wanted type. -/
def TensorSpecs.fill (s : TensorSpecs) (pixels : Bytes) : Except Error Tensor :=
  match s.type, s.normalization with
  | .float32, some n => .ok (.float32 (pixels.mapIdx n.apply))
  | .float32, none => .error (.invalidArgument .normalizationMissing)
  | _, _ => .ok (.uint8 pixels)

namespace Engine

variable {m : Type → Type} [Monad m]

/-- The pixels of the image that fills a tensor. -/
def tensorPixels (e : Engine m) (s : TensorSpecs) (roi : Box) (f : Frame) :
    m (Except Error Bytes) :=
  if s.needsPreprocessing f roi then
    match Frame.zeroed s.image with
    | .error error => pure (.error error)
    | .ok image => do
      let r ← e.preprocess (some roi) false f image
      return r.status.map fun () => r.frame.memory
  else pure f.rgbBytes

/-- The tensor of a region of a frame, or of all of it. -/
def prepareTensor (e : Engine m) (s : TensorSpecs) (roi : Option Box) (f : Frame) :
    m (Except Error Tensor) :=
  match s.check with
  | .error error => pure (.error error)
  | .ok () =>
    if s.type = .int8 then pure (.error (.unimplemented .int8Tensors))
    else do
      let pixels ← e.tensorPixels s (roi.getD (.ofSize f.size)) f
      return pixels.bind s.fill

end Engine

end Raster
