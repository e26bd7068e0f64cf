import Raster.Frame.Basic

/-!
# Frames over given memory

The factories check that the bytes they are given hold the described samples.

* `Frame.ofBuffer` — one contiguous buffer in the canonical layout of its format.
* `Frame.ofPacked`, `Frame.ofPackedRows` — the pixels of a packed format, with or
  without gaps between rows and pixels.
* `Frame.ofYuv` — separate luma and chroma buffers.
* `DecodedImage` — the tightly packed pixels that image decoders hand over.
-/

namespace Raster

/-! ## One contiguous buffer -/

/-- A buffer split into the planes of the canonical layout. -/
def splitPlanes (bytes : Bytes) (size : Size) (format : Format) : Except Error (List Plane) :=
  let required := byteSize size format
  if bytes.size < required then .error (.frame (.bufferTooSmall required bytes.size))
  else do
    let layout ← planeLayout size format
    cutPlanes bytes layout

/-- The frame whose planes lie back to back in one buffer. -/
def Frame.ofBuffer (bytes : Bytes) (m : Metadata) : Except Error Frame :=
  if m.size.isEmpty then .error (.frame (.invalidSize m.size emptyFrameReason))
  else do
    let planes ← splitPlanes bytes m.size m.format
    Frame.ofPlanes planes m.size m.format m.orientation

/-- A frame of zero bytes in the canonical layout. -/
def Frame.zeroed (m : Metadata) : Except Error Frame :=
  Frame.ofBuffer (.replicate (byteSize m.size m.format) 0) m

/-! ## Packed pixels -/

/-- The bytes from the first to the last sample of a grid, both included. -/
def spannedBytes (size : Size) (stride : Stride) (channels : Nat) : Nat :=
  if size.isEmpty then 0
  else (size.height - 1) * stride.row + (size.width - 1) * stride.pixel + channels

/-- Checks that rows of whole pixels fit their stride and the buffer. -/
def checkPacked (bytes : Bytes) (size : Size) (stride : Stride) (channels : Nat) :
    Except Error Unit :=
  let leastRow := size.width * stride.pixel
  let required := spannedBytes size stride channels
  if stride.pixel < channels then
    .error (.frame (.invalidStride stride.pixel channels size.width))
  else if stride.row < leastRow then
    .error (.frame (.invalidStride stride.row leastRow size.width))
  else if bytes.size < required then .error (.frame (.bufferTooSmall required bytes.size))
  else .ok ()

/-- A packed frame with an explicit stride. -/
def Frame.ofPackedRows (bytes : Bytes) (size : Size) (format : Format) (stride : Stride)
    (orientation : Orientation) : Except Error Frame :=
  match format.channels with
  | none => .error (.frame (.unsupportedFormat (.format format)))
  | some channels => do
    checkPacked bytes size stride channels
    Frame.ofPlanes [⟨bytes, stride⟩] size format orientation

/-- A packed frame without gaps. -/
def Frame.ofPacked (bytes : Bytes) (size : Size) (format : Format) (orientation : Orientation) :
    Except Error Frame :=
  Frame.ofPackedRows bytes size format (.packed size.width (format.channels.getD 0)) orientation

/-! ## Luma and chroma buffers -/

/-- Buffers of the three components of a YUV picture. Interleaved chroma is given
as two overlapping buffers with a pixel stride of two. -/
structure YuvBuffers where
  y : Bytes
  u : Bytes
  v : Bytes
  lumaRow : Nat
  chroma : Stride

/-- Luma and chroma planes, chroma in the order of the format. -/
def YuvBuffers.planes (b : YuvBuffers) (format : Format) : List Plane :=
  let u : Plane := ⟨b.u, b.chroma⟩
  let v : Plane := ⟨b.v, b.chroma⟩
  ⟨b.y, ⟨b.lumaRow, 1⟩⟩ :: if format.uPlaneFirst then [u, v] else [v, u]

/-- Checks that a component fits its buffer. -/
def checkSpan (bytes : Bytes) (size : Size) (stride : Stride) : Except Error Unit :=
  let required := spannedBytes size stride 1
  if bytes.size < required then .error (.frame (.bufferTooSmall required bytes.size))
  else .ok ()

/-- A frame of one luma and two chroma planes. -/
def Frame.ofYuv (b : YuvBuffers) (size : Size) (format : Format) (orientation : Orientation) :
    Except Error Frame := do
  let half ← chromaSize size format
  if b.lumaRow < size.width then .error (.frame (.invalidStride b.lumaRow size.width size.width))
  else
    checkSpan b.y size ⟨b.lumaRow, 1⟩
    checkSpan b.u half b.chroma
    checkSpan b.v half b.chroma
    Frame.ofPlanes (b.planes format) size format orientation

/-! ## Decoded images -/

/-- Row-major pixels without gaps, `channels` bytes each. -/
structure DecodedImage where
  pixels : Bytes
  size : Size
  channels : Nat

namespace DecodedImage

/-- An image from pixels; their number has to be exact. -/
def ofPixels (pixels : Bytes) (size : Size) (channels : Nat) : Except Error DecodedImage :=
  let required := size.area * channels
  if pixels.size = required then .ok ⟨pixels, size, channels⟩
  else .error (.frame (.invalidArgument (.imageLength size channels required pixels.size)))

/-- The packed format with as many channels. -/
def format (image : DecodedImage) : Except Error Format :=
  match image.channels with
  | 1 => .ok .gray
  | 3 => .ok .rgb
  | 4 => .ok .rgba
  | n => .error (.frame (.unsupportedFormat (.imageChannels n)))

/-- The image as a frame. -/
def frame (image : DecodedImage) (orientation : Orientation) : Except Error Frame := do
  let format ← image.format
  Frame.ofPacked image.pixels image.size format orientation

end DecodedImage

end Raster
