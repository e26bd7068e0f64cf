import Raster.Frame.Canvas
import Raster.Samples.Kernel

/-!
# Colour conversion

YUV is limited range: luma from 16 to 235, chroma around 128. Gray is luma of
full range. All weights are integers over 256, and shares are rounded.

| from \ to | rgb, rgba           | gray          | yuv                           |
|-----------|---------------------|---------------|-------------------------------|
| rgb, rgba | channels copied     | weighted luma | chroma from means of 2×2 block |
| gray      | replicated, opaque  |               | none                          |
| yuv       | each pixel          | luma copied   | grids copied                  |

* `grayOfRgb`, `lumaOfRgb`, `blueOfRgb`, `redOfRgb`, `rgbOfYuv` — single colours.
* `Samples.…` — grids of samples.
* `Picture.converted` — all grids of a frame.
-/

namespace Raster

/-! ## Single colours -/

/-- The nearest byte. -/
def clampByte (v : Int) : UInt8 := UInt8.ofNat (min v.toNat 255)

/-- Luminance of full range. -/
def grayOfRgb (r g b : UInt8) : UInt8 :=
  UInt8.ofNat ((77 * r.toNat + 150 * g.toNat + 29 * b.toNat + 128) / 256)

/-- A weighted sum of three bytes in 1/256, rounded. -/
def weighted (wr wg wb : Int) (r g b : UInt8) : Int :=
  (wr * r.toNat + wg * g.toNat + wb * b.toNat + 128) / 256

/-- Luma of limited range. -/
def lumaOfRgb (r g b : UInt8) : UInt8 := clampByte (weighted 66 129 25 r g b + 16)

/-- The blue-difference chroma U. -/
def blueOfRgb (r g b : UInt8) : UInt8 := clampByte (weighted (-38) (-74) 112 r g b + 128)

/-- The red-difference chroma V. -/
def redOfRgb (r g b : UInt8) : UInt8 := clampByte (weighted 112 (-94) (-18) r g b + 128)

/-- A colour of three channels. -/
structure Rgb where
  r : UInt8
  g : UInt8
  b : UInt8
  deriving DecidableEq

/-- Channel 0, 1 or 2 of a colour, and opaque alpha after them. -/
def Rgb.channel (colour : Rgb) : Nat → UInt8
  | 0 => colour.r
  | 1 => colour.g
  | 2 => colour.b
  | _ => 255

/-- Red, green and blue of a limited-range YUV colour. -/
def rgbOfYuv (y u v : UInt8) : Rgb :=
  let c : Int := 298 * (y.toNat - 16)
  let d : Int := u.toNat - 128
  let e : Int := v.toNat - 128
  { r := clampByte ((c + 409 * e + 128) / 256)
    g := clampByte ((c - 100 * d - 208 * e + 128) / 256)
    b := clampByte ((c + 516 * d + 128) / 256) }

/-! ## Grids -/

namespace Samples

/-- The colour of a pixel of three or four channels. -/
def rgb (s : Samples) (x y : Nat) : Rgb := ⟨s.value x y 0, s.value x y 1, s.value x y 2⟩

/-- A packed grid with the channels of another packed format: one channel from
the luminance of three or four, or three equal ones from one. -/
def repacked (source : Samples) (target : Extent) : Samples where
  toExtent := target
  value x y c :=
    if 3 ≤ source.channels then
      if target.channels = 1 then
        let colour := source.rgb x y
        grayOfRgb colour.r colour.g colour.b
      else source.opaqueValue x y c
    else if c < 3 then source.value x y 0
    else 255

/-- The colours of a luma grid and two chroma grids of half its size. -/
def coloured (y u v : Samples) (target : Extent) : Samples where
  toExtent := target
  value px py c :=
    let colour := rgbOfYuv (y.value px py 0) (u.value (px / 2) (py / 2) 0)
      (v.value (px / 2) (py / 2) 0)
    colour.channel c

/-- The luma of a packed colour grid. -/
def luma (source : Samples) (target : Extent) : Samples where
  toExtent := target
  value x y _ :=
    let colour := source.rgb x y
    lumaOfRgb colour.r colour.g colour.b

/-- The rounded mean of a channel over the block of up to 2×2 pixels at
`(2 * cx, 2 * cy)`; at the edges the last column or row counts twice. -/
def blockMean (source : Samples) (channel cx cy : Nat) : UInt8 :=
  let x0 := 2 * cx
  let y0 := 2 * cy
  let x1 := min (x0 + 1) (source.width - 1)
  let y1 := min (y0 + 1) (source.height - 1)
  let sum := (source.value x0 y0 channel).toNat + (source.value x1 y0 channel).toNat +
    (source.value x0 y1 channel).toNat + (source.value x1 y1 channel).toNat
  UInt8.ofNat ((sum + 2) / 4)

/-- The chroma of a packed colour grid: `chroma` of the mean colour of each block. -/
def chroma (chromaOf : (r g b : UInt8) → UInt8) (source : Samples) (target : Extent) : Samples where
  toExtent := target
  value cx cy _ :=
    chromaOf (source.blockMean 0 cx cy) (source.blockMean 1 cx cy) (source.blockMean 2 cx cy)

end Samples

/-! ## Pictures -/

/-- New values for one grid of a frame, or the reason why there are none. -/
abbrev Stroke := Component × Except Error Samples

/-- The strokes that turn a picture into one with the given places, which may
belong to another format. -/
def Picture.converted (source : Picture) (target : Components) : List Stroke :=
  match source, target with
  | .packed pixels, .packed place => [(place, .ok (pixels.repacked place.extent))]
  | .yuv y u v, .packed place =>
    if place.extent.channels = 1 then [(place, y.copyRegion 0 0 place.extent)]
    else [(place, .ok (.coloured y u v place.extent))]
  | .packed pixels, .yuv py pu pv =>
    if pixels.channels < 3 then [(py, .error (.unimplemented .grayToYuv))]
    else
      [(py, .ok (pixels.luma py.extent)), (pu, .ok (pixels.chroma blueOfRgb pu.extent)),
        (pv, .ok (pixels.chroma redOfRgb pv.extent))]
  | .yuv y u v, .yuv py pu pv =>
    [(py, y.copyRegion 0 0 py.extent), (pu, u.copyRegion 0 0 pu.extent),
      (pv, v.copyRegion 0 0 pv.extent)]

end Raster
