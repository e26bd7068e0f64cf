/-!
# Pixel formats

| format         | planes | storage                                  |
|----------------|--------|------------------------------------------|
| `rgba`         | 1      | four bytes a pixel                       |
| `rgb`          | 1      | three bytes a pixel                      |
| `gray`         | 1      | one byte a pixel                         |
| `nv12`, `nv21` | 2      | luma, then interleaved chroma (UV or VU) |
| `yv12`, `yv21` | 3      | luma, then the chroma planes (VU or UV)  |

The four YUV formats halve both sides of the chroma grid and may also be stored
in one plane, chroma after luma.
-/

namespace Raster

/-- How the samples of a frame are encoded. -/
inductive Format where
  /-- Red, green, blue and alpha bytes. -/
  | rgba
  /-- Red, green and blue bytes. -/
  | rgb
  /-- Luma, and chroma interleaved with U first. -/
  | nv12
  /-- Luma, and chroma interleaved with V first. -/
  | nv21
  /-- Luma, then a V plane, then a U plane. -/
  | yv12
  /-- Luma, then a U plane, then a V plane. -/
  | yv21
  /-- Luminance bytes. -/
  | gray
  /-- A format nobody recognised; no frame has it. -/
  | unknown
  deriving DecidableEq

namespace Format

instance : Inhabited Format := ⟨unknown⟩

/-- The formats with luma and subsampled chroma. -/
def isYuv : Format → Bool
  | nv12 | nv21 | yv12 | yv21 => true
  | _ => false

/-- The formats with interleaved chroma. -/
def isSemiPlanar : Format → Bool
  | nv12 | nv21 => true
  | _ => false

/-- The formats that store all channels of a pixel side by side. -/
def isPacked : Format → Bool
  | rgba | rgb | gray => true
  | _ => false

/-- Bytes a pixel of a packed format takes. -/
def channels : Format → Option Nat
  | rgba => some 4
  | rgb => some 3
  | gray => some 1
  | _ => none

/-- The number of planes of the canonical layout. -/
def canonicalPlaneCount : Format → Nat
  | rgba | rgb | gray => 1
  | nv12 | nv21 => 2
  | yv12 | yv21 => 3
  | unknown => 0

/-- The plane counts a frame of this format may have. -/
def acceptsPlaneCount (format : Format) (count : Nat) : Bool :=
  match format with
  | rgba | rgb | gray => count == 1
  | nv12 | nv21 => count == 1 || count == 2 || count == 3
  | yv12 | yv21 => count == 1 || count == 3
  | unknown => false

/-- The first chroma plane of a three-plane frame is U. -/
def uPlaneFirst : Format → Bool
  | nv12 | yv21 => true
  | _ => false

/-- Reading one format as the other needs no colour conversion: they are the
same, differ in alpha only, or are both YUV. -/
def compatible (a b : Format) : Bool :=
  a == b || (a == rgba && b == rgb) || (a == rgb && b == rgba) || (a.isYuv && b.isYuv)

/-- The short upper-case name. -/
def name : Format → String
  | rgba => "RGBA"
  | rgb => "RGB"
  | nv12 => "NV12"
  | nv21 => "NV21"
  | yv12 => "YV12"
  | yv21 => "YV21"
  | gray => "GRAY"
  | unknown => "UNKNOWN"

/-- The name as a capitalised word. -/
def title : Format → String
  | rgba => "Rgba"
  | rgb => "Rgb"
  | nv12 => "Nv12"
  | nv21 => "Nv21"
  | yv12 => "Yv12"
  | yv21 => "Yv21"
  | gray => "Gray"
  | unknown => "Unknown"

theorem ne_unknown_of_acceptsPlaneCount {format : Format} {count : Nat}
    (h : format.acceptsPlaneCount count = true) : format ≠ unknown := by
  rintro rfl
  exact absurd h (by simp [acceptsPlaneCount])

theorem isYuv_eq_channels_isNone {format : Format} (h : format ≠ unknown) :
    format.isYuv = format.channels.isNone := by
  cases format <;> first | rfl | exact absurd rfl h

theorem acceptsPlaneCount_one {format : Format} (h : format ≠ unknown) :
    format.acceptsPlaneCount 1 = true := by
  cases format <;> first | rfl | exact absurd rfl h

theorem compatible_refl (format : Format) : format.compatible format = true := by
  cases format <;> rfl

end Format

end Raster
