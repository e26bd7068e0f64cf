import Raster.Frame.Basic

/-!
# Preconditions of transforms

Each check looks at metadata only, and a transform runs its check before it
touches the output. So a request that is refused here leaves the output as it is.
-/

namespace Raster

/-! ## Frames -/

/-- Checks that there is a plane and that no stride is zero. -/
def checkPlanes (planes : List Plane) : Except Error Unit :=
  if planes.isEmpty then .error (.invalidArgument .noPlane)
  else if planes.any (·.stride.hasZero) then .error (.invalidArgument .zeroStride)
  else .ok ()

/-- Checks that a format is known and may have so many planes. -/
def checkFormat (format : Format) (planeCount : Nat) : Except Error Unit :=
  if format = .unknown then .error (.unsupported .unknownFormat)
  else if format.acceptsPlaneCount planeCount then .ok ()
  else .error (.invalidArgument (.planeCount format planeCount))

/-- Checks that a frame has pixels. -/
def checkNotEmpty (size : Size) : Except Error Unit :=
  if size.isEmpty then .error (.invalidArgument (.emptyFrame size)) else .ok ()

/-- Checks both frames of a transform. -/
def checkFrames (input output : Frame) : Except Error Unit := do
  checkPlanes input.planes
  checkFormat input.format input.planes.length
  checkFormat output.format output.planes.length
  checkNotEmpty input.size
  checkNotEmpty output.size

/-- Checks both frames of a transform that converts no colours. -/
def checkCompatible (input output : Frame) : Except Error Unit := do
  checkFrames input output
  if input.format.compatible output.format then .ok ()
  else .error (.invalidArgument (.incompatible input.format output.format))

@[simp] theorem checkPlanes_frame (f : Frame) : checkPlanes f.planes = .ok () := by
  have nonempty : f.planes ≠ [] := by
    intro h
    have accepted := f.accepts_count
    rw [h] at accepted
    revert accepted
    cases f.format <;> decide
  have strides : ¬ ∃ plane ∈ f.planes, plane.stride.hasZero = true := by
    rintro ⟨plane, member, zero⟩
    rw [f.strides_positive plane member] at zero
    exact absurd zero (by decide)
  simp [checkPlanes, nonempty, strides]

@[simp] theorem checkFormat_frame (f : Frame) : checkFormat f.format f.planes.length = .ok () := by
  simp [checkFormat, f.format_ne_unknown, f.accepts_count]

/-! ## Transforms -/

/-- Checks a resize. -/
def checkResize (input output : Frame) : Except Error Unit := checkCompatible input output

/-- Checks a counter-clockwise rotation by an angle, and the size of its output. -/
def checkRotate (input output : Frame) (degrees : Nat) : Except Error Unit := do
  checkCompatible input output
  let rotated := if degrees % 180 = 90 then input.size.swapped else input.size
  if 360 ≤ degrees ∨ degrees % 90 ≠ 0 then .error (.invalidArgument (.rotationAngle degrees))
  else if output.size = rotated then .ok ()
  else .error (.invalidArgument (.rotatedSize output.size rotated))

/-- Checks a crop between two inclusive corners. The output may have any size. -/
def checkCrop (input output : Frame) (x0 y0 x1 y1 : Nat) : Except Error Unit := do
  checkCompatible input output
  if x0 ≤ x1 ∧ x1 < input.size.width ∧ y0 ≤ y1 ∧ y1 < input.size.height then .ok ()
  else .error (.invalidArgument (.cropCorners x0 y0 x1 y1 input.size))

/-- Checks a flip. -/
def checkFlip (input output : Frame) : Except Error Unit := do
  checkCompatible input output
  if input.size = output.size then .ok () else .error (.invalidArgument .flippedSize)

/-- Checks that one format can be converted to the other. -/
def checkConversion (source target : Format) : Except Error Unit :=
  if source = target then .error (.invalidArgument (.sameFormat source))
  else if source = .unknown ∨ target = .unknown then
    .error (.unsupported (.conversion source target))
  else .ok ()

/-- Checks a colour conversion. -/
def checkConvert (input output : Frame) : Except Error Unit := do
  checkFrames input output
  checkConversion input.format output.format
  if input.size = output.size then .ok () else .error (.invalidArgument .convertedSize)

end Raster
