import PictureBuffer.Format
import PictureBuffer.Words

/-!
# Plane layouts

A plane is `rows` lines of `pitch` bytes. `Layout.unpadded` is the smallest layout that holds a
picture: a chroma plane covers the luma size rounded **up** to whole chroma elements, so that an
odd size loses nothing.

Model of `PlaneLayout` (`PlaneGeometry`) and `FrameLayout` (`Layout`), which is made by `unpadded`.
`roundUp?` is `align_up`.

Out of scope: running out of memory, and planes of more bytes than a word can count. What has a size
is taken to fit.
-/

namespace PictureBuffer

/-- Rounds `value` up to the next multiple of `alignment`. -/
def roundUp (value alignment : Nat) : Nat :=
  (value + alignment - 1) / alignment * alignment

/-- Rounds up as `roundUp` does, in words of 64 bits; there are no multiples of zero to round
to. -/
def roundUp? (value alignment : Nat) : Option Nat :=
  if alignment = 0 then none else some (wrap 64 (roundUp value alignment))

/-- The geometry of one plane. The pitch is measured in bytes. -/
structure PlaneGeometry where
  pitch : Nat
  rows : Nat
  deriving DecidableEq, Repr, Inhabited

/-- Bytes of a plane. -/
def PlaneGeometry.size (plane : PlaneGeometry) : Nat :=
  plane.pitch * plane.rows

/-- The memory layout of a picture: its format, its visible size in luma samples and the
geometry of each plane. -/
structure Layout where
  format : Format
  width : Nat
  height : Nat
  planes : List PlaneGeometry
  deriving DecidableEq, Repr, Inhabited

namespace Layout

/-- The geometry of `plane` without padding. -/
def unpaddedPlane (format : Format) (width height plane : Nat) : PlaneGeometry where
  pitch := roundUp width (format.horizontalSubsampling plane)
    / format.horizontalSubsampling plane * format.bytesPerElement plane
  rows := roundUp height (format.verticalSubsampling plane)
    / format.verticalSubsampling plane

/-- The layout without padding of a `format` picture of the given size. -/
def unpadded (format : Format) (width height : Nat) : Layout where
  format
  width
  height
  planes := (List.range format.numPlanes).map (unpaddedPlane format width height)

end Layout

end PictureBuffer
