/-!
# Sample formats

How the samples of a decoded picture are stored: the number of planes, how much smaller a
chroma plane is than the luma plane in each direction, and the bytes one element takes.

Plane `0` is luma. The chroma planes follow it: one plane of interleaved pairs in `nv12`, two
separate planes in every other format.

Model of `DecodedFormat`.
-/

namespace PictureBuffer

/-- How the samples of a picture are stored. The digits of a planar format give its chroma
subsampling (`4:2:0`, `4:2:2`, `4:4:4`) and its bit depth. -/
inductive Format
  /-- Luma and one plane of interleaved chroma pairs, 4:2:0, 8 bits. -/
  | nv12
  /-- Planar 4:2:0, 8 bits. -/
  | i420
  /-- Planar 4:2:2, 8 bits. -/
  | i422
  /-- Planar 4:4:4, 8 bits. -/
  | i444
  /-- Planar 4:2:0, 10 bits in little-endian words. -/
  | i010
  /-- Planar 4:2:0, 12 bits in little-endian words. -/
  | i012
  /-- Planar 4:2:2, 10 bits in little-endian words. -/
  | i210
  /-- Planar 4:2:2, 12 bits in little-endian words. -/
  | i212
  /-- Planar 4:4:4, 10 bits in little-endian words. -/
  | i410
  /-- Planar 4:4:4, 12 bits in little-endian words. -/
  | i412
  deriving DecidableEq, Repr, Inhabited

namespace Format

def numPlanes : Format → Nat
  | nv12 => 2
  | _ => 3

/-- Significant bits of a sample. -/
def bitDepth : Format → Nat
  | nv12 | i420 | i422 | i444 => 8
  | i010 | i210 | i410 => 10
  | i012 | i212 | i412 => 12

/-- Luma columns covered by one element of `plane`. -/
def horizontalSubsampling (format : Format) (plane : Nat) : Nat :=
  if plane = 0 then 1
  else match format with
    | i444 | i410 | i412 => 1
    | _ => 2

/-- Luma rows covered by one element of `plane`. -/
def verticalSubsampling (format : Format) (plane : Nat) : Nat :=
  if plane = 0 then 1
  else match format with
    | nv12 | i420 | i010 | i012 => 2
    | _ => 1

/-- Bytes of one element of `plane`. An element of the interleaved plane is a chroma pair. -/
def bytesPerElement (format : Format) (plane : Nat) : Nat :=
  match format with
  | i420 | i422 | i444 => 1
  | nv12 => if plane = 0 then 1 else 2
  | _ => 2

/-- Samples are stored as 16-bit words rather than bytes. -/
def isHighBitDepth (format : Format) : Bool :=
  decide (8 < format.bitDepth)

end Format

end PictureBuffer
