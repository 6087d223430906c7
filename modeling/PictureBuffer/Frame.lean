import PictureBuffer.Params

/-!
# Frames

A frame is the storage of one picture: its planes, the side data that travels with them, and how
far its production has come. Production ends once, as produced or as cancelled, and what it
ended as stays (`Progress.settle`).

Model of `Frame`, `Progress`, `SideData` and `FrameProps` (`Props`). `Progress.settle` is `set`, on
which `mark_produced` and `cancel` rest, `awaited?` is `await_produced`, and `Frame.fillNeutral` is
`fill_neutral`.
-/

namespace PictureBuffer

/-- How far the production of a frame has come. -/
inductive Progress
  | pending
  | produced
  /-- It will never be produced. -/
  | cancelled
  deriving DecidableEq, Repr, Inhabited

namespace Progress

/-- Ends a pending production as `outcome`; one that has ended stays as it is. -/
def settle (progress outcome : Progress) : Progress :=
  match progress with
  | pending => outcome
  | ended => ended

/-- What a wait for the frame answers: whether it was produced, or nothing while the wait
lasts. -/
def awaited? : Progress → Option Bool
  | pending => none
  | produced => some true
  | cancelled => some false

end Progress

/-- The eye that a view is meant for. -/
inductive Eye
  | left
  | right
  | unspecified
  deriving DecidableEq, Repr, Inhabited

/-- Data that travels with the samples of a frame. -/
inductive SideData
  /-- The view that the frame belongs to. -/
  | view (id : Nat)
  /-- The part of a stereoscopic pair that the frame is. -/
  | stereo (eye : Eye)
  deriving DecidableEq, Repr

/-- How a picture is to be displayed. -/
structure Props where
  interlaced : Bool := false
  topFieldFirst : Bool := false
  /-- Extra field periods for which the picture is shown. -/
  repeats : Nat := 0
  crop : Crop := {}
  /-- Display duration, in the time base of the packets. -/
  duration : Option Int := none
  deriving DecidableEq, Repr, Inhabited

/-- The storage of a picture. -/
structure Frame where
  layout : Layout
  planes : List ByteArray
  sideData : List SideData := []
  progress : Progress := .pending

namespace Frame

/-- A frame of no size and no planes. -/
def empty : Frame := ⟨⟨.i420, 0, 0, []⟩, [], [], .pending⟩

/-- A plane of `size` bytes, all equal to `value`. -/
def flatPlane (size : Nat) (value : UInt8) : ByteArray := ⟨Array.replicate size value⟩

/-- A pending frame of zeros. -/
def blank (layout : Layout) : Frame where
  layout
  planes := layout.planes.map fun plane => flatPlane plane.size 0

def addSideData (frame : Frame) (data : SideData) : Frame :=
  { frame with sideData := frame.sideData ++ [data] }

def clearSideData (frame : Frame) : Frame := { frame with sideData := [] }

def produce (frame : Frame) : Frame :=
  { frame with progress := frame.progress.settle .produced }

def cancel (frame : Frame) : Frame :=
  { frame with progress := frame.progress.settle .cancelled }

/-- Every byte computed from its plane, its row and its column. -/
def render (sample : Nat → Nat → Nat → UInt8) (frame : Frame) : Frame :=
  { frame with
    planes := frame.planes.mapIdx fun p plane =>
      let pitch := (frame.layout.planes[p]?.map (·.pitch)).getD 0
      ⟨plane.data.mapIdx fun offset _ => sample p (offset / pitch) (offset % pitch)⟩ }

/-- One byte of a plane replaced, if the plane has it. -/
def write? (frame : Frame) (plane offset : Nat) (value : UInt8) : Option Frame :=
  match frame.planes[plane]? with
  | none => none
  | some bytes =>
    if offset < bytes.size then
      some { frame with planes := frame.planes.set plane ⟨bytes.data.setIfInBounds offset value⟩ }
    else none

/-! ## The neutral picture -/

/-- The middle of the range of `bitDepth`-bit samples. A depth outside `1` to `16` counts as the
nearest of the two. -/
def neutral (bitDepth : Nat) : Nat := 1 <<< (min 16 (max 1 bitDepth) - 1)

/-- A plane of equal bytes, its size kept. -/
def fillBytes (value : Nat) (plane : ByteArray) : ByteArray :=
  flatPlane plane.size (UInt8.ofNat value)

/-- A plane of equal little-endian words. An odd last byte is no word and stays. -/
def fillWords (value : Nat) (plane : ByteArray) : ByteArray :=
  ⟨plane.data.mapIdx fun offset old =>
    if plane.size ≤ offset / 2 * 2 + 1 then old
    else if offset % 2 = 0 then UInt8.ofNat value
    else UInt8.ofNat (value / 256)⟩

/-- Every sample set to the middle of the range of `bitDepth` bits. -/
def fillNeutral (bitDepth : Nat) (frame : Frame) : Frame :=
  let fill := if frame.layout.format.isHighBitDepth then fillWords else fillBytes
  { frame with planes := frame.planes.map (fill (neutral bitDepth)) }

end Frame

end PictureBuffer
