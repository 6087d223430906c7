/-!
# Faults

Every way in which an operation on the picture buffer can fail, by cause. `Fault.kind` tells how
far a failure reaches, `Fault.message` words it for the user.

Model of `Error` and `DpbError` (`Fault`) and of `ErrorKind` (`Fault.Kind`). The errors that carry
nothing but a text are told apart by what the text says.
-/

namespace PictureBuffer

/-- Names a slot: a layer, and an index in that layer's picture buffer. -/
structure SlotRef where
  layer : Nat
  index : Nat
  deriving DecidableEq, Repr, Inhabited

/-- The cause of a failure. -/
inductive Fault
  /-- The layer already holds a picture with this picture order count. -/
  | duplicatePoc (layer : Nat) (poc : Int)
  /-- A list entry points past the candidates. -/
  | invalidReferenceIndex (index len : Nat)
  /-- A slice that needs references has none to choose from. -/
  | zeroReferences
  /-- A reference is the current picture, or there is no room for it in its set. -/
  | duplicateOrMissingReference (poc : Int)
  /-- The picture has no lists for a slice with this index. -/
  | sliceIndexOutOfRange (index len : Nat)
  | interLayerOnBaseLayer
  | tooManyReferences (count : Nat)
  | outOfSlots (layer : Nat)
  | outOfMemory
  | outputQueueFull
  | invalidLayer (layer : Nat)
  | noActiveSps (layer : Nat)
  | noActivePps
  | noCurrentPicture
  | invalidSlot (slot : SlotRef)
  /-- The slot holds no frame. -/
  | emptySlot (slot : SlotRef)
  deriving DecidableEq, Repr

namespace Fault

/-- How far a failure reaches. -/
inductive Kind
  /-- The stream is invalid. The current picture or slice is lost. -/
  | invalidBitstream
  /-- A slot, a frame or a place in the queue could not be had. -/
  | outOfResources
  /-- The operation does not fit the state of the decoder. -/
  | internal
  deriving DecidableEq, Repr

def kind : Fault → Kind
  | duplicatePoc .. | invalidReferenceIndex .. | zeroReferences | duplicateOrMissingReference ..
  | sliceIndexOutOfRange .. | interLayerOnBaseLayer | tooManyReferences .. => .invalidBitstream
  | outOfSlots .. | outOfMemory | outputQueueFull => .outOfResources
  | invalidLayer .. | noActiveSps .. | noActivePps | noCurrentPicture | invalidSlot ..
  | emptySlot .. => .internal

private def slotText (slot : SlotRef) : String :=
  "SlotRef \x7b layer: " ++ toString slot.layer ++ ", index: " ++ toString slot.index ++ " \x7d"

def message : Fault → String
  | duplicatePoc layer poc => s!"POC {poc} is already present in the DPB of layer {layer}"
  | invalidReferenceIndex index len =>
    s!"reference index {index} is out of range for {len} candidates"
  | zeroReferences => "slice has zero reference pictures"
  | duplicateOrMissingReference poc =>
    s!"reference with POC {poc} is missing or is the current picture"
  | sliceIndexOutOfRange index len =>
    s!"slice index {index} exceeds the {len} entries of the picture's list table"
  | interLayerOnBaseLayer => "inter-layer prediction requested on the base layer"
  | tooManyReferences count => s!"slice requests {count} reference pictures"
  | outOfSlots layer => s!"DPB of layer {layer} is full"
  | outOfMemory => "could not acquire a picture buffer"
  | outputQueueFull => "output queue is full"
  | invalidLayer layer => s!"invalid layer {layer}"
  | noActiveSps layer => s!"no active SPS for layer {layer}"
  | noActivePps => "no active PPS"
  | noCurrentPicture => "no picture is being decoded"
  | invalidSlot slot => "invalid DPB slot " ++ slotText slot
  | emptySlot slot => "slot " ++ slotText slot ++ " has no frame"

end Fault

end PictureBuffer
