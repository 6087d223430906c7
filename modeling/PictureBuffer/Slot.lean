import PictureBuffer.Marking
import PictureBuffer.RefList
import PictureBuffer.Store

/-!
# Slots

A slot of the picture buffer holds one picture: its frame, its flags, what is to be known for
its display, and the reference lists of its slices. The lists are kept for later pictures, which
predict motion from the blocks of this one: a table of lists with one entry per slice, and for
every coding tree block the index of the entry it was decoded with.

A slot is **free** when it holds no frame. `Slot.strip` takes flags off, and a picture left with
none gives up its slot; `Slot.freed` is the frame that goes with it.

Model of `DpbSlot` (`Slot`) and `NewSlot` (`NewPicture`): `selectLists` is `select_slice_lists`,
`currentLists?` is `current_ref_lists`, and `listsAt?` is `ref_lists_at`.
-/

namespace PictureBuffer

/-- A slot of the picture buffer. -/
structure Slot where
  poc : Int := 0
  flags : Flags := {}
  frame : Option FrameId := none
  picStruct : PicStruct := .frame
  props : Props := {}
  /-- Index of the base layer's picture of the same access unit. -/
  base : Option Nat := none
  pps : Option Pps := none
  /-- One entry per slice. -/
  table : List SliceLists := []
  /-- Index in `table`, by tile scan address. -/
  blockLists : List Nat := []
  /-- Index in `table` of the slice being decoded. -/
  current : Nat := 0
  deriving DecidableEq, Inhabited

/-- A picture about to enter the buffer. -/
structure NewPicture where
  poc : Int := 0
  /-- Not empty, or the picture would leave again at once. -/
  flags : Flags := {}
  picStruct : PicStruct := .frame
  props : Props := {}
  sideData : List SideData := []
  /-- Slices of the picture, at most. -/
  numSlices : Nat := 0
  pps : Option Pps := none
  base : Option Nat := none
  deriving Inhabited

/-- The slot of a new picture, before any of its slices. -/
def NewPicture.slot (new : NewPicture) (sps : Sps) (frame : FrameId) : Slot where
  poc := new.poc
  flags := new.flags
  frame := some frame
  picStruct := new.picStruct
  props := new.props
  base := new.base
  pps := new.pps
  table := List.replicate (max 1 new.numSlices) {}
  blockLists := List.replicate sps.ctbCount 0

namespace Slot

def isFree (slot : Slot) : Bool := slot.frame.isNone

/-! ## Flags -/

/-- The slot with `mask` taken off its flags. A picture left with none gives up the slot, which
remembers nothing but the picture order count. -/
def strip (mask : Flags) (slot : Slot) : Slot :=
  let flags := slot.flags.without mask
  if flags.isEmpty && !slot.isFree then { poc := slot.poc } else { slot with flags }

/-- The frame given up by `strip mask`. -/
def freed (mask : Flags) (slot : Slot) : Option FrameId :=
  if (slot.flags.without mask).isEmpty then slot.frame else none

/-- What `strip` leaves are the old flags without `mask`. -/
theorem flags_strip (mask : Flags) (slot : Slot) :
    (slot.strip mask).flags = slot.flags.without mask := by
  unfold strip
  dsimp only
  split
  · rename_i h
    have he : (slot.flags.without mask).isEmpty = true := (Bool.and_eq_true_iff.mp h).1
    generalize slot.flags.without mask = flags at he
    obtain ⟨a, b, c, e⟩ := flags
    cases a <;> cases b <;> cases c <;> cases e <;> first | rfl | cases he
  · rfl

/-- The slot with its reference marking replaced, if it holds a picture. -/
def mark (marking : Marking) (slot : Slot) : Slot :=
  if slot.isFree then slot
  else { slot with flags := (slot.flags.without .references).union marking.flags }

/-! ## Reference lists -/

/-- From block `first` on, the picture uses the lists of slice `slice`, which become the current
ones. -/
def selectLists (slot : Slot) (slice first : Nat) : Except Fault Slot :=
  if slice < slot.table.length then
    .ok { slot with
      blockLists := slot.blockLists.mapIdx fun block old => if first ≤ block then slice else old
      current := slice }
  else .error (.sliceIndexOutOfRange slice slot.table.length)

/-- The lists of the slice being decoded. -/
def currentLists? (slot : Slot) : Option SliceLists := slot.table[slot.current]?

/-- The lists of the slice being decoded, replaced. -/
def setCurrentLists (slot : Slot) (lists : SliceLists) : Slot :=
  { slot with table := slot.table.set slot.current lists }

/-- The lists that the block with tile scan address `block` was decoded with. -/
def listsAt? (slot : Slot) (block : Nat) : Option SliceLists :=
  slot.blockLists[block]?.bind (slot.table[·]?)

end Slot

end PictureBuffer
