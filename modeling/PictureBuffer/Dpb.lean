import PictureBuffer.Slot

/-!
# The decoded picture buffer of a layer

A fixed number of slots, each free or holding a picture. A picture enters the lowest free slot
and leaves it when its last flag goes.

The buffer owns one handle to the frame of each slot. Operations by which pictures may leave
therefore take the frame store along: `strip` for one slot, `stripWhere` for all slots that
satisfy a condition.

A picture is looked up by its picture order count (`find?`), in full or by its low bits only.

Model of `Dpb`:

* `insert` is `alloc`, and `insertStandIn` is `generate_missing_ref`;
* `holds` is `contains_poc`, and `find?` is `find_ref_idx`, with `Lookup.full` where it is to
  compare all bits and `Lookup.low` where it is to compare the low ones;
* `mark` is `mark_ref`, `strip` is `unref`, `unmarkAll` is `clear_refs`, `removeStandIns` is
  `unref_missing_refs`, `sweep` is `release_unused`, and `clear` is `flush`.
-/

namespace PictureBuffer

/-- The decoded picture buffer of one layer. -/
structure Dpb where
  layer : Nat
  slots : List Slot
  deriving DecidableEq, Inhabited

/-- The low `bits` bits of `poc` in two's complement. -/
def pocLsb (bits : Nat) (poc : Int) : Int :=
  (BitVec.ofInt 32 poc &&& BitVec.ofNat 32 (shiftedOne 32 bits - 1)).toInt

namespace Dpb

/-- A buffer of free slots. -/
def empty (layer capacity : Nat) : Dpb := ⟨layer, List.replicate capacity {}⟩

def capacity (dpb : Dpb) : Nat := dpb.slots.length

def slot? (dpb : Dpb) (index : Nat) : Option Slot := dpb.slots[index]?

def modify (dpb : Dpb) (index : Nat) (f : Slot → Slot) : Dpb :=
  { dpb with slots := dpb.slots.modify index f }

/-- The frames held by the slots, one handle each. -/
def frames (dpb : Dpb) : List FrameId := dpb.slots.filterMap (·.frame)

/-- Slots that have flags. -/
def numInUse (dpb : Dpb) : Nat := dpb.slots.countP fun slot => !slot.flags.isEmpty

/-- Some slot holds a picture with this picture order count. -/
def holds (dpb : Dpb) (poc : Int) : Bool :=
  dpb.slots.any fun slot => !slot.isFree && slot.poc == poc

/-- How a reference names a picture: by its picture order count, or by the low `bits` bits of
it, which never name the picture with order count `current`. -/
inductive Lookup
  | full
  | low (bits : Nat) (current : Int)
  deriving DecidableEq, Repr

/-- The picture with order count `poc` is the one named by `target`. -/
def Lookup.names (lookup : Lookup) (target poc : Int) : Bool :=
  match lookup with
  | full => poc == target
  | low bits current => pocLsb bits poc == target && poc != current

/-- The lowest slot with a picture named by `target`. -/
def find? (dpb : Dpb) (lookup : Lookup) (target : Int) : Option Nat :=
  dpb.slots.findIdx? fun slot => !slot.isFree && lookup.names target slot.poc

/-! ## Pictures entering -/

/-- Puts a new picture into the lowest free slot. Fails without a trace in the buffer if there
is none, or if no frame can be had for the picture. -/
def insert (dpb : Dpb) (store : Store) (sps : Sps) (new : NewPicture) :
    Except Fault Nat × Dpb × Store :=
  match dpb.slots.findIdx? (·.isFree) with
  | none => (.error (.outOfSlots dpb.layer), dpb, store)
  | some index =>
    match store.acquire sps.format sps.width sps.height with
    | (none, store) => (.error .outOfMemory, dpb, store)
    | (some frame, store) =>
      match store.attachAll frame new.sideData with
      | (false, store) => (.error .outOfMemory, dpb, store.release frame)
      | (true, store) =>
        (.ok index, { dpb with slots := dpb.slots.set index (new.slot sps frame) }, store)

/-- Puts a stand-in for a missing reference into the buffer: a frame picture, produced at once
so that nobody waits for it, and of neutral samples if `fill` is set. -/
def insertStandIn (dpb : Dpb) (store : Store) (sps : Sps) (new : NewPicture) (fill : Bool) :
    Except Fault Nat × Dpb × Store :=
  match dpb.insert store sps { new with flags := .standIn, picStruct := .frame } with
  | (.error fault, dpb, store) => (.error fault, dpb, store)
  | (.ok index, dpb, store) =>
    match (dpb.slot? index).bind (·.frame) with
    | none => (.ok index, dpb, store)
    | some frame =>
      let paint (f : Frame) := if fill then f.fillNeutral sps.bitDepth else f
      (.ok index, dpb, store.update frame fun f => (paint f).produce)

/-! ## Marking -/

/-- Replaces the reference marking of a slot that holds a picture. -/
def mark (dpb : Dpb) (index : Nat) (marking : Marking) : Dpb :=
  dpb.modify index (·.mark marking)

/-- Takes the reference marking off every slot but `kept`. -/
def unmarkExcept (dpb : Dpb) (kept : Option Nat) : Dpb :=
  { dpb with
    slots := dpb.slots.mapIdx fun index slot =>
      if kept = some index then slot else slot.mark .none }

/-! ## Pictures leaving -/

/-- Takes `mask` off the flags of a slot. -/
def strip (dpb : Dpb) (store : Store) (index : Nat) (mask : Flags) : Dpb × Store :=
  (dpb.modify index (·.strip mask),
    store.releaseAll ((dpb.slot? index).bind (·.freed mask)).toList)

/-- Takes `mask` off the flags of every slot that satisfies `p`. -/
def stripWhere (dpb : Dpb) (store : Store) (p : Slot → Bool) (mask : Flags) : Dpb × Store :=
  ({ dpb with slots := dpb.slots.map fun slot => if p slot then slot.strip mask else slot },
    store.releaseAll (dpb.slots.filterMap fun slot => if p slot then slot.freed mask else none))

/-- Takes the reference marking off every slot. -/
def unmarkAll (dpb : Dpb) (store : Store) : Dpb × Store :=
  dpb.stripWhere store (fun _ => true) .references

/-- Removes the stand-ins for missing references. -/
def removeStandIns (dpb : Dpb) (store : Store) : Dpb × Store :=
  dpb.stripWhere store (·.flags.placeholder) .all

/-- Removes the pictures that have no flags. -/
def sweep (dpb : Dpb) (store : Store) : Dpb × Store :=
  dpb.stripWhere store (fun _ => true) .empty

/-- Removes every picture. -/
def clear (dpb : Dpb) (store : Store) : Dpb × Store :=
  dpb.stripWhere store (fun _ => true) .all

end Dpb

end PictureBuffer
