import PictureBuffer.Decoder.Basic

/-!
# The reference lists of a slice

A slice refers to pictures by their position in its reference lists (8.3.4). Each list is taken
from a temporary one, the candidates in list order repeated until there are enough of them:
either its first entries, or the entries that the header names one by one.

A picture that may be a reference for itself comes last among its candidates, as a long-term
reference. If a list without explicit entries would be cut short before it, it takes the place
of the last entry.

The lists are kept in the slot of the current picture, where the blocks from the start of the
slice on point at them.

Model of `init_slice_rpl` (`startSlice`), `slice_rpl` (`buildLists`) and `ref_list_at` (`listsAt?`).
-/

namespace PictureBuffer

namespace SliceLists

/-- A list given by explicit entries, each a position in `temp`. A missing entry counts as
zero. -/
def explicit (params : ListParams) (temp : RefList) : Except Fault RefList :=
  (List.range params.numRefs).foldlM
    (fun list i =>
      let index := params.entries[i]?.getD 0
      match temp.get? index with
      | some entry => .ok (list.push entry)
      | none => .error (.invalidReferenceIndex index temp.length))
    {}

/-- The first entries of `temp`. If this cuts the list short, the current picture, where it is a
candidate, takes the last place. -/
def leading (params : ListParams) (temp : RefList) (current : Option RefEntry) : RefList :=
  let list := temp.take params.numRefs
  match current with
  | some entry =>
    if 0 < params.numRefs ∧ params.numRefs < temp.length then
      list.set (params.numRefs - 1) entry
    else list
  | none => list

/-- A list of a slice, from its candidates in list order. -/
def build (params : ListParams) (candidates : List RefEntry) (current : Option RefEntry) :
    Except Fault RefList :=
  if maxRefs < params.numRefs then .error (.tooManyReferences params.numRefs)
  else
    let temp := RefList.fill (candidates ++ current.toList) params.numRefs {}
    if params.modified then explicit params temp
    else .ok (leading params temp current)

end SliceLists

namespace Decoder

/-- The current picture and its parameters. -/
def currentPicture (d : Decoder) : Except Fault (SlotRef × Pps) :=
  match d.current, d.pps with
  | none, _ => .error .noCurrentPicture
  | some _, none => .error .noActivePps
  | some ref, some pps => .ok (ref, pps)

/-- A slot changed. -/
def modifySlot (d : Decoder) (ref : SlotRef) (f : Slot → Slot) : Decoder :=
  d.modifyDpb ref.layer (·.modify ref.index f)

/-- From the start of the slice on, the blocks of the current picture use the lists with index
`slice`. -/
def startSlice (d : Decoder) (hdr : SliceHeader) (slice : Nat) : Except Fault Unit × Decoder :=
  match d.currentPicture with
  | .error fault => (.error fault, d)
  | .ok (ref, pps) =>
    match d.slot? ref with
    | none => (.error (.invalidSlot ref), d)
    | some slot =>
      match slot.selectLists slice (pps.tileScan hdr.address) with
      | .error fault => (.error fault, d)
      | .ok slot => (.ok (), d.modifySlot ref fun _ => slot)

/-- The current picture as an entry of its own reference lists, if it may be one. -/
def selfEntry (d : Decoder) (ref : SlotRef) : Option RefEntry :=
  if d.pps.any (·.currentPicRef) then some ⟨d.poc, ref, true⟩ else none

/-- The picture that motion is predicted from, as the header chooses it from a list. A choice
past the end of the list changes nothing. -/
def chooseCollocated (d : Decoder) (hdr : SliceHeader) (secondList : Bool) (list : RefList) :
    Decoder :=
  if hdr.collocatedList = secondList.toNat then
    match list.get? hdr.collocatedIndex with
    | some entry => { d with collocated := some entry.slot }
    | none => d
  else d

/-- Builds one list of a slice. -/
def buildList (d : Decoder) (hdr : SliceHeader) (ref : SlotRef) (secondList : Bool) :
    Except Fault RefList × Decoder :=
  let params := if secondList then hdr.list1 else hdr.list0
  match SliceLists.build params (d.sets.candidates secondList) (d.selfEntry ref) with
  | .error fault => (.error fault, d)
  | .ok list => (.ok list, d.chooseCollocated hdr secondList list)

/-- Builds the lists of a slice that uses the first list only, or both. -/
def buildUsed (d : Decoder) (hdr : SliceHeader) (ref : SlotRef) (both : Bool) :
    Except Fault SliceLists × Decoder :=
  match d.buildList hdr ref false with
  | (.error fault, d) => (.error fault, d)
  | (.ok list0, d) =>
    if both then
      match d.buildList hdr ref true with
      | (.error fault, d) => (.error fault, d)
      | (.ok list1, d) => (.ok ⟨list0, list1⟩, d)
    else (.ok { list0 }, d)

/-- Builds the lists of a slice and keeps them with the current picture under index `slice`. A
slice that uses no lists leaves the kept ones as they are. -/
def buildLists (d : Decoder) (hdr : SliceHeader) (slice : Nat) :
    Except Fault SliceLists × Decoder :=
  match d.startSlice hdr slice with
  | (.error fault, d) => (.error fault, d)
  | (.ok (), d) =>
    match d.current with
    | none => (.error .noCurrentPicture, d)
    | some ref =>
      if hdr.type = .i then (.ok {}, d)
      else if d.sets.numUsable = 0 ∧ d.selfEntry ref = none then (.error .zeroReferences, d)
      else
        match d.buildUsed hdr ref (hdr.type = .b) with
        | (.error fault, d) => (.error fault, d)
        | (.ok lists, d) => (.ok lists, d.modifySlot ref (·.setCurrentLists lists))

/-- The lists that the block covering luma position `(x, y)` of a picture was decoded with, as
the sequence parameters in force divide the picture into blocks. -/
def listsAt? (d : Decoder) (ref : SlotRef) (x y : Nat) : Option SliceLists := do
  let layer ← d.layer? ref.layer
  let sps ← layer.sps
  let slot ← layer.dpb.slot? ref.index
  let pps ← slot.pps
  slot.listsAt? (pps.tileScan (sps.ctbAt x y))

end Decoder

end PictureBuffer
