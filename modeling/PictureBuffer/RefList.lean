import PictureBuffer.Fault
import PictureBuffer.Params

/-!
# Reference lists

A reference list names pictures of the buffer in the order in which a slice refers to them. It
holds at most `maxRefs` entries: `push` on a full list changes nothing.

Model of `RefPicListEntry` (`RefEntry`), `RefPicList` (`RefList`) and `SliceRefLists`
(`SliceLists`).
-/

namespace PictureBuffer

/-- An entry of a reference list. -/
structure RefEntry where
  poc : Int
  slot : SlotRef
  longTerm : Bool
  deriving DecidableEq, Repr, Inhabited

structure RefList where
  entries : List RefEntry := []
  deriving DecidableEq, Repr, Inhabited

namespace RefList

def length (list : RefList) : Nat := list.entries.length

def isEmpty (list : RefList) : Bool := list.entries.isEmpty

def isFull (list : RefList) : Bool := decide (maxRefs ≤ list.length)

/-- Adds `entry` at the end, unless the list is full. -/
def push (list : RefList) (entry : RefEntry) : RefList :=
  if list.isFull then list else ⟨list.entries ++ [entry]⟩

/-- The entries added at the end, as far as there is room. -/
def pushAll (list : RefList) (entries : List RefEntry) : RefList := entries.foldl push list

def get? (list : RefList) (i : Nat) : Option RefEntry := list.entries[i]?

/-- The first `n` entries. -/
def take (list : RefList) (n : Nat) : RefList := ⟨list.entries.take n⟩

/-- Entry `i` replaced, if there is one. -/
def set (list : RefList) (i : Nat) (entry : RefEntry) : RefList := ⟨list.entries.set i entry⟩

def pocs (list : RefList) : List Int := list.entries.map (·.poc)

end RefList

/-- The two reference lists of a slice. A list that the slice does not use is empty. -/
structure SliceLists where
  list0 : RefList := {}
  list1 : RefList := {}
  deriving DecidableEq, Repr, Inhabited

end PictureBuffer
