import PictureBuffer.Params

/-!
# Slice headers

The fields of a slice header that concern reference pictures. The flag lists of the short-term
and long-term sets may be shorter or longer than the list they annotate: a missing flag counts
as unset, a surplus one is ignored.

Model of `SliceType`, `ShortTermRefPicSet` (`ShortTermSet`), `LongTermRefPics` (`LongTermSet`) and
`SliceHeader`. `numUsableRefs` is `frame_nb_refs`.
-/

namespace PictureBuffer

inductive SliceType
  | b
  | p
  | i
  deriving DecidableEq, Repr

namespace SliceType

instance : Inhabited SliceType := ⟨p⟩

def ofCode? : Nat → Option SliceType
  | 0 => some b
  | 1 => some p
  | 2 => some i
  | _ => none

/-- Reference lists used by a slice of this type. -/
def numLists : SliceType → Nat
  | b => 2
  | p => 1
  | i => 0

end SliceType

/-- The short-term reference picture set, 7.4.8: the negative deltas first, closest first, then
the positive ones, closest first. -/
structure ShortTermSet where
  deltas : List Int := []
  /-- The picture at the same position may be used by the current one. -/
  used : List Bool := []
  numNegative : Nat := 0
  deriving DecidableEq, Repr, Inhabited

/-- The long-term reference pictures. -/
structure LongTermSet where
  /-- The low bits of each picture order count, or all of it where `fullPoc` is set. -/
  pocs : List Int := []
  used : List Bool := []
  fullPoc : List Bool := []
  deriving DecidableEq, Repr, Inhabited

/-- What a slice header says of one of its reference lists. -/
structure ListParams where
  numRefs : Nat := 0
  /-- The list is given by explicit entries. -/
  modified : Bool := false
  entries : List Nat := []
  deriving DecidableEq, Repr, Inhabited

/-- The reference picture fields of a slice header. -/
structure SliceHeader where
  type : SliceType := .p
  /-- Raster address of the first coding tree block. -/
  address : Nat := 0
  /-- Absent from pictures that refresh the decoder. -/
  shortTerm : Option ShortTermSet := none
  longTerm : LongTermSet := {}
  interLayer : Bool := false
  list0 : ListParams := {}
  list1 : ListParams := {}
  /-- The list that the collocated picture is taken from. -/
  collocatedList : Nat := 0
  collocatedIndex : Nat := 0
  deriving DecidableEq, Repr, Inhabited

/-- The header's lists that the slice uses, in order. -/
def SliceHeader.lists (hdr : SliceHeader) : List ListParams :=
  [hdr.list0, hdr.list1].take hdr.type.numLists

/-- The number of pictures that the current picture may use as references, as counted from its
header: `NumPicTotalCurr`, equation 7-55. -/
def SliceHeader.numUsableRefs (hdr : SliceHeader) (pps : Pps) : Nat :=
  (match hdr.shortTerm with
    | some st => (st.used.take st.deltas.length).count true
    | none => 0)
  + hdr.longTerm.used.count true + hdr.interLayer.toNat + pps.currentPicRef.toNat

end PictureBuffer
