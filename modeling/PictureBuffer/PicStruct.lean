/-!
# Picture structures

The `pic_struct` code of the picture timing message says how a picture is shown: as a frame, as
one field, or as two or three fields in a given order. Codes `9` to `12` are single fields that
also name their partner: the previous or the next field of the opposite parity.

The classification has two independent axes. `isTopField` / `isBottomField` say which field a
single-field picture is; `topFirst` / `bottomFirst` say which field of the frame comes first,
where the code settles it.

Model of `PicStruct`: `topFirst` is `is_tff`, `bottomFirst` is `is_bff`, `isField` is
`is_field_picture`, and `repeats` is `repeat_pict`.
-/

namespace PictureBuffer

/-- How a picture is displayed. -/
inductive PicStruct
  | frame
  | topField
  | bottomField
  | topBottom
  | bottomTop
  | topBottomTop
  | bottomTopBottom
  | frameDoubling
  | frameTripling
  /-- A top field, the second of a pair. -/
  | topPairedPrevBottom
  /-- A bottom field, the second of a pair. -/
  | bottomPairedPrevTop
  /-- A top field, the first of a pair. -/
  | topPairedNextBottom
  /-- A bottom field, the first of a pair. -/
  | bottomPairedNextTop
  deriving DecidableEq, Repr, Inhabited

namespace PicStruct

/-- All structures, in the order of their codes. -/
def all : List PicStruct :=
  [frame, topField, bottomField, topBottom, bottomTop, topBottomTop, bottomTopBottom,
    frameDoubling, frameTripling, topPairedPrevBottom, bottomPairedPrevTop,
    topPairedNextBottom, bottomPairedNextTop]

/-- The structure with `code`, if there is one. -/
def ofCode? (code : Nat) : Option PicStruct := all[code]?

def code : PicStruct → Nat
  | frame => 0
  | topField => 1
  | bottomField => 2
  | topBottom => 3
  | bottomTop => 4
  | topBottomTop => 5
  | bottomTopBottom => 6
  | frameDoubling => 7
  | frameTripling => 8
  | topPairedPrevBottom => 9
  | bottomPairedPrevTop => 10
  | topPairedNextBottom => 11
  | bottomPairedNextTop => 12

theorem ofCode?_code (s : PicStruct) : ofCode? s.code = some s := by
  cases s <;> rfl

/-- The picture is shown as an interlaced frame or as part of one. -/
def isInterlaced : PicStruct → Bool
  | frame | frameDoubling | frameTripling => false
  | _ => true

/-- The top field is said to come first. -/
def topFirst : PicStruct → Bool
  | topBottom | topBottomTop | bottomPairedPrevTop | topPairedNextBottom => true
  | _ => false

/-- The bottom field is said to come first. -/
def bottomFirst : PicStruct → Bool
  | bottomTop | bottomTopBottom | topPairedPrevBottom | bottomPairedNextTop => true
  | _ => false

def isTopField : PicStruct → Bool
  | topField | topPairedPrevBottom | topPairedNextBottom => true
  | _ => false

def isBottomField : PicStruct → Bool
  | bottomField | bottomPairedPrevTop | bottomPairedNextTop => true
  | _ => false

/-- The picture is a single field. -/
def isField (s : PicStruct) : Bool := s.isTopField || s.isBottomField

/-- Extra field periods for which the picture is shown. -/
def repeats : PicStruct → Nat
  | topBottomTop | bottomTopBottom => 1
  | frameDoubling => 2
  | frameTripling => 3
  | _ => 0

end PicStruct

end PictureBuffer
