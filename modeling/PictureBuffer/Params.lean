import PictureBuffer.Layout
import PictureBuffer.PicStruct

/-!
# Stream parameters

What the picture buffer needs to know of a stream: the type of the coded picture, and the parts
of the video, sequence and picture parameter sets and of the supplemental messages that bear on
references and output.

Coding tree blocks are numbered in two orders. The **raster scan** goes through the picture line
by line and follows from a luma position; the **tile scan** is decoding order. `Pps.tileScan`
converts the first into the second, the identity where the picture has no tiles.

Model of `NaluType`, `Sps`, `Pps`, `Vps`, `SeiState` (`Sei`), `RefDisplaysInfo` (`Displays`) and
`CropWindow` (`Crop`). `Pps.tileScan` is `ctb_addr_rs_to_ts`, and `Sps.ctbAt` is the raster address
that `ref_list_at` gives to it.
-/

namespace PictureBuffer

/-- Slots of a layer's picture buffer, at most. -/
def maxSlots : Nat := 16

/-- Entries of a reference list, at most. -/
def maxRefs : Nat := 16

/-- The types of coded slices, Table 7-1. -/
inductive NaluType
  | trailN
  | trailR
  | tsaN
  | tsaR
  | stsaN
  | stsaR
  | radlN
  | radlR
  | raslN
  | raslR
  | blaWLp
  | blaWRadl
  | blaNLp
  | idrWRadl
  | idrNLp
  | craNut
  deriving DecidableEq, Repr, Inhabited

namespace NaluType

/-- Codes `10` to `15` are reserved, codes above `21` are no slices of pictures. -/
def ofCode? : Nat → Option NaluType
  | 0 => some trailN
  | 1 => some trailR
  | 2 => some tsaN
  | 3 => some tsaR
  | 4 => some stsaN
  | 5 => some stsaR
  | 6 => some radlN
  | 7 => some radlR
  | 8 => some raslN
  | 9 => some raslR
  | 16 => some blaWLp
  | 17 => some blaWRadl
  | 18 => some blaNLp
  | 19 => some idrWRadl
  | 20 => some idrNLp
  | 21 => some craNut
  | _ => none

/-- Instantaneous refresh: nothing before the picture is referenced after it. -/
def isIdr : NaluType → Bool
  | idrWRadl | idrNLp => true
  | _ => false

/-- Broken link: decoding was spliced here. -/
def isBla : NaluType → Bool
  | blaWLp | blaWRadl | blaNLp => true
  | _ => false

/-- Clean random access. -/
def isCra : NaluType → Bool
  | craNut => true
  | _ => false

/-- A random access point. -/
def isIrap (t : NaluType) : Bool := t.isIdr || t.isBla || t.isCra

/-- Decoding may start at the picture, so its references may be absent. -/
def mayMissRefs (t : NaluType) : Bool := t.isCra || t.isBla

end NaluType

/-- Cropping of the coded picture for display, in luma samples. -/
structure Crop where
  left : Nat := 0
  right : Nat := 0
  top : Nat := 0
  bottom : Nat := 0
  deriving DecidableEq, Repr, Inhabited

/-- The sequence parameters of a layer. -/
structure Sps where
  width : Nat := 0
  height : Nat := 0
  format : Format := .i420
  bitDepth : Nat := 8
  /-- Low bits of a picture order count that the stream transmits. -/
  log2PocLsb : Nat := 8
  log2Ctb : Nat := 4
  crop : Crop := {}
  deriving DecidableEq, Repr, Inhabited

namespace Sps

/-- The number of distinct low parts of a picture order count, as a 32-bit signed value. -/
def maxPocLsb (sps : Sps) : Int := wrapSigned 32 (shiftedOne 32 sps.log2PocLsb)

/-- Width and height of a coding tree block, in words of 64 bits. -/
def ctbSize (sps : Sps) : Nat := shiftedOne 64 sps.log2Ctb

/-- Columns of coding tree blocks. -/
def ctbWidth (sps : Sps) : Nat := (sps.width + sps.ctbSize - 1) / sps.ctbSize

/-- Rows of coding tree blocks. -/
def ctbHeight (sps : Sps) : Nat := (sps.height + sps.ctbSize - 1) / sps.ctbSize

def ctbCount (sps : Sps) : Nat := sps.ctbWidth * sps.ctbHeight

/-- Raster address of the coding tree block that covers luma position `(x, y)`. Positions are words
of 32 bits, and are shifted in this width. -/
def ctbAt (sps : Sps) (x y : Nat) : Nat :=
  (y >>> (sps.log2Ctb % 32)) * sps.ctbWidth + x >>> (sps.log2Ctb % 32)

end Sps

/-- The picture parameters. -/
structure Pps where
  /-- The picture may be a reference for itself. -/
  currentPicRef : Bool := false
  /-- Tile scan address by raster address; empty without tiles. -/
  tileScanMap : List Nat := []
  deriving DecidableEq, Repr, Inhabited

/-- The tile scan address of the block with raster address `raster`. -/
def Pps.tileScan (pps : Pps) (raster : Nat) : Nat :=
  pps.tileScanMap[raster]?.getD raster

/-- The video parameters: the number of layers and the view that each of the two shows. -/
structure Vps where
  numLayers : Nat := 0
  baseView : Nat := 0
  enhancementView : Nat := 0
  deriving DecidableEq, Repr, Inhabited

/-- The view shown by `layer`. -/
def Vps.view (vps : Vps) : Nat → Nat
  | 0 => vps.baseView
  | 1 => vps.enhancementView
  | _ => 0

/-- Which views of a stereoscopic display are the left and the right one. -/
structure Displays where
  left : Nat
  right : Nat
  deriving DecidableEq, Repr, Inhabited

/-- The supplemental messages that apply to the next pictures. -/
structure Sei where
  picStruct : PicStruct := .frame
  displays : Option Displays := none
  deriving DecidableEq, Repr, Inhabited

end PictureBuffer
