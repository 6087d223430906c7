import PictureBuffer.Dpb
import PictureBuffer.RefSets
import PictureBuffer.Scheduler

/-!
# Decoders

A decoder manages the reference pictures of a stream of one or two layers. Its own state is a
`Context`: the stream parameters, the picture buffer of each layer, the picture being decoded and
the reference picture set derived for it. A `Decoder` is a context together with what it shares
with the other decoders of its session.

Every operation on a decoder is a function to a new decoder. Where it can fail, the decoder
comes with an `Except Fault`, since a failed operation may still have changed something.

Model of `H265ContextConfig` (`Config`), `PictureInfo`, `LayerContext` (`Layer`) and `H265Context`
(`Decoder`): `describe` and `newPicture` are `new_slot`, `startPicture` is `set_new_ref`,
`finishPicture` is `finish_frame`, `abandonPicture` is `abort_current`, `unmarkAll` is `clear_refs`,
and `clear` is `flush_dpb`.
-/

namespace PictureBuffer

/-- How the work is divided among threads. -/
inductive Threading
  /-- Pictures are decoded one after the other. -/
  | slice
  /-- Pictures are decoded concurrently, and must be waited for. -/
  | frame
  deriving DecidableEq, Repr, Inhabited

/-- The configuration of a decoder. -/
structure Config where
  threading : Threading := .slice
  /-- Frames lie in the memory of an accelerator: stand-ins for missing references are not
  filled. -/
  accelerated : Bool := false
  /-- Slots of each layer's picture buffer, brought into the range from `1` to `maxSlots`. -/
  dpbCapacity : Nat := maxSlots
  queueCapacity : Nat := 32
  /-- The layers, as a bit mask, whose pictures are output when the decoder is flushed. -/
  outputLayers : Nat := 3
  deriving DecidableEq, Repr, Inhabited

/-- One layer of a stream. -/
structure Layer where
  sps : Option Sps := none
  dpb : Dpb
  /-- Slot of the last picture that was started in the layer. -/
  current : Option Nat := none
  deriving DecidableEq, Inhabited

/-- The layers of a stream. -/
structure Layers where
  base : Layer
  enhancement : Layer
  deriving DecidableEq, Inhabited

namespace Layers

def get? (layers : Layers) : Nat → Option Layer
  | 0 => some layers.base
  | 1 => some layers.enhancement
  | _ => none

/-- The layer with number `n` replaced, if there is one. -/
def set (layers : Layers) (n : Nat) (layer : Layer) : Layers :=
  match n with
  | 0 => { layers with base := layer }
  | 1 => { layers with enhancement := layer }
  | _ => layers

/-- The layers with their numbers. -/
def toList (layers : Layers) : List (Nat × Layer) :=
  [(0, layers.base), (1, layers.enhancement)]

/-- The frames held by the slots, one handle each. -/
def frames (layers : Layers) : List FrameId :=
  layers.base.dpb.frames ++ layers.enhancement.dpb.frames

end Layers

/-- A picture about to be decoded. -/
structure PictureInfo where
  poc : Int
  nalu : NaluType := .trailN
  /-- The picture is meant for output. -/
  output : Bool
  /-- Slices of the picture, at most. -/
  numSlices : Nat
  pps : Pps
  deriving DecidableEq, Repr

/-- The state of one decoder. -/
structure Context where
  config : Config
  vps : Vps := {}
  sei : Sei := {}
  layers : Layers
  /-- The picture being decoded. -/
  current : Option SlotRef := none
  poc : Int := 0
  nalu : NaluType := .trailN
  pps : Option Pps := none
  numSlices : Nat := 1
  /-- The current picture is not finished. -/
  decoding : Bool := false
  /-- The current picture was started by this decoder, not taken over from the one it was forked
  from. -/
  ownsCurrent : Bool := false
  /-- The reference picture set of the current picture. -/
  sets : RefSets := {}
  /-- The picture from which the last slice predicts motion. -/
  collocated : Option SlotRef := none
  /-- Decoding time stamp of the packet being processed. -/
  dts : Option Int := none
  /-- Duration of the packet being processed. -/
  duration : Option Int := none
  deriving DecidableEq, Inhabited

/-- The state of a decoder that has seen nothing. -/
def Context.initial (config : Config) : Context :=
  let capacity := min maxSlots (max 1 config.dpbCapacity)
  { config
    layers := ⟨{ dpb := .empty 0 capacity }, { dpb := .empty 1 capacity }⟩ }

/-- A decoder at work: its own state and what it shares. -/
structure Decoder extends Context, Shared
  deriving Inhabited

namespace Decoder

def layer? (d : Decoder) (n : Nat) : Option Layer := d.layers.get? n

def slot? (d : Decoder) (ref : SlotRef) : Option Slot :=
  (d.layer? ref.layer).bind (·.dpb.slot? ref.index)

/-- The frame of a slot, if it holds a picture. -/
def frameAt? (d : Decoder) (ref : SlotRef) : Option FrameId := (d.slot? ref).bind (·.frame)

/-- A layer and its sequence parameters. A layer that has none cannot be decoded. -/
def activeLayer (d : Decoder) (n : Nat) : Except Fault (Layer × Sps) :=
  match d.layer? n with
  | none => .error (.noActiveSps n)
  | some layer =>
    match layer.sps with
    | none => .error (.noActiveSps n)
    | some sps => .ok (layer, sps)

/-- One layer changed. -/
def modifyLayer (d : Decoder) (n : Nat) (f : Layer → Layer) : Decoder :=
  match d.layer? n with
  | none => d
  | some layer => { d with layers := d.layers.set n (f layer) }

/-- The picture buffer of a layer changed. -/
def modifyDpb (d : Decoder) (n : Nat) (f : Dpb → Dpb) : Decoder :=
  d.modifyLayer n fun layer => { layer with dpb := f layer.dpb }

/-- The picture buffer of a layer and the frame store changed together. -/
def onDpb (d : Decoder) (n : Nat) (f : Dpb → Store → Dpb × Store) : Decoder :=
  match d.layer? n with
  | none => d
  | some layer =>
    let (dpb, store) := f layer.dpb d.store
    { d with layers := d.layers.set n { layer with dpb }, store }

/-- The frame of a slot changed, if it holds a picture. -/
def updateFrame (d : Decoder) (ref : SlotRef) (f : Frame → Frame) : Decoder :=
  match d.frameAt? ref with
  | none => d
  | some frame => { d with store := d.store.update frame f }

/-! ## Stream parameters -/

def setVps (d : Decoder) (vps : Vps) : Decoder := { d with vps }

def setSps (d : Decoder) (layer : Nat) (sps : Sps) : Except Fault Unit × Decoder :=
  match d.layer? layer with
  | none => (.error (.invalidLayer layer), d)
  | some _ => (.ok (), d.modifyLayer layer ({ · with sps := some sps }))

def setSei (d : Decoder) (sei : Sei) : Decoder := { d with sei }

def setDts (d : Decoder) (dts : Option Int) : Decoder := { d with dts }

def setDuration (d : Decoder) (duration : Option Int) : Decoder := { d with duration }

/-! ## Starting and finishing a picture -/

/-- Where the view shown by `layer` belongs: to one eye, if the displays name it. -/
def sideData (d : Decoder) (layer : Nat) : List SideData :=
  let view := d.vps.view layer
  if 1 < d.vps.numLayers || view != 0 then
    .view view :: match d.sei.displays with
      | none => []
      | some displays =>
        [.stereo (if displays.left = view then .left
          else if displays.right = view then .right else .unspecified)]
  else []

/-- A picture of `layer` under the parameters in force. -/
def describe (d : Decoder) (layer : Nat) (sps : Sps) (poc : Int) (flags : Flags) :
    NewPicture where
  poc
  flags
  picStruct := d.sei.picStruct
  props :=
    { interlaced := d.sei.picStruct.isInterlaced
      topFieldFirst := d.sei.picStruct.isInterlaced && d.sei.picStruct.topFirst
      repeats := d.sei.picStruct.repeats
      crop := sps.crop
      duration := d.duration }
  sideData := d.sideData layer
  numSlices := d.numSlices
  pps := d.pps

/-- The decoder turns to a picture, which is yet to enter the buffer. -/
def turnTo (d : Decoder) (info : PictureInfo) : Decoder :=
  { d with
    poc := info.poc
    nalu := info.nalu
    pps := some info.pps
    numSlices := info.numSlices }

/-- The picture that the decoder turned to, as a short-term reference. A picture of the enhancement
layer remembers the base layer's one. -/
def newPicture (d : Decoder) (layer : Nat) (sps : Sps) (info : PictureInfo) : NewPicture :=
  { d.describe layer sps info.poc { output := info.output, shortTerm := true } with
    base := if layer = 0 then none else d.layers.base.current }

/-- Starts a picture of `layer`: it enters the buffer and becomes the current picture. -/
def startPicture (d : Decoder) (layer : Nat) (info : PictureInfo) :
    Except Fault SlotRef × Decoder :=
  match d.activeLayer layer with
  | .error fault => (.error fault, d)
  | .ok (l, sps) =>
    if l.dpb.holds info.poc then (.error (.duplicatePoc layer info.poc), d)
    else
      let d := d.turnTo info
      match l.dpb.insert d.store sps (d.newPicture layer sps info) with
      | (.error fault, dpb, store) =>
        (.error fault, { d with layers := d.layers.set layer { l with dpb }, store })
      | (.ok index, dpb, store) =>
        (.ok ⟨layer, index⟩,
          { d with
            layers := d.layers.set layer { l with dpb, current := some index }
            store
            current := some ⟨layer, index⟩
            collocated := none
            decoding := true
            ownsCurrent := true })

/-- The current picture is complete. It is only marked as produced by the decoder that started
it. -/
def finishPicture (d : Decoder) : Decoder :=
  let d := match d.ownsCurrent, d.current with
    | true, some ref => d.updateFrame ref (·.produce)
    | _, _ => d
  { d with decoding := false }

/-- Gives up the current picture. If this decoder was producing it, whoever waits for it is told
that it will not come. -/
def abandonPicture (d : Decoder) : Decoder :=
  let d := match d.decoding && d.ownsCurrent, d.current with
    | true, some ref => d.updateFrame ref (·.cancel)
    | _, _ => d
  { d with decoding := false, ownsCurrent := false }

/-! ## Pictures leaving -/

/-- Takes the reference marking off every picture of a layer. -/
def unmarkAll (d : Decoder) (layer : Nat) : Except Fault Unit × Decoder :=
  match d.layer? layer with
  | none => (.error (.invalidLayer layer), d)
  | some _ => (.ok (), d.onDpb layer Dpb.unmarkAll)

/-- Takes the output flag off a slot. -/
def stripOutput (d : Decoder) (ref : SlotRef) : Decoder :=
  d.onDpb ref.layer fun dpb store => dpb.strip store ref.index .waiting

/-- Removes every picture of every layer, whatever it is kept for, and gives up the current
one. -/
def clear (d : Decoder) : Decoder :=
  let d := (d.abandonPicture.onDpb 0 Dpb.clear).onDpb 1 Dpb.clear
  let d := (d.modifyLayer 0 ({ · with current := none })).modifyLayer 1 ({ · with current := none })
  { d with current := none, collocated := none }

end Decoder

end PictureBuffer
