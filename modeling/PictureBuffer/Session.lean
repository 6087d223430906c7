import PictureBuffer.Decoder.Derivation
import PictureBuffer.Decoder.Output
import PictureBuffer.Decoder.SliceLists

/-!
# Decoding sessions

A session is a number of decoders that share one output process, and the client that takes the
pictures. It starts with one decoder; others are **forked** from one that exists, and see the
pictures that it holds. Worker threads fill the frames of pictures in the buffer and settle
their production.

`Session.step` is what one `Event` does. Decoders are numbered in the order in which they came
up, and so are the pictures that the client keeps. Those that are gone keep their number.

A session ends with its last decoder: the output process lets go of every frame it holds.

Model of what the clients of an `H265Context` do with it: `fork` is `duplicate`, and `close` drops a
context. The queue and the scheduler are those that all contexts of a session share.

Out of scope:

* handles to the scheduler or to the queue that a client keeps longer than its contexts: both go
  with the last context (`Session.close`);
* handles to a frame that a worker or a client takes from a slot and keeps: workers act on the
  frames of slots as long as these hold them, and the client holds what it took from the queue;
* a scheduler whose lock is poisoned: no operation stops while it has the lock.
-/

namespace PictureBuffer

/-- What a decoder can be told to do. -/
inductive Command
  | setVps (vps : Vps)
  | setSps (layer : Nat) (sps : Sps)
  | setSei (sei : Sei)
  | setDts (dts : Option Int)
  | setDuration (duration : Option Int)
  | startPicture (layer : Nat) (info : PictureInfo)
  | finishPicture
  | unmarkAll (layer : Nat)
  | deriveSets (layer : Nat) (hdr : SliceHeader)
  | startSlice (hdr : SliceHeader) (slice : Nat)
  | buildLists (hdr : SliceHeader) (slice : Nat)
  | output (pass : OutputPass)
  | flush
  | clear
  | dropStash
  deriving DecidableEq, Repr

/-- What a worker does to the frame of a picture. -/
inductive Work
  /-- Computes every byte from its plane, its row and its column. -/
  | render (sample : Nat → Nat → Nat → UInt8)
  | produce
  | cancel

def Work.apply : Work → Frame → Frame
  | render sample => Frame.render sample
  | produce => Frame.produce
  | cancel => Frame.cancel

/-- What can happen in a session. -/
inductive Event
  /-- A decoder carries out a command. -/
  | run (decoder : Nat) (command : Command)
  | fork (decoder : Nat)
  | close (decoder : Nat)
  /-- A worker acts on the frame of a slot of a decoder. -/
  | work (decoder : Nat) (slot : SlotRef) (work : Work)
  /-- The client takes the first picture of the queue, or all of them, and keeps them or drops
  them at once. -/
  | take (decoder : Nat) (all keep : Bool)
  /-- The client drops a picture it kept. -/
  | letGo (picture : Nat)

/-- What an event answers. -/
inductive Reply
  | done
  | result (result : Except Fault Unit)
  | slot (result : Except Fault SlotRef)
  | lists (result : Except Fault SliceLists)
  | ended (result : Except Fault PassEnd)
  | flag (value : Bool)
  | decoder (number : Nat)
  | pictures (pictures : List Picture)
  /-- The decoder, the frame or the picture that the event is about does not exist. -/
  | absent

/-- Carries out a command. -/
def Decoder.run (d : Decoder) : Command → Reply × Decoder
  | .setVps vps => (.done, d.setVps vps)
  | .setSps layer sps => let (r, d) := d.setSps layer sps; (.result r, d)
  | .setSei sei => (.done, d.setSei sei)
  | .setDts dts => (.done, d.setDts dts)
  | .setDuration duration => (.done, d.setDuration duration)
  | .startPicture layer info => let (r, d) := d.startPicture layer info; (.slot r, d)
  | .finishPicture => (.done, d.finishPicture)
  | .unmarkAll layer => let (r, d) := d.unmarkAll layer; (.result r, d)
  | .deriveSets layer hdr => let (r, d) := d.deriveSets layer hdr; (.result r, d)
  | .startSlice hdr slice => let (r, d) := d.startSlice hdr slice; (.result r, d)
  | .buildLists hdr slice => let (r, d) := d.buildLists hdr slice; (.lists r, d)
  | .output pass => let (r, d) := d.output pass; (.ended r, d)
  | .flush => let (r, d) := d.flush; (.ended r, d)
  | .clear => (.done, d.clear)
  | .dropStash =>
    (.flag d.scheduler.stash.isSome, { d with toShared := d.toShared.dropStash })

/-- A copy of a decoder, which does not own the picture being decoded. -/
def Context.fork (context : Context) : Context := { context with ownsCurrent := false }

/-- Lets go of every frame that the output process holds. -/
def Shared.close (sh : Shared) : Shared :=
  let store := sh.store.releaseAll (sh.queue.pictures.map (·.frame))
  let store := store.releaseAll (sh.scheduler.stash.map (·.frame)).toList
  { store := store.releaseAll sh.scheduler.scratch.toList
    scheduler := { sh.scheduler with stash := none, scratch := none }
    queue := sh.queue.drain.2 }

/-- Decoders that share an output process, and their client. -/
structure Session where
  shared : Shared
  /-- By number; `none` for a decoder that was closed. -/
  contexts : List (Option Context)
  /-- The pictures kept by the client, by number; `none` for one that was dropped. -/
  kept : List (Option Picture) := []
  deriving Inhabited

namespace Session

/-- A session of one decoder. -/
def start (config : Config) (provider : Provider) : Session where
  shared := { store := { provider }, queue := { capacity := config.queueCapacity } }
  contexts := [some (.initial config)]

def context? (s : Session) (i : Nat) : Option Context := s.contexts[i]?.join

/-- Decoder `i` at work. -/
def decoder? (s : Session) (i : Nat) : Option Decoder :=
  (s.context? i).map fun context => { toContext := context, toShared := s.shared }

/-- The state after decoder `i` has worked. -/
def setDecoder (s : Session) (i : Nat) (d : Decoder) : Session :=
  { s with shared := d.toShared, contexts := s.contexts.set i (some d.toContext) }

/-- Decoders that are not closed. -/
def numDecoders (s : Session) : Nat := s.contexts.countP (·.isSome)

def modifyStore (s : Session) (f : Store → Store) : Session :=
  { s with shared := { s.shared with store := f s.shared.store } }

/-- Adds a copy of a decoder, with its own handles to the pictures in the buffer. -/
def fork (s : Session) (context : Context) : Session :=
  { s with contexts := s.contexts ++ [some context.fork] }.modifyStore
    (·.retainAll context.layers.frames)

/-- Closes decoder `i`, in the state `context`, and the output process after the last one: nobody
else keeps a handle to it. -/
def close (s : Session) (i : Nat) (context : Context) : Session :=
  let s := { s with contexts := s.contexts.set i none }.modifyStore
    (·.releaseAll context.layers.frames)
  if s.numDecoders = 0 then { s with shared := s.shared.close } else s

/-- Takes pictures out of the queue. Their handles go to the caller. -/
def dequeue (s : Session) (all : Bool) : List Picture × Session :=
  if all then
    let (pictures, queue) := s.shared.queue.drain
    (pictures, { s with shared := { s.shared with queue } })
  else
    match s.shared.queue.pop? with
    | none => ([], s)
    | some (picture, queue) => ([picture], { s with shared := { s.shared with queue } })

/-- What an event does. -/
def step (s : Session) : Event → Reply × Session
  | .run i command =>
    match s.decoder? i with
    | none => (.absent, s)
    | some d => let (reply, d) := d.run command; (reply, s.setDecoder i d)
  | .fork i =>
    match s.context? i with
    | none => (.absent, s)
    | some context => (.decoder s.contexts.length, s.fork context)
  | .close i =>
    match s.context? i with
    | none => (.absent, s)
    | some context => (.done, s.close i context)
  | .work i slot work =>
    match (s.decoder? i).bind (·.frameAt? slot) with
    | none => (.absent, s)
    | some frame => (.done, s.modifyStore (·.update frame work.apply))
  | .take i all keep =>
    match s.context? i with
    | none => (.absent, s)
    | some _ =>
      let (pictures, s) := s.dequeue all
      (.pictures pictures,
        if keep then { s with kept := s.kept ++ pictures.map some }
        else s.modifyStore (·.releaseAll (pictures.map (·.frame))))
  | .letGo i =>
    match s.kept[i]?.join with
    | none => (.absent, s)
    | some picture =>
      (.pictures [picture],
        { s with kept := s.kept.set i none }.modifyStore (·.release picture.frame))

end Session

end PictureBuffer
