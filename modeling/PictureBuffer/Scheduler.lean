import PictureBuffer.Queue

/-!
# The output scheduler

The decoders of a session share one output process. Its state is a `Scheduler`:

* the **stash**, a first field that waits for the second field of its pair;
* the **scratch** frame, the last one that fields were woven into, kept to be used again once
  nobody else holds it;
* statistics, which nothing in the output depends on.

`Shared` is all that the decoders of a session have in common: the frame store, the scheduler
and the output queue.

Model of `OutputState` (`Scheduler`) and `OutputStats`: the stash is `first_field`, the scratch
frame is `constructed_frame`, `recordPop` is `record_dpb_pop`, `recordSend` is `record_output`,
`recordOrphans` is `orphan`, and `dropStash` is `discard_first_field`.

Out of scope: the lock that an `OutputScheduler` puts around its state. Operations take it one at a
time, and none of them stops while it has it, which would leave the lock poisoned.
-/

namespace PictureBuffer

/-- Counts of what happened to pictures on their way out. -/
structure OutputStats where
  /-- Pictures taken out of the buffer for output. -/
  popped : Nat := 0
  /-- Pictures taken out after one with a greater order count. -/
  poppedOutOfOrder : Nat := 0
  /-- Pictures sent to the output queue. -/
  sent : Nat := 0
  /-- Pictures sent after one with a greater order count. -/
  sentOutOfOrder : Nat := 0
  /-- Fields dropped because they could not be paired. -/
  orphans : Nat := 0
  deriving DecidableEq, Repr, Inhabited

/-- A picture taken out of the buffer for output. -/
structure Victim where
  layer : Nat
  frame : FrameId
  poc : Int
  picStruct : PicStruct
  props : Props
  deriving DecidableEq, Inhabited

/-- A field that waits for its partner. It owns a handle to its frame. -/
structure Field where
  frame : FrameId
  poc : Int
  picStruct : PicStruct
  props : Props
  deriving DecidableEq, Inhabited

def Victim.field (victim : Victim) : Field where
  frame := victim.frame
  poc := victim.poc
  picStruct := victim.picStruct
  props := victim.props

/-- The state of the output process. -/
structure Scheduler where
  stats : OutputStats := {}
  /-- Order count of the last picture taken out of the buffer. -/
  lastPopped : Int := 0
  /-- Order count of the last picture sent to the queue. -/
  lastSent : Int := 0
  stash : Option Field := none
  scratch : Option FrameId := none
  deriving DecidableEq, Inhabited

namespace Scheduler

/-- A picture was taken out of the buffer. The first one, and order counts of zero and below,
which start a new sequence, are never out of order. -/
def recordPop (s : Scheduler) (poc : Int) : Scheduler :=
  let late := 0 < s.stats.popped && decide (poc < s.lastPopped) && decide (0 < poc)
  { s with
    stats := { s.stats with
      popped := s.stats.popped + 1
      poppedOutOfOrder := s.stats.poppedOutOfOrder + late.toNat }
    lastPopped := poc }

/-- A picture was sent to the queue; as for `recordPop`. -/
def recordSend (s : Scheduler) (poc : Int) : Scheduler :=
  let late := 0 < s.stats.sent && decide (poc < s.lastSent) && decide (0 < poc)
  { s with
    stats := { s.stats with
      sent := s.stats.sent + 1
      sentOutOfOrder := s.stats.sentOutOfOrder + late.toNat }
    lastSent := poc }

/-- Fields were dropped. -/
def recordOrphans (s : Scheduler) (count : Nat) : Scheduler :=
  { s with stats := { s.stats with orphans := s.stats.orphans + count } }

/-- A field with order count `poc` is the first of a pair. Some structures say so. Of the others,
an even order count starts a pair, but while a field waits only one that cannot complete its
pair does: a later field of the same structure. -/
def startsPair (s : Scheduler) (poc : Int) (picStruct : PicStruct) : Bool :=
  (picStruct.topFirst && picStruct.isTopField)
  || (picStruct.bottomFirst && picStruct.isBottomField)
  || match s.stash with
    | none => poc % 2 == 0
    | some first => first.picStruct == picStruct && poc % 2 == 0 && decide (first.poc < poc)

end Scheduler

/-- What the decoders of a session share. -/
structure Shared where
  store : Store := {}
  scheduler : Scheduler := {}
  queue : Queue
  deriving Inhabited

namespace Shared

/-- The stash dropped, as an orphan if there is one. -/
def dropStash (sh : Shared) : Shared :=
  match sh.scheduler.stash with
  | none => sh
  | some field =>
    { sh with
      store := sh.store.release field.frame
      scheduler := { sh.scheduler.recordOrphans 1 with stash := none } }

/-- The stash replaced by a field just taken out of the buffer. -/
def putStash (sh : Shared) (field : Field) : Shared :=
  let sh := sh.dropStash
  { sh with
    store := sh.store.retain field.frame
    scheduler := { sh.scheduler with stash := some field } }

end Shared

end PictureBuffer
