import PictureBuffer.Scheduler
import PictureBuffer.Weave

/-!
# Emission and field pairing

`Shared.emit` sends a picture on its way from the buffer to the output queue. A frame picture
goes straight there. A field is either stashed as the first of a pair, or completes the stashed
one, and the two are woven into one frame; a field without a partner is dropped.

Two fields of different layouts cannot be woven. The stashed one is dropped; the other is
dropped too, unless it can start a pair itself: then it is to be emitted again
(`Emission.again`).

Every picture in the queue and the stash own a handle to their frames. The slot that a victim
comes from keeps its own handle until the emission is over.

Model of the functions `emit`, `pair_field` (`Shared.pair`) and `weave` of `OutputState`.
-/

namespace PictureBuffer

/-- What became of a field. -/
inductive Pairing
  /-- It is kept as the first of a pair. -/
  | stashed
  /-- It found no partner. -/
  | dropped
  /-- The stash was dropped, and the field is to be emitted again. -/
  | again
  /-- It was woven with the stash. The picture owns a handle to the woven frame. -/
  | paired (picture : Picture)
  deriving DecidableEq

/-- How an emission ended. -/
inductive Emission
  | done
  /-- The picture is to be emitted again. -/
  | again
  deriving DecidableEq, Repr

/-- A frame picture as it goes to the queue, with the time stamp `dts`. -/
def Victim.picture (victim : Victim) (dts : Option Int) : Picture where
  frame := victim.frame
  poc := victim.poc
  layer := victim.layer
  picStruct := victim.picStruct
  props := victim.props
  dts

namespace Shared

/-- A frame to weave into: the scratch frame if nobody else holds it and its layout fits, else
one from the provider. Either way the scheduler gives up its handle, and the caller owns one. An
unfit scratch frame is held until the provider has answered. -/
def weavingFrame (sh : Shared) (layout : Layout) : Option FrameId × Shared :=
  let scheduler := { sh.scheduler with scratch := none }
  match sh.scheduler.scratch with
  | none =>
    let (frame, store) := sh.store.acquire layout.format layout.width layout.height
    (frame, { sh with store, scheduler })
  | some scratch =>
    if sh.store.isUnique scratch ∧ (sh.store.frame scratch).layout = layout then
      (some scratch, { sh with scheduler })
    else
      let (frame, store) := sh.store.acquire layout.format layout.width layout.height
      (frame, { sh with store := store.release scratch, scheduler })

/-- Weaves two fields into a frame that the caller holds. The scheduler keeps another handle to it
for its scratch frame. -/
def fillScratch (sh : Shared) (woven : FrameId) (top bottom : Frame) : Shared :=
  { sh with
    store := (sh.store.update woven (·.weave top bottom)).retain woven
    scheduler := { sh.scheduler with scratch := some woven } }

/-- Weaves two fields into one frame, of which the caller owns a handle. -/
def weave (sh : Shared) (top bottom : FrameId) : Except Fault FrameId × Shared :=
  let topFrame := sh.store.frame top
  let bottomFrame := sh.store.frame bottom
  match sh.weavingFrame topFrame.wovenLayout with
  | (none, sh) => (.error .outOfMemory, sh)
  | (some woven, sh) => (.ok woven, sh.fillScratch woven topFrame bottomFrame)

/-- The field of a pair that fills the even lines. -/
def evenLines (first second : Field) : Field :=
  if second.picStruct.isTopField then second else first

/-- The field of a pair that fills the odd lines. -/
def oddLines (first second : Field) : Field :=
  if second.picStruct.isTopField then first else second

/-- Twice a duration, in words of 64 bits. -/
def doubled (duration : Int) : Int := wrapSigned 64 (duration * 2)

/-- The picture of a woven pair: it stands where its first field stood, and lasts twice as long
as its second field where durations are known. -/
def wovenPicture (layer : Nat) (woven : FrameId) (first second : Field) : Picture :=
  let top := evenLines first second
  let timed := [first.props.duration, second.props.duration].any (·.any (0 < ·))
  { frame := woven
    poc := first.poc
    layer
    picStruct := first.picStruct
    props := { top.props with
      interlaced := true
      topFieldFirst := !first.picStruct.isBottomField
      duration := if timed then second.props.duration.map doubled else top.props.duration }
    dts := none }

/-- Completes the pair of `first`, taken out of the stash with its handle, and `second`. -/
def complete (sh : Shared) (layer : Nat) (first second : Field) :
    Except Fault Pairing × Shared :=
  match sh.weave (evenLines first second).frame (oddLines first second).frame with
  | (.error fault, sh) =>
    (.error fault,
      { sh with
        store := sh.store.release first.frame
        scheduler := sh.scheduler.recordOrphans 2 })
  | (.ok woven, sh) =>
    (.ok (.paired (wovenPicture layer woven first second)),
      { sh with store := sh.store.release first.frame })

/-- The stash emptied, its handle left to the caller. -/
def takeStash (sh : Shared) : Shared :=
  { sh with scheduler := { sh.scheduler with stash := none } }

/-- Stashes a field, or pairs it with the stash. -/
def pair (sh : Shared) (victim : Victim) : Except Fault Pairing × Shared :=
  if sh.scheduler.startsPair victim.poc victim.picStruct then
    (.ok .stashed, sh.putStash victim.field)
  else
    match sh.scheduler.stash with
    | none =>
      (.ok .dropped, { sh with scheduler := sh.scheduler.recordOrphans 1 })
    | some first =>
      if (sh.store.frame first.frame).layout = (sh.store.frame victim.frame).layout then
        sh.takeStash.complete victim.layer first victim.field
      else (.ok (if victim.poc % 2 = 0 then .again else .dropped), sh.dropStash)

/-- Sends a picture, which owns a handle to its frame, to the queue. -/
def send (sh : Shared) (picture : Picture) : Except Fault Emission × Shared :=
  let scheduler := sh.scheduler.recordSend picture.poc
  match sh.queue.push picture with
  | .ok queue => (.ok .done, { sh with scheduler, queue })
  | .error fault =>
    (.error fault, { sh with scheduler, store := sh.store.release picture.frame })

/-- A picture with order count `poc` is on its way out. -/
def pop (sh : Shared) (poc : Int) : Shared := { sh with scheduler := sh.scheduler.recordPop poc }

/-- Outputs a picture taken out of the buffer, at the time stamp `dts`. A frame picture puts an
end to the wait of a stashed field. -/
def emit (sh : Shared) (victim : Victim) (dts : Option Int) : Except Fault Emission × Shared :=
  let sh := sh.pop victim.poc
  if victim.picStruct.isField then
    match sh.pair victim with
    | (.error fault, sh) => (.error fault, sh)
    | (.ok .again, sh) => (.ok .again, sh)
    | (.ok (.paired picture), sh) => sh.send { picture with dts }
    | (.ok _, sh) => (.ok .done, sh)
  else
    let sh := sh.dropStash
    { sh with store := sh.store.retain victim.frame }.send (victim.picture dts)

/-! ## Emitting again -/

theorem fst_send_ne_again (sh : Shared) (picture : Picture) :
    (sh.send picture).1 ≠ .ok .again := by
  unfold send
  split <;> simp

theorem fst_complete_ne_again (sh : Shared) (layer : Nat) (first second : Field) :
    (sh.complete layer first second).1 ≠ .ok .again := by
  unfold complete
  split <;> simp

theorem stash_dropStash (sh : Shared) : sh.dropStash.scheduler.stash = none := by
  unfold dropStash
  split
  · assumption
  · rfl

/-- A field is only to be emitted again after it used up the stash. -/
theorem stash_of_pair_again {sh : Shared} {victim : Victim}
    (h : (sh.pair victim).1 = .ok .again) :
    sh.scheduler.stash.isSome ∧ (sh.pair victim).2.scheduler.stash = none := by
  unfold pair at h ⊢
  split at h
  · simp at h
  · split at h
    · simp at h
    · rename_i first hs
      split at h
      · exact absurd h (fst_complete_ne_again _ _ _ _)
      · rename_i hl
        rw [hs, if_neg ‹_›]
        simp only [if_neg hl]
        exact ⟨rfl, stash_dropStash sh⟩

/-- A picture is only to be emitted again after it used up the stash. -/
theorem stash_of_emit_again {sh : Shared} {victim : Victim} {dts : Option Int}
    (h : (sh.emit victim dts).1 = .ok .again) :
    sh.scheduler.stash.isSome ∧ (sh.emit victim dts).2.scheduler.stash = none := by
  unfold emit at h ⊢
  dsimp only at h ⊢
  split at h
  · rename_i hf
    rw [if_pos hf]
    split at h
    · simp at h
    · rename_i sh' hp
      have := stash_of_pair_again (congrArg Prod.fst hp)
      rw [hp] at this
      exact this
    · exact absurd h (fst_send_ne_again _ _)
    · simp at h
  · exact absurd h (fst_send_ne_again _ _)

end Shared

end PictureBuffer
