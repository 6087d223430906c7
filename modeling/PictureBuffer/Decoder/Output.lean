import PictureBuffer.Decoder.Basic
import PictureBuffer.Pairing

/-!
# Output in presentation order

Pictures that wait for output are **pending**. An output pass takes them out of the buffer one
by one, smallest picture order count first, as long as too many access units are pending or,
with at least one pending, some layer holds too many pictures (`Decoder.nextVictim?`).

A step (`Decoder.bump`) takes the output flag off its victim, except when

* the victim is a field with the order count of the picture that this decoder is still decoding,
  which ends the pass;
* the victim is a field that another thread has yet to produce, and must be waited for;
* the stash was dropped for the sake of the victim, which is then taken out again.

The last case uses up the stash, so every step of a pass lowers `Decoder.backlog`, and the pass
ends (`backlog_bump_lt`).

Model of `output_frames` (`Decoder.output`), `bump` and `flush_all` (`Decoder.flush`). A wait for a
frame ends the pass (`PassEnd.waiting`). The pass keeps nothing of its own, so that another pass
after the frame is settled goes on where this one stopped.
-/

namespace PictureBuffer

/-- What an output pass is asked to do. Layers are given as bit masks. -/
structure OutputPass where
  /-- The layers whose pictures are considered. -/
  active : Nat
  /-- The layers whose pictures are output. Those of others are dropped. -/
  shown : Nat
  /-- Access units that may stay pending. -/
  maxPending : Nat
  /-- Pictures that a layer may hold while others are pending. -/
  maxInUse : Nat
  /-- Pictures of no layer are output. -/
  discard : Bool := false
  deriving DecidableEq, Repr

/-- Pictures of `layer` are output. -/
def OutputPass.shows (pass : OutputPass) (layer : Nat) : Bool :=
  !pass.discard && pass.shown.testBit layer

/-- A picture of `layer` taken out of its slot, which held `frame`. -/
def Slot.victim (slot : Slot) (layer : Nat) (frame : FrameId) : Victim where
  layer
  frame
  poc := slot.poc
  picStruct := slot.picStruct
  props := slot.props

/-- How a step of an output pass ended. -/
inductive Bump
  | next
  /-- The victim is a field that this decoder is still decoding (`isOwnField`). -/
  | deferred
  /-- The victim's frame must be waited for. -/
  | waiting (frame : FrameId)
  deriving DecidableEq, Repr

/-- Why an output pass ended. -/
inductive PassEnd
  /-- No more pictures have to be output. -/
  | settled
  /-- The next picture is a field that this decoder is still decoding. -/
  | deferred
  /-- The next picture's frame must be waited for. -/
  | waiting (frame : FrameId)
  deriving DecidableEq, Repr

namespace Decoder

/-! ## Choosing a victim -/

/-- The layers in `mask`, with their numbers. -/
def activeLayers (d : Decoder) (mask : Nat) : List (Nat × Layer) :=
  d.layers.toList.filter fun entry => mask.testBit entry.1

/-- The pictures of a layer that wait for output, by index. -/
def pendingIn (n : Nat) (layer : Layer) : List (SlotRef × Slot) :=
  (layer.dpb.slots.zipIdx.filter (·.1.flags.output)).map fun entry => (⟨n, entry.2⟩, entry.1)

/-- The pictures of the layers in `mask` that wait for output, by layer and index. -/
def pending (d : Decoder) (mask : Nat) : List (SlotRef × Slot) :=
  (d.activeLayers mask).flatMap fun entry => pendingIn entry.1 entry.2

/-- The base layer's picture of the same access unit waits for output too. -/
def basePending (d : Decoder) (slot : Slot) : Bool :=
  (slot.base.bind d.layers.base.dpb.slot?).any (·.flags.output)

/-- Access units pending in the layers in `mask`. Pictures of one access unit count once. -/
def pendingUnits (d : Decoder) (mask : Nat) : Nat :=
  (d.pending mask).countP fun entry => !d.basePending entry.2

/-- Some layer in `mask` holds more than `limit` pictures. -/
def overfull (d : Decoder) (mask limit : Nat) : Bool :=
  (d.activeLayers mask).any fun entry => limit < entry.2.dpb.numInUse

/-- The pass has to take a picture out of the buffer. -/
def mustBump (d : Decoder) (pass : OutputPass) : Bool :=
  let units := d.pendingUnits pass.active
  pass.maxPending < units || (0 < units && d.overfull pass.active pass.maxInUse)

/-- The next picture to be taken out, if one has to be: the first pending one in the order of
picture order count, layer and index. -/
def nextVictim? (d : Decoder) (pass : OutputPass) : Option (SlotRef × Slot) :=
  if d.mustBump pass then (d.pending pass.active).minOn? (·.2.poc) else none

/-! ## One step -/

/-- The victim is a field with the order count of the picture that this decoder is decoding. -/
def isOwnField (d : Decoder) (slot : Slot) : Bool :=
  slot.picStruct.isField && d.decoding && slot.poc == d.poc

/-- What becomes of a frame's production, as far as the output can tell: a field produced by
another thread is waited for. -/
def outcome? (d : Decoder) (slot : Slot) (frame : FrameId) : Option Bool :=
  let progress := (d.store.frame frame).progress
  if slot.picStruct.isField && d.config.threading = .frame then progress.awaited?
  else some (progress != .cancelled)

/-- Drops a victim that was never produced. -/
def dropCancelled (d : Decoder) (ref : SlotRef) (slot : Slot) (shown : Bool) : Decoder :=
  let d :=
    if shown && slot.picStruct.isField then
      { d with scheduler := d.scheduler.recordOrphans 1 }
    else d
  d.stripOutput ref

/-- Emits a victim. -/
def emit (d : Decoder) (ref : SlotRef) (slot : Slot) (frame : FrameId) :
    Except Fault Bump × Decoder :=
  match d.toShared.emit (slot.victim ref.layer frame) d.dts with
  | (.ok .again, shared) => (.ok .next, { d with toShared := shared })
  | (.ok .done, shared) => (.ok .next, { d with toShared := shared }.stripOutput ref)
  | (.error fault, shared) => (.error fault, { d with toShared := shared }.stripOutput ref)

/-- Takes a picture out of the buffer. -/
def bump (d : Decoder) (pass : OutputPass) (ref : SlotRef) (slot : Slot) :
    Except Fault Bump × Decoder :=
  match slot.frame with
  | none => (.error (.emptySlot ref), d)
  | some frame =>
    if d.isOwnField slot then (.ok .deferred, d)
    else
      match d.outcome? slot frame with
      | none => (.ok (.waiting frame), d)
      | some false => (.ok .next, d.dropCancelled ref slot (pass.shows ref.layer))
      | some true =>
        if pass.shows ref.layer then d.emit ref slot frame
        else (.ok .next, d.stripOutput ref)

/-! ## A pass comes to an end -/

/-- Pictures of a layer that wait for output. -/
def numPending (slots : List Slot) : Nat := slots.countP (·.flags.output)

/-- A bound on the steps that an output pass may still take: each pending picture may be taken
out twice, but the first time uses up the stash. -/
def backlog (d : Decoder) : Nat :=
  2 * (numPending d.layers.base.dpb.slots + numPending d.layers.enhancement.dpb.slots)
  + d.scheduler.stash.isSome.toNat

/-- Taking the output flag off a pending picture leaves one fewer. -/
theorem numPending_strip :
    ∀ {slots : List Slot} {i : Nat} {slot : Slot}, slots[i]? = some slot →
      slot.flags.output = true →
      numPending (slots.modify i (·.strip .waiting)) + 1 = numPending slots
  | [], _, _, h, _ => by simp at h
  | s :: slots, 0, slot, h, ho => by
    obtain rfl : s = slot := by simpa using h
    simp [numPending, ho, Slot.flags_strip, Flags.without, Flags.waiting]
  | s :: slots, i + 1, slot, h, ho => by
    have ih := @numPending_strip slots i slot (by simpa using h) ho
    simp only [numPending, List.modify_succ_cons, List.countP_cons] at ih ⊢
    omega

theorem scheduler_stripOutput (d : Decoder) (ref : SlotRef) :
    (d.stripOutput ref).scheduler = d.scheduler := by
  unfold stripOutput onDpb
  split <;> rfl

/-- Taking the output flag off a pending picture clears two steps of the backlog. -/
theorem backlog_stripOutput {d : Decoder} {ref : SlotRef} {slot : Slot}
    (h : d.slot? ref = some slot) (ho : slot.flags.output = true) :
    (d.stripOutput ref).backlog + 2 = d.backlog := by
  unfold backlog
  rw [scheduler_stripOutput]
  obtain ⟨layer, index⟩ := ref
  match layer with
  | 0 =>
    have := @numPending_strip d.layers.base.dpb.slots index slot h ho
    simp only [stripOutput, onDpb, layer?, Layers.get?, Layers.set, Dpb.strip, Dpb.modify]
    omega
  | 1 =>
    have := @numPending_strip d.layers.enhancement.dpb.slots index slot h ho
    simp only [stripOutput, onDpb, layer?, Layers.get?, Layers.set, Dpb.strip, Dpb.modify]
    omega
  | n + 2 => simp [slot?, layer?, Layers.get?] at h

theorem mem_pendingIn {n : Nat} {layer : Layer} {ref : SlotRef} {slot : Slot} :
    (ref, slot) ∈ pendingIn n layer ↔
      ref.layer = n ∧ layer.dpb.slot? ref.index = some slot ∧ slot.flags.output = true := by
  obtain ⟨l, i⟩ := ref
  simp only [pendingIn, List.mem_map, List.mem_filter, Prod.exists, Prod.mk.injEq,
    List.mem_zipIdx_iff_getElem?, SlotRef.mk.injEq, Dpb.slot?]
  constructor
  · rintro ⟨s, j, ⟨hj, ho⟩, ⟨rfl, rfl⟩, rfl⟩
    exact ⟨rfl, hj, ho⟩
  · rintro ⟨rfl, hi, ho⟩
    exact ⟨slot, i, ⟨hi, ho⟩, ⟨rfl, rfl⟩, rfl⟩

/-- The pending pictures are those of active layers that carry the output flag. -/
theorem mem_pending {d : Decoder} {mask : Nat} {ref : SlotRef} {slot : Slot} :
    (ref, slot) ∈ d.pending mask ↔
      mask.testBit ref.layer = true ∧ d.slot? ref = some slot ∧ slot.flags.output = true := by
  simp only [pending, activeLayers, List.mem_flatMap, List.mem_filter, Prod.exists,
    mem_pendingIn, Layers.toList, List.mem_cons, Prod.mk.injEq, List.not_mem_nil, or_false]
  obtain ⟨l, i⟩ := ref
  constructor
  · rintro ⟨n, layer, ⟨h | h, hm⟩, hl, hs, ho⟩
    · obtain ⟨rfl, rfl⟩ := h
      cases hl
      exact ⟨hm, hs, ho⟩
    · obtain ⟨rfl, rfl⟩ := h
      cases hl
      exact ⟨hm, hs, ho⟩
  · rintro ⟨hm, hs, ho⟩
    match l with
    | 0 => exact ⟨0, _, ⟨Or.inl ⟨rfl, rfl⟩, hm⟩, rfl, hs, ho⟩
    | 1 => exact ⟨1, _, ⟨Or.inr ⟨rfl, rfl⟩, hm⟩, rfl, hs, ho⟩
    | n + 2 => simp [slot?, layer?, Layers.get?] at hs

theorem mem_pending_of_nextVictim? {d : Decoder} {pass : OutputPass} {victim : SlotRef × Slot}
    (h : d.nextVictim? pass = some victim) : victim ∈ d.pending pass.active := by
  unfold nextVictim? at h
  split at h
  · exact List.minOn?_mem h
  · cases h

theorem backlog_emit_lt {d : Decoder} {ref : SlotRef} {slot : Slot} {frame : FrameId}
    (h : d.slot? ref = some slot) (ho : slot.flags.output = true)
    (hn : (d.emit ref slot frame).1 = .ok .next) :
    (d.emit ref slot frame).2.backlog < d.backlog := by
  unfold emit at hn ⊢
  split at hn
  · rename_i shared he
    obtain ⟨hsome, hnone⟩ := Shared.stash_of_emit_again (congrArg Prod.fst he)
    rw [he] at hnone
    have hnone : shared.scheduler.stash = none := hnone
    simp [backlog, hsome, hnone]
  · rename_i shared he
    have hs := @backlog_stripOutput { d with toShared := shared } ref slot h ho
    have hb : ({ d with toShared := shared } : Decoder).backlog ≤ d.backlog + 1 := by
      simp only [backlog]
      have := Bool.toNat_le shared.scheduler.stash.isSome
      omega
    simp only
    omega
  · simp at hn

/-- Every step of a pass lowers the **backlog**. -/
theorem backlog_bump_lt {d d' : Decoder} {pass : OutputPass} {ref : SlotRef} {slot : Slot}
    (hv : d.nextVictim? pass = some (ref, slot)) (hb : d.bump pass ref slot = (.ok .next, d')) :
    d'.backlog < d.backlog := by
  obtain ⟨-, h, ho⟩ := mem_pending.mp (mem_pending_of_nextVictim? hv)
  have hs := backlog_stripOutput h ho
  unfold bump at hb
  split at hb
  · cases hb
  · rename_i frame hf
    split at hb
    · cases hb
    · split at hb
      · cases hb
      · cases hb
        have hs := @backlog_stripOutput { d with scheduler := d.scheduler.recordOrphans 1 } ref
          slot h ho
        have he : ({ d with scheduler := d.scheduler.recordOrphans 1 } : Decoder).backlog
          = d.backlog := rfl
        unfold dropCancelled
        dsimp only
        split <;> omega
      · split at hb
        · have hlt := @backlog_emit_lt d ref slot frame h ho (congrArg Prod.fst hb)
          rwa [hb] at hlt
        · cases hb
          omega

/-- Outputs pictures until no more than `pass.maxPending` access units are pending and, unless
none is, no active layer holds more than `pass.maxInUse` pictures. -/
def output (d : Decoder) (pass : OutputPass) : Except Fault PassEnd × Decoder :=
  match _ : d.nextVictim? pass with
  | none => (.ok .settled, d)
  | some (ref, slot) =>
    match _ : d.bump pass ref slot with
    | (.error fault, d) => (.error fault, d)
    | (.ok .deferred, d) => (.ok .deferred, d)
    | (.ok (.waiting frame), d) => (.ok (.waiting frame), d)
    | (.ok .next, d) => d.output pass
termination_by d.backlog
decreasing_by exact backlog_bump_lt ‹_› ‹_›

/-- How a pass goes on after its first step. -/
theorem output_of_bump {d d₁ : Decoder} {pass : OutputPass} {ref : SlotRef} {slot : Slot}
    {result : Except Fault Bump}
    (hv : d.nextVictim? pass = some (ref, slot)) (hb : d.bump pass ref slot = (result, d₁)) :
    d.output pass = match result with
      | .error fault => (.error fault, d₁)
      | .ok .deferred => (.ok .deferred, d₁)
      | .ok (.waiting frame) => (.ok (.waiting frame), d₁)
      | .ok .next => d₁.output pass := by
  rw [output]
  split
  · rename_i hn
    rw [hv] at hn
    cases hn
  · rename_i hs
    rw [hv] at hs
    cases hs
    split
    all_goals
      rename_i hb'
      rw [hb] at hb'
      cases hb'
      rfl

/-! ## Flushing -/

/-- Takes the current picture off the pictures that wait for output if it is still being decoded,
and gives it up. -/
def dropCurrent (d : Decoder) : Decoder :=
  let d := match d.decoding, d.current with
    | true, some ref => d.stripOutput ref
    | _, _ => d
  d.abandonPicture

/-- The pass that leaves no picture pending. -/
def flushPass (d : Decoder) : OutputPass where
  active := 3
  shown := d.config.outputLayers
  maxPending := 0
  maxInUse := 0

/-- Drops the current picture if it is still being decoded, outputs every other pending picture
of the layers that the configuration shows, removes all pictures, and drops the stash. A failure
of the output half-way is reported at the end. -/
def flush (d : Decoder) : Except Fault PassEnd × Decoder :=
  match d.dropCurrent.output d.flushPass with
  | (.ok (.waiting frame), d) => (.ok (.waiting frame), d)
  | (result, d) =>
    let d := d.clear
    (result, { d with toShared := d.toShared.dropStash })

end Decoder

end PictureBuffer
