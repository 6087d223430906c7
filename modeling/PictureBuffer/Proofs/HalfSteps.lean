import PictureBuffer.Proofs.Contents

/-!
# A step of an output pass, in two halves

A step looks at the next victim and how far the production of its frame has come
(`Decoder.check?`), and takes the victim out as that was judged (`Decoder.conclude`). When the frame
must be waited for, the first half takes its time. Without anything in between, the two are
`Decoder.bump` (`bump_eq_conclude`).

What the second half can do is listed in `conclude_cases`. It sends a frame picture as it is, and
for a field what is woven from the stash and the field (`sent_of_conclude`). A picture that was found
cancelled is not sent, and no longer waits for output (`conclude_dropped`).
-/

namespace PictureBuffer

/-- A victim that a decoder has looked at and is about to take out. -/
structure Checked where
  pass : OutputPass
  ref : SlotRef
  slot : Slot
  frame : FrameId
  /-- How far the production of the frame had come then. -/
  seen : Progress

def Checked.victim (c : Checked) : Victim := c.slot.victim c.ref.layer c.frame

/-! ## What an emission sends -/

namespace Shared

variable {sh : Shared} {victim : Victim} {dts : Option Int} {picture : Picture}

/-- The fields `even` and `odd` are the stash and the victim, each in its lines, and they are woven
into the frame `woven`. -/
def Weaves (sh : Shared) (victim : Victim) (even odd : Field) (woven : FrameId) : Prop :=
  ∃ first sh', sh.scheduler.stash = some first ∧
    even = evenLines first victim.field ∧ odd = oddLines first victim.field ∧
    (sh.pop victim.poc).takeStash.weave even.frame odd.frame = (.ok woven, sh')

/-- What the stash and the victim have in common, the woven fields have. -/
theorem Weaves.forall {even odd : Field} {woven : FrameId} {p : FrameId → Prop}
    (h : sh.Weaves victim even odd woven)
    (hstash : ∀ field, sh.scheduler.stash = some field → p field.frame) (hvictim : p victim.frame) :
    p even.frame ∧ p odd.frame := by
  obtain ⟨first, sh', hs, rfl, rfl, -⟩ := h
  have hfirst := hstash first hs
  unfold evenLines oddLines
  split
  · exact ⟨hvictim, hfirst⟩
  · exact ⟨hfirst, hvictim⟩

/-- **A picture that goes to the queue for a field** is woven from the stash and the field. -/
theorem weaves_of_emit (hf : victim.picStruct.isField = true)
    (hq : (sh.emit victim dts).2.queue.pictures = sh.queue.pictures ++ [picture]) :
    ∃ even odd, sh.Weaves victim even odd picture.frame := by
  have kept : sh.queue.pictures ≠ sh.queue.pictures ++ [picture] := by simp
  have sent : ∀ {sh' : Shared} {sent : Picture}, sh'.queue = sh.queue →
      (sh'.send sent).2.queue.pictures = sh.queue.pictures ++ [picture] → sent = picture := by
    intro sh' sent hsame h
    obtain ⟨-, he⟩ | ⟨-, he⟩ := send_cases sh' sent
    · rw [he, hsame] at h
      simpa using h
    · rw [he, hsame] at h
      exact absurd h kept
  have hpairQueue := queue_pair (sh.pop victim.poc) victim
  obtain ⟨hframe, -⟩ | ⟨woven, sh', -, hpair, he⟩ | ⟨result, sh', -, hpair, -, he⟩ :=
    emit_cases sh victim dts
  · exact absurd (hf.symm.trans hframe) Bool.noConfusion
  · rw [hpair] at hpairQueue
    rw [he] at hq
    obtain rfl := sent hpairQueue hq
    -- Only the pair that the victim completes is woven.
    obtain ⟨-, hcase⟩ | ⟨-, -, hcase⟩ | ⟨first, -, hs, -, hcase⟩ | ⟨first, -, -, -, hcase⟩ :=
      pair_cases (sh.pop victim.poc) victim
    · rw [hcase] at hpair
      cases hpair
    · rw [hcase] at hpair
      cases hpair
    · obtain ⟨sh'', hw, hcomplete⟩ | ⟨frame, sh'', hw, hcomplete⟩ :=
        complete_cases (sh.pop victim.poc).takeStash victim.layer first victim.field
      · rw [hcase, hcomplete] at hpair
        cases hpair
      · rw [hcase, hcomplete] at hpair
        cases hpair
        exact ⟨_, _, first, sh'', hs, rfl, rfl, hw⟩
    · rw [hcase] at hpair
      split at hpair <;> cases hpair
  · rw [hpair] at hpairQueue
    rw [he] at hq
    exact absurd ((congrArg Queue.pictures hpairQueue).symm.trans hq) kept

/-- A picture that goes to the queue for a frame picture is that picture. -/
theorem picture_of_emit (hf : victim.picStruct.isField = false)
    (hq : (sh.emit victim dts).2.queue.pictures = sh.queue.pictures ++ [picture]) :
    picture = victim.picture dts := by
  obtain ⟨sent, he, hsends⟩ | ⟨he, -⟩ := sh.sends_emit victim dts
  · rw [he] at hq
    obtain rfl : sent = picture := by simpa using hq
    exact hsends.frame hf
  · rw [he] at hq
    simp at hq

end Shared

namespace Decoder

variable {d d' : Decoder} {ref : SlotRef} {slot : Slot} {pass : OutputPass} {c : Checked}

/-! ## A step of an output pass, cut in two -/

/-- What becomes of a picture whose production has come as far as `progress`: whether it was
produced, or nothing while it must be waited for. -/
def judge? (d : Decoder) (slot : Slot) (progress : Progress) : Option Bool :=
  if slot.picStruct.isField && d.config.threading = .frame then progress.awaited?
  else some (progress != .cancelled)

theorem outcome?_eq (d : Decoder) (slot : Slot) (frame : FrameId) :
    d.outcome? slot frame = d.judge? slot (d.store.frame frame).progress := rfl

/-- The next victim, unless the pass is over or must wait. -/
def check? (d : Decoder) (pass : OutputPass) : Option Checked :=
  match d.nextVictim? pass with
  | none => none
  | some (ref, slot) =>
    match slot.frame with
    | none => none
    | some frame =>
      let seen := (d.store.frame frame).progress
      if d.isOwnField slot = false ∧ (d.judge? slot seen).isSome = true then
        some ⟨pass, ref, slot, frame, seen⟩
      else none

/-- Takes a victim out, as it was judged when the decoder looked at it. -/
def conclude (d : Decoder) (c : Checked) : Except Fault Bump × Decoder :=
  if d.judge? c.slot c.seen = some true then
    if c.pass.shows c.ref.layer then d.emit c.ref c.slot c.frame
    else (.ok .next, d.stripOutput c.ref)
  else (.ok .next, d.dropCancelled c.ref c.slot (c.pass.shows c.ref.layer))

/-- What a decoder knows of a victim that it has looked at. -/
structure Looked (d : Decoder) (pass : OutputPass) (c : Checked) : Prop where
  victim : d.nextVictim? pass = some (c.ref, c.slot)
  pass : c.pass = pass
  frame : c.slot.frame = some c.frame
  seen : c.seen = (d.store.frame c.frame).progress
  other : d.isOwnField c.slot = false
  judged : (d.judge? c.slot c.seen).isSome = true

theorem looked_of_check? (h : d.check? pass = some c) : d.Looked pass c := by
  unfold check? at h
  split at h
  · cases h
  · rename_i ref slot hv
    split at h
    · cases h
    · rename_i frame hf
      dsimp only at h
      split at h
      · rename_i hc
        cases h
        exact ⟨hv, rfl, hf, rfl, hc.1, hc.2⟩
      · cases h

/-- **Without anything in between**, the two halves are a step of the pass. -/
theorem bump_eq_conclude (h : d.Looked pass c) : d.bump pass c.ref c.slot = d.conclude c := by
  have hw : d.outcome? c.slot c.frame = d.judge? c.slot c.seen := by rw [outcome?_eq, h.seen]
  unfold bump conclude
  rw [h.frame, h.pass]
  dsimp only
  rw [h.other, hw]
  cases hj : d.judge? c.slot c.seen with
  | none =>
    have hjudged := h.judged
    rw [hj] at hjudged
    cases hjudged
  | some produced => cases produced <;> rfl

/-- A step whose victim cannot be looked at yet does nothing. -/
theorem bump_of_unchecked (hv : d.nextVictim? pass = some (ref, slot)) (h : d.check? pass = none) :
    (d.bump pass ref slot).2 = d := by
  unfold check? at h
  rw [hv] at h
  dsimp only at h
  unfold bump
  cases hf : slot.frame with
  | none => rfl
  | some frame =>
    rw [hf] at h
    dsimp only at h ⊢
    by_cases ho : d.isOwnField slot = true
    · rw [if_pos ho]
    · rw [if_neg ho]
      rw [Bool.not_eq_true] at ho
      rw [outcome?_eq]
      cases hj : d.judge? slot (d.store.frame frame).progress with
      | none => rfl
      | some produced => simp [ho, hj] at h

/-- **What taking a victim out can do**: hand it to the output process, or drop it. -/
theorem conclude_cases (d : Decoder) (c : Checked) :
    (d.judge? c.slot c.seen = some true ∧ c.pass.shows c.ref.layer = true ∧
      ∃ again : Bool, (d.conclude c).2 =
        let d' : Decoder := { d with toShared := (d.toShared.emit c.victim d.dts).2 }
        if again then d' else d'.stripOutput c.ref) ∨
    ((d.judge? c.slot c.seen = some true → c.pass.shows c.ref.layer = false) ∧
      ∃ n, (d.conclude c).2 =
        ({ d with scheduler := d.scheduler.recordOrphans n } : Decoder).stripOutput c.ref) := by
  unfold conclude
  by_cases hj : d.judge? c.slot c.seen = some true
  · rw [if_pos hj]
    by_cases hs : c.pass.shows c.ref.layer = true
    · rw [if_pos hs]
      refine Or.inl ⟨hj, hs, ?_⟩
      unfold emit Checked.victim
      rcases d.toShared.emit (c.slot.victim c.ref.layer c.frame) d.dts with ⟨_ | _ | _, shared⟩
      · exact ⟨false, rfl⟩
      · exact ⟨false, rfl⟩
      · exact ⟨true, rfl⟩
    · rw [if_neg hs]
      rw [Bool.not_eq_true] at hs
      exact Or.inr ⟨fun _ => hs, 0, rfl⟩
  · rw [if_neg hj]
    refine Or.inr ⟨fun h => absurd h hj, ?_⟩
    unfold dropCancelled
    dsimp only
    split
    · exact ⟨1, rfl⟩
    · exact ⟨0, rfl⟩

theorem conclude_eq (d : Decoder) (c : Checked) :
    ∃ layers shared, (d.conclude c).2 = { d with layers, toShared := shared } := by
  have stripped : ∀ shared : Shared, ∃ layers shared',
      ({ d with toShared := shared } : Decoder).stripOutput c.ref =
        { d with layers, toShared := shared' } := by
    intro shared
    obtain ⟨layers, store, he⟩ := ({ d with toShared := shared } : Decoder).stripOutput_eq c.ref
    exact ⟨layers, { shared with store }, he⟩
  obtain ⟨-, -, again, he⟩ | ⟨-, orphans, he⟩ := d.conclude_cases c
  · rw [he]
    cases again with
    | true => exact ⟨d.layers, _, rfl⟩
    | false => exact stripped _
  · rw [he]
    exact stripped _

theorem grows_conclude (hs : d.slot? c.ref = some c.slot) (hf : c.slot.frame = some c.frame) :
    d.Grows (d.conclude c).2 := by
  have stripped : ∀ {d' : Decoder}, d.Grows d' → d.Grows (d'.stripOutput c.ref) :=
    fun h => h.trans (steady_stripOutput _ c.ref).toGrows
  obtain ⟨-, -, again, he⟩ | ⟨-, orphans, he⟩ := d.conclude_cases c
  · rw [he]
    cases again with
    | true => exact grows_emitted hs hf
    | false => exact stripped (grows_emitted hs hf)
  · rw [he]
    exact stripped (d.grows_recordOrphans orphans)

/-- **What is sent when a victim is taken out**: the victim if it is a frame picture, and what is
woven from it and the stash if it is a field. -/
theorem sent_of_conclude {picture : Picture}
    (hq : (d.conclude c).2.queue.pictures = d.queue.pictures ++ [picture]) :
    d.judge? c.slot c.seen = some true ∧
      (c.slot.picStruct.isField = false → picture.frame = c.frame) ∧
      (c.slot.picStruct.isField = true →
        ∃ even odd, d.toShared.Weaves c.victim even odd picture.frame) := by
  obtain ⟨hj, -, again, he⟩ | ⟨-, orphans, he⟩ := d.conclude_cases c
  · have hemit : (d.toShared.emit c.victim d.dts).2.queue.pictures =
        d.queue.pictures ++ [picture] := by
      rw [he] at hq
      cases again with
      | true => exact hq
      | false => exact (congrArg Queue.pictures (Moment.queue_stripOutput _ _)).symm.trans hq
    refine ⟨hj, fun hf => ?_, fun hf => Shared.weaves_of_emit hf hemit⟩
    exact congrArg Picture.frame (Shared.picture_of_emit hf hemit)
  · rw [he, Moment.queue_stripOutput] at hq
    simp at hq

/-- **What waits after a victim was taken out** has waited before, or is the victim, a field. -/
theorem stash_of_conclude {field : Field}
    (h : (d.conclude c).2.scheduler.stash = some field) :
    d.scheduler.stash = some field ∨ field = c.victim.field ∧ c.slot.picStruct.isField = true ∧
      d.judge? c.slot c.seen = some true := by
  obtain ⟨hj, -, again, he⟩ | ⟨-, orphans, he⟩ := d.conclude_cases c
  · have hemit : (d.toShared.emit c.victim d.dts).2.scheduler.stash = some field := by
      rw [he] at h
      cases again with
      | true => exact h
      | false => exact (congrArg Scheduler.stash (scheduler_stripOutput _ _)).symm.trans h
    obtain ⟨hfield, hf⟩ := Shared.stash_emit hemit
    exact Or.inr ⟨hfield, hf, hj⟩
  · rw [he, scheduler_stripOutput] at h
    exact Or.inl h

/-- Taking a victim out sends one picture, or none. -/
theorem pictures_conclude (d : Decoder) (c : Checked) : ∃ sent : Option Picture,
    (d.conclude c).2.queue.pictures = d.queue.pictures ++ sent.toList := by
  obtain ⟨-, -, again, he⟩ | ⟨-, orphans, he⟩ := d.conclude_cases c
  · obtain ⟨sent, hq⟩ := Shared.queue_emit d.toShared c.victim d.dts
    refine ⟨sent, ?_⟩
    rw [he]
    cases again with
    | true => exact congrArg Queue.pictures hq
    | false =>
      refine (congrArg Queue.pictures (Moment.queue_stripOutput _ _)).trans ?_
      exact congrArg Queue.pictures hq
  · refine ⟨none, ?_⟩
    rw [he, Moment.queue_stripOutput]
    exact (List.append_nil _).symm

/-- A victim that was never produced loses its output flag and is not sent. -/
theorem conclude_dropped (h : d.judge? c.slot c.seen = some false)
    (hs : d.slot? c.ref = some c.slot) :
    (d.conclude c).2.queue = d.queue ∧
      (d.conclude c).2.slot? c.ref = some (c.slot.strip .waiting) := by
  obtain ⟨hj, -⟩ | ⟨-, orphans, he⟩ := d.conclude_cases c
  · rw [h] at hj
    cases hj
  · rw [he]
    refine ⟨Moment.queue_stripOutput _ _, ?_⟩
    rw [slot?_stripOutput, if_pos rfl]
    exact congrArg (Option.map _) hs

end Decoder

end PictureBuffer
