import PictureBuffer.Proofs.Independence
import PictureBuffer.Proofs.Teardown

/-!
# Output passes that fail

An output pass may fail after any number of steps, for want of a frame to weave into or of room in
the queue (`OutputPass.Fails`). The picture whose emission failed then loses its output flag like
those before it, and the pass ends (`Decoder.FailsAt`):

* the pictures that lost their output flag are a prefix of the order of presentation, which ends
  with the picture whose emission failed;
* the queue holds what the earlier steps have sent, and nothing of this picture. It may have been
  tried twice, the first time at the cost of the stash, but then nothing was sent either;
* no field waits.

Apart from that, every slot is as it was before (`Decoder.LosesOutput`). `output_failure` says so of
every pass of every run, also of one that has to wait for frames on the way.
-/

namespace PictureBuffer

/-- Flags taken off a slot that holds a frame. -/
theorem Slot.strip_of_held {slot : Slot} (h : slot.frame.isSome = true) (mask : Flags) :
    slot.strip mask = if (slot.flags.without mask).isEmpty then { poc := slot.poc }
      else { slot with flags := slot.flags.without mask } := by
  have hfree : slot.isFree = false := by
    rw [isFree, Option.isNone_eq_false_iff]
    exact h
  rw [strip, hfree, Bool.not_false, Bool.and_true]

/-! ## An emission that is not done -/

namespace Shared

variable {sh : Shared} {victim : Victim} {dts : Option Int}

/-- An emission that fails, or is to be made again, sends nothing. -/
theorem queue_of_emit_ne_done (h : (sh.emit victim dts).1 ≠ .ok .done) :
    (sh.emit victim dts).2.queue = sh.queue := by
  have unsent : ∀ {sh' : Shared} {picture : Picture}, (sh'.send picture).1 ≠ .ok .done →
      (sh'.send picture).2.queue = sh'.queue := by
    intro sh' picture hne
    obtain ⟨-, he⟩ | ⟨-, he⟩ := send_cases sh' picture
    · exact absurd (congrArg Prod.fst he) hne
    · rw [he]
  have hpair := queue_pair (sh.pop victim.poc) victim
  obtain ⟨-, he⟩ | ⟨picture, sh', -, hp, he⟩ | ⟨result, sh', -, hp, -, he⟩ :=
    emit_cases sh victim dts
  · rw [he] at h ⊢
    exact (unsent h).trans (queue_dropStash (sh.pop victim.poc))
  · rw [hp] at hpair
    rw [he] at h ⊢
    exact (unsent h).trans hpair
  · rw [hp] at hpair
    rw [he]
    exact hpair

/-- An emission that fails leaves no field waiting. -/
theorem stash_of_emit_error {fault : Fault} (h : (sh.emit victim dts).1 = .error fault) :
    (sh.emit victim dts).2.scheduler.stash = none := by
  refine Option.eq_none_iff_forall_ne_some.mpr fun field hs => ?_
  obtain ⟨-, hf, hstarts⟩ := stash_emit_iff.mp hs
  have hpair : (sh.pop victim.poc).pair victim =
      (.ok .stashed, (sh.pop victim.poc).putStash victim.field) := by
    rw [pair]
    exact if_pos hstarts
  rw [emit, if_pos hf, hpair] at h
  cases h

end Shared

namespace Moment

variable {m : Moment} {victim : Victim}

theorem sent?_eq_none (h : m.next.queue = m.decoder.queue) : m.sent? = none := by
  rw [sent?, h]
  exact List.getElem?_eq_none (Nat.le_refl _)

/-- A step whose emission is not done sends nothing. -/
theorem sent?_of_ne_done (hh : m.handed? = some victim)
    (h : (m.decoder.toShared.emit victim m.decoder.dts).1 ≠ .ok .done) : m.sent? = none := by
  refine sent?_eq_none ?_
  rw [queue_next, hh]
  exact Shared.queue_of_emit_ne_done h

/-- **A step that goes on** has taken its victim out, or left the buffers alone and sent nothing. -/
theorem next_cases {d' : Decoder}
    (h : m.decoder.bump m.pass m.ref m.slot = (.ok .next, d')) :
    d'.layers = m.decoder.layers.without [m.ref] ∨
      d'.layers = m.decoder.layers ∧ m.sent? = none := by
  cases hh : m.handed? with
  | none =>
    obtain ⟨-, hne, -⟩ | ⟨orphans, he⟩ := bump_of_unhanded hh
    · rw [h] at hne
      exact absurd rfl hne
    · rw [he] at h
      cases h
      exact Or.inl (Decoder.layers_stripOutput _ _)
  | some victim =>
    rcases he : m.decoder.toShared.emit victim m.decoder.dts with ⟨result, shared⟩
    obtain rfl := congrArg Prod.snd ((bump_of_handed hh he).symm.trans h)
    dsimp only
    split
    · rename_i hagain
      refine Or.inr ⟨rfl, sent?_of_ne_done hh ?_⟩
      rw [he, eq_ok_of_toOption hagain]
      simp
    · exact Or.inl (Decoder.layers_stripOutput _ _)

/-- **A step that fails**, with a frame in its slot, has emitted its victim in vain, and taken it
out. -/
theorem error_cases {fault : Fault} {d' : Decoder} (held : m.slot.frame.isSome = true)
    (h : m.decoder.bump m.pass m.ref m.slot = (.error fault, d')) :
    ∃ victim, m.handed? = some victim ∧
      (m.decoder.toShared.emit victim m.decoder.dts).1 = .error fault ∧
      d'.layers = m.decoder.layers.without [m.ref] ∧ d'.scheduler.stash = none := by
  cases hh : m.handed? with
  | none =>
    obtain ⟨-, -, hempty⟩ | ⟨orphans, he⟩ := bump_of_unhanded hh
    · rw [hempty fault (congrArg Prod.fst h)] at held
      cases held
    · cases he.symm.trans h
  | some victim =>
    rcases he : m.decoder.toShared.emit victim m.decoder.dts with ⟨result, shared⟩
    have hbump := (bump_of_handed hh he).symm.trans h
    cases result with
    | ok emission => cases congrArg Prod.fst hbump
    | error fault' =>
      cases hbump
      refine ⟨victim, rfl, congrArg Prod.fst he, Decoder.layers_stripOutput _ _, ?_⟩
      have hstash := Shared.stash_of_emit_error (congrArg Prod.fst he)
      rw [he] at hstash
      exact (congrArg Scheduler.stash (Decoder.scheduler_stripOutput _ _)).trans hstash

end Moment

/-! ## The steps of a pass -/

/-- Workers have gone on with some frames, and nothing else has happened. -/
inductive Decoder.Worked (d : Decoder) : Decoder → Prop
  | refl : Worked d d
  | work {d' : Decoder} (h : Worked d d') (frame : FrameId) (work : Work) :
      Worked d { d' with store := d'.store.update frame work.apply }

/-- **A pass fails**, after the steps that are listed, the last one being the one that fails. While
it waits for a frame, workers go on. -/
inductive OutputPass.Fails (pass : OutputPass) :
    Decoder → List Moment → Fault → Decoder → Prop
  | failed {d d' : Decoder} {ref : SlotRef} {slot : Slot} {fault : Fault}
      (hv : d.nextVictim? pass = some (ref, slot))
      (hb : d.bump pass ref slot = (.error fault, d')) :
      Fails pass d [⟨pass, d, ref, slot⟩] fault d'
  | next {d d' d'' : Decoder} {ref : SlotRef} {slot : Slot} {steps : List Moment} {fault : Fault}
      (hv : d.nextVictim? pass = some (ref, slot)) (hb : d.bump pass ref slot = (.ok .next, d'))
      (rest : Fails pass d' steps fault d'') :
      Fails pass d (⟨pass, d, ref, slot⟩ :: steps) fault d''
  | waited {d d' d'' : Decoder} {ref : SlotRef} {slot : Slot} {frame : FrameId}
      {steps : List Moment} {fault : Fault} (hv : d.nextVictim? pass = some (ref, slot))
      (hb : d.bump pass ref slot = (.ok (.waiting frame), d)) (worked : d.Worked d')
      (rest : Fails pass d' steps fault d'') : Fails pass d steps fault d''

namespace Decoder

variable {d d' d'' : Decoder} {pass : OutputPass} {steps : List Moment} {fault : Fault}
  {ref : SlotRef} {slot : Slot}

/-- A pass that fails without having to wait. -/
theorem fails_of_output (he : (d.output pass).1 = .error fault) :
    pass.Fails d (d.moments pass) fault (d.output pass).2 := by
  fun_induction d.output pass with
  | case1 d hv => cases he
  | case2 d ref slot hv fault' d' hb =>
    cases he
    rw [moments_of_end hv (by rw [hb]; simp)]
    exact .failed hv hb
  | case3 d ref slot hv d' hb => cases he
  | case4 d ref slot hv frame d' hb => cases he
  | case5 d ref slot hv d' hb ih =>
    rw [moments_of_next hv hb]
    exact .next hv hb (ih he)

/-- Workers change frames, and nothing else. -/
theorem Worked.eq (h : d.Worked d') : ∃ store, d' = { d with store } := by
  induction h with
  | refl => exact ⟨_, rfl⟩
  | work h frame work ih =>
    obtain ⟨store, rfl⟩ := ih
    exact ⟨_, rfl⟩

/-- The steps and the waiting change the buffers and what is shared, and nothing else. -/
theorem eq_of_fails (h : pass.Fails d steps fault d') :
    ∃ layers shared, d' = { d with layers, toShared := shared } := by
  have stepped : ∀ {d d' : Decoder} {ref : SlotRef} {slot : Slot} {result : Except Fault Bump},
      d.bump pass ref slot = (result, d') →
      ∃ layers shared, d' = { d with layers, toShared := shared } := by
    intro d d' ref slot result hb
    obtain ⟨layers, shared, he⟩ := bump_eq pass d ref slot
    rw [hb] at he
    exact ⟨layers, shared, he⟩
  induction h with
  | failed _ hb => exact stepped hb
  | next _ hb _ ih =>
    obtain ⟨layers, shared, rfl⟩ := stepped hb
    exact ih
  | waited _ _ worked _ ih =>
    obtain ⟨store, rfl⟩ := worked.eq
    exact ih

/-! ## The picture at which a pass fails -/

/-- **How a pass fails**: its steps are `before`, which go on, and `m`, which fails. That one takes
the picture at position `k` in the order of presentation. -/
structure FailsAt (d : Decoder) (pass : OutputPass) (fault : Fault) (before : List Moment)
    (m : Moment) (k : Nat) (d' : Decoder) : Prop where
  /-- The picture was handed to the output process, and its emission failed. -/
  emission : ∃ victim, m.handed? = some victim ∧
    (m.decoder.toShared.emit victim m.decoder.dts).1 = .error fault
  victim : (d.presentation pass.active)[k]? = some (m.ref, m.slot)
  /-- The pictures up to this one have lost their output flag, and the buffers are as before
  otherwise. -/
  taken : d'.layers = d.layers.without (d.firsts pass (k + 1))
  queue : d'.queue.pictures = d.queue.pictures ++ sentBy before
  /-- Nothing of the picture was sent, also if it was tried before. -/
  silent : ∀ m' ∈ before ++ [m], m'.ref = m.ref → m'.sent? = none
  stash : d'.scheduler.stash = none

/-- The first step fails. -/
theorem failsAt_first (hv : d.nextVictim? pass = some (ref, slot))
    (hb : d.bump pass ref slot = (.error fault, d')) (held : slot.frame.isSome = true) :
    d.FailsAt pass fault [] ⟨pass, d, ref, slot⟩ 0 d' := by
  obtain ⟨victim, hh, he, hl, hs⟩ := @Moment.error_cases ⟨pass, d, ref, slot⟩ fault d' held hb
  obtain ⟨rest, hp⟩ := presentation_of_nextVictim? hv
  have hsent : Moment.sent? ⟨pass, d, ref, slot⟩ = none :=
    Moment.sent?_of_ne_done hh (by rw [he]; simp)
  have hqueue := Moment.pictures_next ⟨pass, d, ref, slot⟩
  rw [hsent, Moment.next, hb] at hqueue
  constructor
  case emission => exact ⟨victim, hh, he⟩
  case victim =>
    rw [hp]
    rfl
  case taken =>
    rw [firsts_succ hv hl, firsts_zero]
    exact hl
  case queue => exact hqueue
  case silent =>
    intro m' hm' _
    rw [List.nil_append, List.mem_singleton] at hm'
    rw [hm']
    exact hsent
  case stash => exact hs

/-- A step before the failure takes its victim out, or leaves the buffers alone. -/
theorem FailsAt.cons {before : List Moment} {m : Moment} {k : Nat}
    (h : d'.FailsAt pass fault before m k d'') (hv : d.nextVictim? pass = some (ref, slot))
    (hb : d.bump pass ref slot = (.ok .next, d')) :
    ∃ k, d.FailsAt pass fault (⟨pass, d, ref, slot⟩ :: before) m k d'' := by
  obtain ⟨rest, hp⟩ := presentation_of_nextVictim? hv
  have hqueue : d''.queue.pictures =
      d.queue.pictures ++ sentBy (⟨pass, d, ref, slot⟩ :: before) := by
    have hnext := Moment.pictures_next ⟨pass, d, ref, slot⟩
    rw [Moment.next, hb] at hnext
    rw [h.queue, sentBy_cons, ← List.append_assoc]
    exact congrArg (· ++ sentBy before) hnext
  -- Both cases need that nothing was sent for this step if it took the same picture.
  have silent : (ref = m.ref → Moment.sent? ⟨pass, d, ref, slot⟩ = none) →
      ∀ m' ∈ ⟨pass, d, ref, slot⟩ :: before ++ [m], m'.ref = m.ref → m'.sent? = none := by
    intro hfirst m' hm' href
    rcases List.mem_cons.mp hm' with rfl | hm'
    · exact hfirst href
    · exact h.silent m' hm' href
  obtain htaken | ⟨hsame, hsent⟩ := @Moment.next_cases ⟨pass, d, ref, slot⟩ d' hb
  · have hrest := presentation_tail hp htaken
    have hne : m.ref ≠ ref := by
      have hmem := List.mem_of_getElem? h.victim
      rw [presentation_of_without htaken, List.mem_filter, decide_eq_true_eq] at hmem
      exact hmem.2
    refine ⟨k + 1, h.emission, ?_, ?_, hqueue, silent fun href => absurd href.symm hne, h.stash⟩
    · rw [hp, List.getElem?_cons_succ, ← hrest]
      exact h.victim
    · rw [h.taken, htaken, Layers.without_append, firsts_succ hv htaken]
      rfl
  · have hpresentation : d'.presentation pass.active = d.presentation pass.active := by
      simp only [presentation, pending, activeLayers, hsame]
    refine ⟨k, h.emission, ?_, ?_, hqueue, silent fun _ => hsent, h.stash⟩
    · rw [← hpresentation]
      exact h.victim
    · rw [h.taken, hsame, firsts_congr hsame]

/-- Waiting changes nothing of what is promised. -/
theorem FailsAt.waited {before : List Moment} {m : Moment} {k : Nat}
    (h : d'.FailsAt pass fault before m k d'') (worked : d.Worked d') :
    d.FailsAt pass fault before m k d'' := by
  obtain ⟨store, rfl⟩ := worked.eq
  exact ⟨h.emission, h.victim, h.taken, h.queue, h.silent, h.stash⟩

/-- **A pass that fails has taken a prefix of the order of presentation**, which ends with the
picture whose emission failed. -/
theorem failsAt_of_fails (h : pass.Fails d steps fault d')
    (held : ∀ entry ∈ d.pending pass.active, entry.2.frame.isSome = true) :
    ∃ before m k, steps = before ++ [m] ∧ d.FailsAt pass fault before m k d' := by
  induction h with
  | failed hv hb =>
    exact ⟨_, _, _, rfl, failsAt_first hv hb (held _ (mem_pending_of_nextVictim? hv))⟩
  | next hv hb _ ih =>
    obtain ⟨before, m, k, rfl, h⟩ := ih fun entry hm => held entry (pending_of_next hb hm)
    obtain ⟨k, h⟩ := h.cons hv hb
    exact ⟨_, m, k, rfl, h⟩
  | waited _ _ worked _ ih =>
    obtain ⟨before, m, k, rfl, h⟩ := ih (by obtain ⟨store, rfl⟩ := worked.eq; exact held)
    exact ⟨before, m, k, rfl, h.waited worked⟩

/-! ## What is left as it was -/

/-- **The pictures `gone` have lost their output flag**, and nothing else has happened in the
buffers. -/
structure LosesOutput (d d' : Decoder) (gone : List SlotRef) : Prop where
  /-- Only the buffers and what the decoders share have changed. -/
  eq : ∃ layers shared, d' = { d with layers, toShared := shared }
  others : ∀ ref, ref ∉ gone → d'.slot? ref = d.slot? ref
  /-- A picture that is left without a flag is given up. -/
  slots : ∀ ref slot, ref ∈ gone → d.slot? ref = some slot → d'.slot? ref = some
    (if (slot.flags.without .waiting).isEmpty then { poc := slot.poc }
      else { slot with flags := slot.flags.without .waiting })
  marks : ∀ ref slot slot', d.slot? ref = some slot → d'.slot? ref = some slot' →
    slot'.flags.shortTerm = slot.flags.shortTerm ∧ slot'.flags.longTerm = slot.flags.longTerm

/-- What waits for output holds a frame. -/
theorem Sound.held_of_output (sound : d.Sound) (hs : d.slot? ref = some slot)
    (ho : slot.flags.output = true) : slot.frame.isSome = true :=
  (sound ref slot hs).held.mpr (by simp [Slot.InUse, Flags.isEmpty, ho])

/-- Taking the first pictures out, all at once, does nothing else to the buffers. -/
theorem losesOutput_firsts {k : Nat} (sound : d.Sound)
    (eq : ∃ layers shared, d' = { d with layers, toShared := shared })
    (taken : d'.layers = d.layers.without (d.firsts pass k)) :
    d.LosesOutput d' (d.firsts pass k) := by
  have hslot : ∀ ref, d'.slot? ref = (d.slot? ref).map fun slot =>
      if ref ∈ d.firsts pass k then slot.strip .waiting else slot := by
    intro ref
    rw [← slot?_without, slot?, layer?, taken]
    rfl
  constructor
  case eq => exact eq
  case others =>
    intro ref hn
    simp only [hslot, if_neg hn, Option.map_id']
  case slots =>
    intro ref slot hm hs
    obtain ⟨⟨ref', slot'⟩, hmem, rfl⟩ := List.mem_map.mp hm
    obtain ⟨-, hs', ho⟩ := mem_pending.mp (mem_presentation.mp (List.mem_of_mem_take hmem))
    obtain rfl : slot' = slot := Option.some.inj (hs'.symm.trans hs)
    rw [hslot, hs, Option.map_some, if_pos hm, Slot.strip_of_held (sound.held_of_output hs ho)]
  case marks =>
    intro ref slot slot' hs hs'
    rw [hslot, hs, Option.map_some, Option.some.injEq] at hs'
    subst hs'
    split
    · simp [Slot.flags_strip, Flags.without, Flags.waiting]
    · exact ⟨rfl, rfl⟩

end Decoder

/-! ## Sessions -/

namespace Session

variable {config : Config} {provider : Provider} {log : List Moment} {s : Session} {i : Nat}
  {d : Decoder}

/-- **What an output pass leaves behind when it fails**, in every state of every run, whether it had
to wait for frames or not. It was out of memory, or the queue was full. It has taken a prefix of the
order of presentation, which ends with the picture whose emission failed, and nothing but the output
flags of these pictures is gone. What the steps before have sent is in the queue, in order, and
nothing else was added. No field waits. If it did not have to wait, the frames that are left in the
slots are as they were. -/
theorem output_failure (run : Run config provider log s) (hd : s.decoder? i = some d)
    (pass : OutputPass) :
    (∀ fault, (d.output pass).1 = .error fault →
      pass.Fails d (d.moments pass) fault (d.output pass).2 ∧
      ∀ ref x, (d.output pass).2.frameAt? ref = some x →
        d.frameAt? ref = some x ∧ (d.output pass).2.store.frame x = d.store.frame x) ∧
    ∀ steps fault d', pass.Fails d steps fault d' →
      (fault = .outOfMemory ∨ fault = .outputQueueFull) ∧
      ∃ before m k, steps = before ++ [m] ∧ d.FailsAt pass fault before m k d' ∧
        d.LosesOutput d' (d.firsts pass (k + 1)) := by
  have sound := sound_run run i d hd
  refine ⟨fun fault he => ⟨Decoder.fails_of_output he, fun ref x hx =>
    Decoder.Reachable.frame_output ⟨_, _, _, _, _, run, hd⟩ hx⟩, fun steps fault d' h => ?_⟩
  obtain ⟨before, m, k, hsteps, hfails⟩ := Decoder.failsAt_of_fails h fun entry hm =>
    sound.held_of_output (Decoder.mem_pending.mp hm).2.1 (Decoder.mem_pending.mp hm).2.2
  obtain ⟨victim, -, hemission⟩ := hfails.emission
  exact ⟨Shared.emit_faults hemission, before, m, k, hsteps, hfails,
    Decoder.losesOutput_firsts sound (Decoder.eq_of_fails h) hfails.taken⟩

/-- Three frame pictures are decoded, of order counts `14`, `10` and `12`. -/
def threePictures : List Event :=
  [.run 0 (.setSps 0 { width := 2, height := 2 }),
    startBase 14, .run 0 .finishPicture, startBase 10, .run 0 .finishPicture,
    startBase 12, .run 0 .finishPicture]

/-- With room in the queue for one picture, the pass fails at the second one in the order of
presentation. -/
theorem threePictures_failure : ∃ log d,
    Run { queueCapacity := 1 } {} log ((start { queueCapacity := 1 } {}).afterAll threePictures) ∧
    ((start { queueCapacity := 1 } {}).afterAll threePictures).decoder? 0 = some d ∧
    (d.output basePass).1 = .error .outputQueueFull ∧
    ∃ before m k, d.FailsAt basePass .outputQueueFull before m k (d.output basePass).2 ∧
      m.slot.poc = 12 ∧
      d.LosesOutput (d.output basePass).2 (d.firsts basePass (k + 1)) := by
  have run := run_all threePictures (@Run.start { queueCapacity := 1 } {})
  obtain ⟨d, hd⟩ : ∃ d, ((start { queueCapacity := 1 } {}).afterAll threePictures).decoder? 0 =
    some d := ⟨_, rfl⟩
  have he : (d.output basePass).1 = .error .outputQueueFull := by
    cases hd
    decide +kernel
  have hlast : (d.moments basePass).map (·.slot.poc) = [10, 12] := by
    cases hd
    decide +kernel
  obtain ⟨hpass, hcall⟩ := output_failure run hd basePass
  obtain ⟨-, before, m, k, hsteps, hfails, hloses⟩ := hcall _ _ _ (hpass _ he).1
  rw [hsteps, List.map_append] at hlast
  have hpoc : m.slot.poc = 12 := by simpa using congrArg List.getLast? hlast
  exact ⟨_, d, run, hd, he, before, m, k, hfails, hpoc, hloses⟩

end Session

end PictureBuffer
