import PictureBuffer.Proofs.Isolation
import PictureBuffer.Proofs.Marks

/-!
# How the production of a picture ends

A decoder settles the production of the picture that it has started: when the picture is finished,
its frame is marked as produced, and when it is given up, by a flush or because all pictures are
removed, as cancelled. In between the decoder goes on producing the picture, whatever it is told
(`Decoder.Producing.run`).

The frame is looked up in the slot of the picture then, so it is settled only if the slot still
holds it (`settled_by_owner`). This is so while the picture is marked as a reference
(`Decoder.Refers`), and the mark stays until the references of the layer are unmarked. After that, a
picture that is not meant for output has left its slot, and one that is leaves it when a flush
begins. If somebody else holds the frame, such as a copy of the decoder, it is left pending
(`not_always_settled`).
-/

namespace PictureBuffer

/-! ## Progress -/

namespace Store

variable {store store' : Store} {x : FrameId} {progress : Progress}

/-- Whoever holds the frame sees this progress. -/
def Shows (store : Store) (x : FrameId) (progress : Progress) : Prop :=
  ∀ frame, store.frame? x = some frame → frame.progress = progress

theorem Pending.shows (h : store.Pending x) : store.Shows x .pending := by
  obtain ⟨frame, hf, hp⟩ := h
  intro frame' hf'
  obtain rfl := Option.some.inj (hf.symm.trans hf')
  exact hp

theorem Shows.spares (h : store.Shows x progress) (hs : Spares x store store') :
    store'.Shows x progress :=
  fun frame hf => h frame (hs frame hf)

end Store

namespace Decoder

variable {d d' : Decoder} {ref : SlotRef} {x : FrameId} {outcome : Progress} {command : Command}

/-! ## The picture that a decoder is producing -/

/-- **The decoder is producing** the picture of a slot. -/
structure Producing (d : Decoder) (ref : SlotRef) : Prop where
  current : d.current = some ref
  decoding : d.decoding = true
  owns : d.ownsCurrent = true

theorem producing_startPicture {layer : Nat} {info : PictureInfo}
    (h : (d.startPicture layer info).1 = .ok ref) :
    (d.startPicture layer info).2.Producing ref := by
  obtain ⟨_, he, -⟩ | ⟨_, _, he, -⟩ | ⟨_, _, _, _, _, _, -, he, -⟩ := d.startPicture_cases layer info
  · rw [he] at h
    cases h
  · rw [he] at h
    cases h
  · rw [he] at h ⊢
    cases h
    exact ⟨rfl, rfl, rfl⟩

/-- It goes on with it unless it is told to begin or to end a picture. -/
theorem Producing.run (h : d.Producing ref) (ht : command.turns = false) :
    (d.run command).2.Producing ref := by
  have hdecoding := (run_of_turns ht (d := d)).1
  obtain ⟨hcurrent, howns, -⟩ := @current_run d command (by cases command <;> trivial)
  exact ⟨hcurrent.trans h.current, hdecoding.trans h.decoding, howns.trans h.owns⟩

/-! ## Settling -/

/-- The progress that a pending frame is left with when the picture of a slot is settled. -/
def settled (d : Decoder) (ref : SlotRef) (x : FrameId) (outcome : Progress) : Progress :=
  if d.frameAt? ref = some x then outcome else .pending

theorem frame?_updateFrame (d : Decoder) (ref : SlotRef) (f : Frame → Frame) (x : FrameId) :
    (d.updateFrame ref f).store.frame? x =
      if d.frameAt? ref = some x then (d.store.frame? x).map f else d.store.frame? x := by
  unfold updateFrame
  split
  · rename_i hf
    rw [hf, if_neg (fun h => by cases h)]
  · rename_i frame hf
    rw [Store.frame?_update, hf]
    by_cases hx : x = frame
    · rw [if_pos hx, if_pos (congrArg some hx.symm)]
    · rw [if_neg hx, if_neg fun h => hx (Option.some.inj h).symm]

/-- A pending frame is settled if the slot holds it. -/
theorem shows_updateFrame {f : Frame → Frame} (h : d.store.Shows x .pending)
    (hf : ∀ frame : Frame, frame.progress = .pending → (f frame).progress = outcome) :
    (d.updateFrame ref f).store.Shows x (d.settled ref x outcome) := by
  intro frame hframe
  rw [frame?_updateFrame] at hframe
  unfold settled
  split at hframe
  · rename_i hat
    obtain ⟨old, hold, rfl⟩ := Option.map_eq_some_iff.mp hframe
    rw [if_pos hat]
    exact hf old (h old hold)
  · rename_i hat
    rw [if_neg hat]
    exact h frame hframe

theorem finishPicture_eq (h : d.Producing ref) :
    d.finishPicture = { d.updateFrame ref (·.produce) with decoding := false } := by
  unfold finishPicture
  rw [h.owns, h.current]

theorem abandonPicture_eq (h : d.Producing ref) : d.abandonPicture =
    { d.updateFrame ref (·.cancel) with decoding := false, ownsCurrent := false } := by
  unfold abandonPicture
  rw [h.decoding, h.owns, h.current]
  rfl

theorem shows_finishPicture (h : d.Producing ref) (hp : d.store.Shows x .pending) :
    d.finishPicture.store.Shows x (d.settled ref x .produced) := by
  rw [finishPicture_eq h]
  refine shows_updateFrame hp fun frame hframe => ?_
  rw [Frame.produce, hframe]
  rfl

theorem shows_abandonPicture (h : d.Producing ref) (hp : d.store.Shows x .pending) :
    d.abandonPicture.store.Shows x (d.settled ref x .cancelled) := by
  rw [abandonPicture_eq h]
  refine shows_updateFrame hp fun frame hframe => ?_
  rw [Frame.cancel, hframe]
  rfl

/-- Finishing a picture releases nothing. -/
theorem frame?_finishPicture (h : d.Producing ref) (hp : d.store.Pending x) :
    ∃ frame, d.finishPicture.store.frame? x = some frame := by
  obtain ⟨frame, hf, -⟩ := hp
  rw [finishPicture_eq h]
  change ∃ frame, (d.updateFrame ref (·.produce)).store.frame? x = some frame
  rw [frame?_updateFrame, hf]
  split
  · exact ⟨_, rfl⟩
  · exact ⟨_, rfl⟩

theorem shows_clear (h : d.Producing ref) (hap : d.Apart x) (hp : d.store.Shows x .pending) :
    d.clear.store.Shows x (d.settled ref x .cancelled) :=
  (shows_abandonPicture h hp).spares (spares_removed hap.known)

/-- A flush takes the picture off those that wait for output before it looks up the frame. -/
theorem shows_flush (h : d.Producing ref) (hap : d.Apart x) (hp : d.store.Shows x .pending) :
    d.flush.2.store.Shows x ((d.stripOutput ref).settled ref x .cancelled) := by
  have hdrop : d.dropCurrent = (d.stripOutput ref).abandonPicture := by
    unfold dropCurrent
    rw [h.decoding, h.current]
  have hproducing : (d.stripOutput ref).Producing ref := by
    obtain ⟨layers, store, he⟩ := d.stripOutput_eq ref
    rw [he]
    exact ⟨h.current, h.decoding, h.owns⟩
  have hcancelled : d.dropCurrent.store.Shows x ((d.stripOutput ref).settled ref x .cancelled) := by
    rw [hdrop]
    exact shows_abandonPicture hproducing (hp.spares ((d.spares_stripOutput ref).frames x hap.known))
  exact hcancelled.spares (spares_flushed hap)

/-! ## Keeping the picture in its slot -/

/-- **The slot holds a reference**, in the frame `x`, that does not stand in for another picture. -/
def Refers (d : Decoder) (ref : SlotRef) (x : FrameId) : Prop :=
  ∃ slot, d.slot? ref = some slot ∧ slot.frame = some x ∧ slot.flags.shortTerm = true ∧
    slot.flags.placeholder = false

theorem Refers.frameAt? (h : d.Refers ref x) : d.frameAt? ref = some x := by
  obtain ⟨slot, hs, hf, -⟩ := h
  exact frameAt?_eq_some_iff.mpr ⟨slot, hs, hf⟩

theorem Refers.of_slot? (h : d.Refers ref x) (hs : d'.slot? ref = d.slot? ref) :
    d'.Refers ref x := by
  obtain ⟨slot, hslot, hkept⟩ := h
  exact ⟨slot, hs.trans hslot, hkept⟩

theorem Refers.of_relists (h : d.Refers ref x) (hr : d.Relists d') : d'.Refers ref x := by
  obtain ⟨slot, hs, hf, hst, hp⟩ := h
  have hslot := hr ref
  rw [hs, Option.map_some, Option.map_eq_some_iff] at hslot
  obtain ⟨slot', hs', he⟩ := hslot
  refine ⟨slot', hs', ?_, ?_, ?_⟩
  · exact (congrArg Slot.frame he).trans hf
  · exact (congrArg (·.flags.shortTerm) he).trans hst
  · exact (congrArg (·.flags.placeholder) he).trans hp

/-- Taking off the output flag leaves the reference in its slot. -/
theorem Refers.stripOutput (h : d.Refers ref x) (y : SlotRef) : (d.stripOutput y).Refers ref x := by
  have hslot := d.slot?_stripOutput y ref
  split at hslot
  · obtain ⟨slot, hs, hf, hst, hp⟩ := h
    have hflags : slot.flags.without .waiting = { slot.flags with output := false } := by
      simp [Flags.without, Flags.waiting]
    have huse : (slot.flags.without .waiting).isEmpty = false := by
      simp [hflags, Flags.isEmpty, hst]
    rw [hs, Option.map_some] at hslot
    refine ⟨_, hslot, ?_, ?_, ?_⟩
    · rw [Slot.frame_strip, huse]
      exact hf
    · rw [Slot.flags_strip, hflags]
      exact hst
    · rw [Slot.flags_strip, hflags]
      exact hp
  · exact h.of_slot? hslot

theorem Refers.output (h : d.Refers ref x) (pass : OutputPass) : (d.output pass).2.Refers ref x := by
  refine (@output_preserves d pass (·.Refers ref x) ?_ h).1
  intro d y slot h _
  exact bump_preserves (P := (·.Refers ref x)) h (fun _ => h) (fun _ _ => h)
    (fun _ h => h.stripOutput y) pass

theorem refers_startPicture {layer : Nat} {info : PictureInfo}
    (h : (d.startPicture layer info).1 = .ok ref)
    (hf : (d.startPicture layer info).2.frameAt? ref = some x) :
    (d.startPicture layer info).2.Refers ref x := by
  obtain ⟨fault, he, -⟩ | ⟨index, he, hbegins⟩ := d.startPicture_slots layer info
  · rw [h] at he
    cases he
  · rw [h] at he
    cases he
    obtain ⟨sps, frame, hslot⟩ := hbegins.entered
    rw [Decoder.frameAt?, hslot] at hf
    exact ⟨_, hslot, hf, rfl, rfl⟩

/-- **The current picture stays a reference** until another one is started, or all are removed, or the
references of its layer are unmarked. -/
theorem Refers.run {others : List FrameId} (h : d.Refers ref x) (hc : d.current = some ref)
    (hsound : d.Sound) (ha : d.Accounted others)
    (ht : match command with
      | .startPicture .. | .flush | .clear => False
      | _ => True)
    (hu : command ≠ .unmarkAll ref.layer) : (d.run command).2.Refers ref x := by
  cases command with
  | unmarkAll n =>
    dsimp only [Decoder.run, unmarkAll]
    split
    · exact h
    · refine h.of_slot? ?_
      have hn : ref.layer ≠ n := fun hn => hu (congrArg _ hn.symm)
      exact (slot?_stripWhere d n (fun _ => true) .references ref).trans (if_neg hn)
  | deriveSets layer hdr =>
    refine h.of_slot? (slot?_current_deriveSets hsound ?_ ha layer hdr hc)
    obtain ⟨slot, hs, hf, hst, hp⟩ := h
    exact ⟨ref, slot, hc, hs, by simp [Slot.InUse, Flags.isEmpty, hst], hp⟩
  | output pass => exact h.output pass
  | startPicture | flush | clear => exact ht.elim
  | _ => exact h.of_relists (d.relists_run trivial)

end Decoder

/-! ## Sessions -/

namespace Session

variable {config : Config} {provider : Provider} {s : Session} {i : Nat} {d : Decoder}
  {ref : SlotRef} {x : FrameId} {e : Event} {marked : Bool}

/-- **Decoder `i` is producing a picture** in slot `ref`, in the frame `x`: it has started the
picture, and has not finished it, given it up or started another one since. The picture is `marked`
if the references of its layer have not been unmarked since. -/
inductive InProduction (config : Config) (provider : Provider) :
    Session → Nat → SlotRef → FrameId → Bool → Prop
  | started {log : List Moment} {s : Session} {i layer : Nat} {d : Decoder} {info : PictureInfo}
      {ref : SlotRef} {x : FrameId} (run : Run config provider log s)
      (hd : s.decoder? i = some d) (hs : (d.startPicture layer info).1 = .ok ref)
      (hf : (d.startPicture layer info).2.frameAt? ref = some x) :
      InProduction config provider (s.step (.run i (.startPicture layer info))).2 i ref x true
  | unmarked {s : Session} {i : Nat} {ref : SlotRef} {x : FrameId} {marked : Bool}
      (h : InProduction config provider s i ref x marked) :
      InProduction config provider (s.step (.run i (.unmarkAll ref.layer))).2 i ref x false
  | other {s : Session} {i : Nat} {ref : SlotRef} {x : FrameId} {marked : Bool} {e : Event}
      (h : InProduction config provider s i ref x marked) (he : e.turns i = false)
      (hu : e ≠ .run i (.unmarkAll ref.layer)) :
      InProduction config provider (s.step e).2 i ref x marked

/-- A decoder goes on with its picture unless it is told to begin or to end one, whatever else
happens. -/
theorem producing_step (hd : s.decoder? i = some d) (h : d.Producing ref)
    (he : e.turns i = false) :
    ∃ d', (s.step e).2.decoder? i = some d' ∧ d'.Producing ref ∧
      ((∃ command, e = .run i command ∧ command.turns = false ∧ d' = (d.run command).2) ∨
        d'.layers = d.layers) := by
  obtain ⟨hc, -⟩ := decoder?_eq hd
  obtain ⟨context, hc', -⟩ := context?_step hc he
  let d' : Decoder := { toContext := context, toShared := (s.step e).2.shared }
  have hd' : (s.step e).2.decoder? i = some d' := by
    rw [decoder?, hc']
    rfl
  refine ⟨d', hd', ?_⟩
  obtain ⟨old, hold, hcases⟩ := decoder?_of_step (lt_length_of_context? hc) hd'
  obtain rfl : d = old := Option.some.inj (hd.symm.trans hold)
  rcases hcases with ⟨command, rfl, hrun⟩ | hcontext
  · have ht : command.turns = false := by simpa [Event.turns] using he
    rw [hrun]
    exact ⟨h.run ht, Or.inl ⟨command, rfl, ht, rfl⟩⟩
  · refine ⟨⟨?_, ?_, ?_⟩, Or.inr (congrArg Context.layers hcontext)⟩
    · exact (congrArg Context.current hcontext).trans h.current
    · exact (congrArg Context.decoding hcontext).trans h.decoding
    · exact (congrArg Context.ownsCurrent hcontext).trans h.owns

/-- What holds as long as a picture is in production. -/
theorem producing_of_inProduction (h : InProduction config provider s i ref x marked) :
    (∃ log, Run config provider log s) ∧ s.Apart x ∧ ∃ d, s.decoder? i = some d ∧
      d.Producing ref ∧ (marked = true → d.Refers ref x) := by
  induction h with
  | @started _ _ i layer _ info _ _ run hd hs hf =>
    have run' := run.step (.run i (.startPicture layer info))
    have hd' := decoder?_run hd (.startPicture layer info)
    exact ⟨⟨_, run'⟩, apart_of_frameAt? run' hd' hf, _, hd',
      Decoder.producing_startPicture hs, fun _ => Decoder.refers_startPicture hs hf⟩
  | @unmarked _ i ref _ _ _ ih =>
    obtain ⟨⟨log, run⟩, hap, d, hd, hproducing, -⟩ := ih
    have he : (Event.run i (.unmarkAll ref.layer)).turns i = false := by
      simp [Event.turns, Command.turns]
    obtain ⟨d', hd', hproducing', -⟩ := producing_step hd hproducing he
    exact ⟨⟨_, run.step _⟩, apart_step hap _, d', hd', hproducing', fun hm => by cases hm⟩
  | @other s i ref x marked e _ he hu ih =>
    obtain ⟨⟨log, run⟩, hap, d, hd, hproducing, hrefers⟩ := ih
    obtain ⟨d', hd', hproducing', hcases⟩ := producing_step hd hproducing he
    refine ⟨⟨_, run.step e⟩, apart_step hap e, d', hd', hproducing', fun hm => ?_⟩
    rcases hcases with ⟨command, rfl, ht, rfl⟩ | hl
    · refine (hrefers hm).run hproducing.current (sound_run run i d hd)
        ((accounted_iff hd).mp (accounted_run run)) ?_ fun hc => hu (congrArg _ hc)
      cases command <;> trivial
    · exact (hrefers hm).of_relists (.of_layers hl)

/-- **How a picture that is being produced is settled**, in every state of every run in which its
frame is pending. Finishing marks the frame as produced, and removing all pictures as cancelled, if
the slot still holds it; a flush marks it as cancelled if the slot holds it without the output flag.
Otherwise the frame stays pending, for whoever holds it. Unless the references of the layer have
been unmarked, the slot holds it, with and without the flag. -/
theorem settled_by_owner (h : InProduction config provider s i ref x marked)
    (hp : s.shared.store.Pending x) : ∃ d, s.decoder? i = some d ∧
    (∃ frame, (s.step (.run i .finishPicture)).2.shared.store.frame? x = some frame ∧
      frame.progress = d.settled ref x .produced) ∧
    (s.step (.run i .clear)).2.shared.store.Shows x (d.settled ref x .cancelled) ∧
    (s.step (.run i .flush)).2.shared.store.Shows x
      ((d.stripOutput ref).settled ref x .cancelled) ∧
    (marked = true → d.frameAt? ref = some x ∧ (d.stripOutput ref).frameAt? ref = some x) := by
  obtain ⟨-, hap, d, hd, hproducing, hrefers⟩ := producing_of_inProduction h
  have hshared := (decoder?_eq hd).2
  have stepped : ∀ command,
      (s.step (.run i command)).2.shared.store = (d.run command).2.store := by
    intro command
    exact congrArg Shared.store (decoder?_eq (decoder?_run hd command)).2.symm
  rw [← hshared] at hp
  refine ⟨d, hd, ?_, ?_, ?_, fun hm =>
    ⟨(hrefers hm).frameAt?, ((hrefers hm).stripOutput ref).frameAt?⟩⟩
  · rw [stepped]
    obtain ⟨frame, hf⟩ := Decoder.frame?_finishPicture hproducing hp
    exact ⟨frame, hf, Decoder.shows_finishPicture hproducing hp.shows frame hf⟩
  · rw [stepped]
    exact Decoder.shows_clear hproducing (hap.decoder hd) hp.shows
  · rw [stepped]
    exact Decoder.shows_flush hproducing (hap.decoder hd) hp.shows

/-- The picture that is being produced when a decoder is copied is settled, and the copy sees it. -/
theorem copied_settled : ∃ d, InProduction {} {} copied 0 ⟨0, 0⟩ 0 true ∧
    copied.decoder? 0 = some d ∧ copied.shared.store.Pending 0 ∧
    (∃ frame, (copied.step (.run 0 .finishPicture)).2.shared.store.frame? 0 = some frame ∧
      frame.progress = .produced) ∧
    (copied.step (.run 0 .clear)).2.shared.store.Shows 0 .cancelled ∧
    (copied.step (.run 0 .flush)).2.shared.store.Shows 0 .cancelled := by
  have run := run_all [.run 0 (.setSps 0 { width := 2, height := 2 })] (@Run.start {} {})
  have h : InProduction {} {} copied 0 ⟨0, 0⟩ 0 true :=
    .other (.started run rfl rfl rfl) rfl (by simp)
  have hp : copied.shared.store.Pending 0 := ⟨_, rfl, rfl⟩
  obtain ⟨d, hd, ⟨frame, hf, hproduced⟩, hclear, hflush, hmarked⟩ := settled_by_owner h hp
  obtain ⟨hat, hat'⟩ := hmarked rfl
  rw [Decoder.settled, if_pos hat] at hproduced hclear
  rw [Decoder.settled, if_pos hat'] at hflush
  exact ⟨d, h, hd, hp, ⟨frame, hf, hproduced⟩, hclear, hflush⟩

/-- A decoder is copied while it is decoding a picture that is not meant for output. -/
def hiddenCopied : Session :=
  (start {} {}).afterAll
    [.run 0 (.setSps 0 { width := 2, height := 2 }),
      .run 0 (.startPicture 0 { poc := 10, output := false, numSlices := 1, pps := {} }), .fork 0]

/-- Its references are unmarked. -/
def hiddenReleased : Session := (hiddenCopied.step (.run 0 (.unmarkAll 0))).2

/-- **Not every picture that is being produced is settled by its owner**: the copy is left with a
frame that stays pending. -/
theorem not_always_settled : ¬ ∀ (config : Config) (provider : Provider) (s : Session) (i : Nat)
    (ref : SlotRef) (x : FrameId) (marked : Bool), InProduction config provider s i ref x marked →
    s.shared.store.Pending x →
    (s.step (.run i .finishPicture)).2.shared.store.Shows x .produced ∧
    (s.step (.run i .clear)).2.shared.store.Shows x .cancelled ∧
    (s.step (.run i .flush)).2.shared.store.Shows x .cancelled := by
  intro h
  have run := run_all [.run 0 (.setSps 0 { width := 2, height := 2 })] (@Run.start {} {})
  have hcopied : InProduction {} {} hiddenCopied 0 ⟨0, 0⟩ 0 true :=
    .other (.started run rfl rfl rfl) rfl (by simp)
  have hreleased : InProduction {} {} hiddenReleased 0 ⟨0, 0⟩ 0 false := .unmarked hcopied
  obtain ⟨hshows, -⟩ := h {} {} _ 0 ⟨0, 0⟩ 0 false hreleased ⟨_, rfl, rfl⟩
  obtain ⟨frame, hf, hp⟩ : ∃ frame,
      (hiddenReleased.step (.run 0 .finishPicture)).2.shared.store.frame? 0 = some frame ∧
        frame.progress = .pending := ⟨_, rfl, rfl⟩
  have hproduced := hshows frame hf
  rw [hp] at hproduced
  cases hproduced

end Session

end PictureBuffer
