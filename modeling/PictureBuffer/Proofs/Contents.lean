import PictureBuffer.Proofs.Isolation

/-!
# Frames in use keep their content

The samples and the side data of a frame are written in two places only: by the worker that decodes
the picture, and by the output process, which weaves fields into its scratch frame. The scratch
frame is shared. The picture woven into it goes to the queue and on to the client, while the
scheduler keeps it for the next pair. So each time it asks for the number of handles first, and
takes a new frame if its own handle is not the only one.

That is enough. A frame **in use** is one that a slot of a decoder, the stash, the queue or the
client holds (`Session.InUse`). Whatever happens in a session, apart from a worker's painting, a
frame in use keeps its content, and a frame that loses it was the scratch frame, with a single
handle, when the step of an output pass wrote to it (`never_overwritten`).

* `Decoder.Guarded`: a frame in use, as one decoder sees it during its pass. Either it is not the
  scratch frame and cannot become it, or the queue or somebody outside keeps a handle to it until
  the pass is over (`guarded_bump`). Either way weaving passes it over
  (`Decoder.Guarded.isUnique_eq_false`).
* `keeps_step`: what an event overwrites, it overwrites in a step of its output pass, or a worker
  paints it.
* `stash_apart_run`: the stash never holds the scratch frame.
-/

namespace PictureBuffer

/-! ## Content -/

/-- What a frame shows: its samples, how they are laid out, and the side data. -/
def Frame.content (frame : Frame) : Layout × List ByteArray × List SideData :=
  (frame.layout, frame.planes, frame.sideData)

theorem Frame.content_produce (frame : Frame) : frame.produce.content = frame.content := rfl

theorem Frame.content_cancel (frame : Frame) : frame.cancel.content = frame.content := rfl

namespace Store

variable {a b c store : Store} {x : FrameId}

/-- **The frame shows what it showed**, or is gone. -/
def Keeps (x : FrameId) (a b : Store) : Prop := ∀ new, b.frame? x = some new →
  ∃ old, a.frame? x = some old ∧ new.content = old.content

theorem Spares.keeps (h : Spares x a b) : Keeps x a b := fun new hf => ⟨new, h new hf, rfl⟩

theorem Keeps.refl (x : FrameId) (a : Store) : Keeps x a a := (Spares.refl x a).keeps

theorem Keeps.trans (h : Keeps x a b) (h' : Keeps x b c) : Keeps x a c := by
  intro new hf
  obtain ⟨mid, hmid, he⟩ := h' new hf
  obtain ⟨old, hold, he'⟩ := h mid hmid
  exact ⟨old, hold, he.trans he'⟩

/-- A change that shows in no frame. -/
theorem keeps_update {f : Frame → Frame} (hf : ∀ frame, (f frame).content = frame.content)
    (store : Store) (id x : FrameId) : Keeps x store (store.update id f) := by
  intro new hnew
  rw [frame?_update] at hnew
  split at hnew
  · obtain ⟨old, hold, rfl⟩ := Option.map_eq_some_iff.mp hnew
    exact ⟨old, hold, hf old⟩
  · exact ⟨new, hnew, rfl⟩

end Store

/-- A worker paints the frame of a picture. -/
def Event.paints : Event → Bool
  | .work _ _ (.render _) => true
  | _ => false

namespace Decoder

variable {d : Decoder} {ref : SlotRef} {slot : Slot} {pass : OutputPass} {x : FrameId}
  {others : List FrameId}

/-! ## Commands that weave nothing -/

theorem keeps_updateFrame {f : Frame → Frame} (hf : ∀ frame, (f frame).content = frame.content)
    (d : Decoder) (ref : SlotRef) (x : FrameId) :
    Store.Keeps x d.store (d.updateFrame ref f).store := by
  unfold updateFrame
  split
  · exact .refl x d.store
  · exact Store.keeps_update hf d.store _ x

theorem keeps_finishPicture (d : Decoder) (x : FrameId) :
    Store.Keeps x d.store d.finishPicture.store := by
  unfold finishPicture
  dsimp only
  split
  · exact keeps_updateFrame Frame.content_produce d _ x
  · exact .refl x d.store

theorem keeps_abandonPicture (d : Decoder) (x : FrameId) :
    Store.Keeps x d.store d.abandonPicture.store := by
  unfold abandonPicture
  dsimp only
  split
  · exact keeps_updateFrame Frame.content_cancel d _ x
  · exact .refl x d.store

theorem keeps_dropCurrent (hx : x < d.store.cells.size) :
    Store.Keeps x d.store d.dropCurrent.store := by
  unfold dropCurrent
  dsimp only
  split
  · exact ((d.spares_stripOutput _).frames x hx).keeps.trans (keeps_abandonPicture _ x)
  · exact d.keeps_abandonPicture x

theorem keeps_clear (hx : x < d.store.cells.size) : Store.Keeps x d.store d.clear.store :=
  (d.keeps_abandonPicture x).trans (spares_removed hx).keeps

/-- A command without an output pass overwrites no frame. -/
theorem keeps_run (hx : x < d.store.cells.size) {command : Command}
    (h : command.outputs = false) : Store.Keeps x d.store (d.run command).2.store := by
  cases command with
  | finishPicture => exact d.keeps_finishPicture x
  | clear => exact keeps_clear hx
  | output | flush => cases h
  | _ => exact ((d.sparesAll_run trivial).frames x hx).keeps

/-! ## Weaving -/

/-- **A step of an output pass writes to no known frame**, but for the scratch frame if the
scheduler's handle to it is the only one. -/
theorem spares_frame_bump (hx : x < d.store.cells.size)
    (hs : d.scheduler.scratch = some x → d.store.isUnique x = false) (pass : OutputPass)
    (ref : SlotRef) (slot : Slot) : Store.Spares x d.store (d.bump pass ref slot).2.store := by
  let P (d' : Decoder) := d.store.cells.size ≤ d'.store.cells.size ∧
    Store.Spares x d.store d'.store
  refine (bump_preserves (P := P) ⟨Nat.le_refl _, .refl x d.store⟩
    (fun _ => ⟨Nat.le_refl _, .refl x d.store⟩) (fun frame _ => ?_) ?_ pass).2
  · exact ⟨(Shared.evolves_emit _ _ _).size_le, Shared.spares_emit hx hs _ _⟩
  · intro d' h
    have hstrip := d'.spares_stripOutput ref
    exact ⟨Nat.le_trans h.1 hstrip.size_le,
      h.2.trans (hstrip.frames x (Nat.lt_of_lt_of_le hx h.1))⟩

/-- **The frame is in use**, as a decoder sees it during an output pass: it is not the scratch
frame, or else the queue or somebody outside holds it too. -/
def Guarded (d : Decoder) (others : List FrameId) (x : FrameId) : Prop :=
  d.Apart x ∨ x ∈ others ∨ ∃ picture ∈ d.queue.pictures, picture.frame = x

theorem Guarded.known (h : d.Guarded others x) (ha : d.Accounted others) :
    x < d.store.cells.size := by
  rcases h with hap | hx | ⟨picture, hp, rfl⟩
  · exact hap.known
  · exact Store.lt_size_of_handles_pos
      (Shared.Accounted.pos ha (List.mem_append_right _ hx))
  · exact Store.lt_size_of_handles_pos (Shared.Accounted.pos_queue ha hp)

/-- **The scheduler is not the only holder of a scratch frame in use.** -/
theorem Guarded.isUnique_eq_false (h : d.Guarded others x) (ha : d.Accounted others)
    (hs : d.scheduler.scratch = some x) : d.store.isUnique x = false := by
  have hx := ha x
  have htwo : 2 ≤ d.store.handles x := by
    rcases h with hap | hout | ⟨picture, hp, rfl⟩
    · exact absurd hs hap.scratch
    · have hpos := List.count_pos_iff.mpr hout
      simp only [Shared.frames, List.count_append, hs, Option.toList_some,
        List.count_singleton_self] at hx
      omega
    · have hpos := List.count_pos_iff.mpr (List.mem_map_of_mem (f := (·.frame)) hp)
      simp only [Shared.frames, List.count_append, hs, Option.toList_some,
        List.count_singleton_self] at hx
      omega
  rw [Store.isUnique, beq_eq_false_iff_ne]
  omega

/-- Nobody gives up a handle during a pass but the scheduler and the slots. -/
theorem guarded_bump (h : d.Guarded others x) (pass : OutputPass) (ref : SlotRef) (slot : Slot) :
    (d.bump pass ref slot).2.Guarded others x := by
  rcases h with hap | hx | ⟨picture, hp, hf⟩
  · exact Or.inl ((spares_bump pass d ref slot).toConfines.apart hap)
  · exact Or.inr (Or.inl hx)
  · have hqueue := Moment.pictures_next ⟨pass, d, ref, slot⟩
    refine Or.inr (Or.inr ⟨picture, ?_, hf⟩)
    have hmem := List.mem_append_left (Moment.sent? ⟨pass, d, ref, slot⟩).toList hp
    rwa [← hqueue] at hmem

/-! ## The stash -/

/-- What waits after a pass has waited before it, or comes out of a slot. -/
theorem stash_output {field : Field} (h : (d.output pass).2.scheduler.stash = some field) :
    d.scheduler.stash = some field ∨ ∃ ref, d.frameAt? ref = some field.frame := by
  let P (d' : Decoder) := d.Ages d' ∧ ∀ field, d'.scheduler.stash = some field →
    d.scheduler.stash = some field ∨ ∃ ref, d.frameAt? ref = some field.frame
  refine (@output_preserves d pass P ?_ ⟨.refl d, fun _ => Or.inl⟩).1.2 field h
  rintro d' ref slot ⟨hages, hstash⟩ hslot
  refine ⟨hages.trans (ages_bump pass d' ref slot), fun field hf => ?_⟩
  have hnext := Moment.stash_next ⟨pass, d', ref, slot⟩
  cases hh : Moment.handed? ⟨pass, d', ref, slot⟩ with
  | none =>
    rw [hh] at hnext
    exact hstash field (hnext.symm.trans hf)
  | some victim =>
    rw [hh] at hnext
    obtain ⟨rfl, -⟩ := hnext field hf
    obtain ⟨frame, hframe, rfl, -⟩ := Moment.handed?_cases hh
    exact Or.inr ⟨ref, hages.frameAt? (frameAt?_eq_some_iff.mpr ⟨slot, hslot, hframe⟩)⟩

/-- A command without an output pass puts nothing into the stash. -/
theorem stash_run_of_silent {command : Command} (hs : command.outputs = false) {field : Field}
    (h : (d.run command).2.scheduler.stash = some field) : d.scheduler.stash = some field := by
  by_cases hd : command = .dropStash
  · subst hd
    exact absurd ((Shared.stash_dropStash d.toShared).symm.trans h) (by simp)
  · exact (congrArg Scheduler.stash (Session.quiet_run_of_silent hs hd d).scheduler).symm.trans h

/-- **What waits after a command** has waited before it, or comes out of a slot. -/
theorem stash_run {command : Command} {field : Field}
    (h : (d.run command).2.scheduler.stash = some field) :
    d.scheduler.stash = some field ∨ ∃ ref, d.frameAt? ref = some field.frame := by
  cases command with
  | output pass => exact stash_output h
  | flush =>
    dsimp only [run] at h
    obtain ⟨frame, -, he⟩ | ⟨-, he⟩ := d.flush_cases
    · rw [he] at h
      rcases stash_output h with hold | ⟨ref, hf⟩
      · exact Or.inl ((congrArg Scheduler.stash d.quiet_dropCurrent.scheduler).symm.trans hold)
      · exact Or.inr ⟨ref, d.ages_dropCurrent.frameAt? hf⟩
    · rw [he] at h
      exact absurd ((Shared.stash_dropStash _).symm.trans h) (by simp)
  | _ => exact Or.inl (stash_run_of_silent rfl h)

end Decoder

namespace Session

variable {s : Session} {e : Event} {i : Nat} {d : Decoder} {x : FrameId} {config : Config}
  {provider : Provider} {log : List Moment}

/-- **The stash never holds the scratch frame.** Its field comes out of a slot. -/
theorem stash_apart_run (run : Run config provider log s) {field : Field}
    (h : s.shared.scheduler.stash = some field) : s.Apart field.frame := by
  induction run generalizing field with
  | start => cases h
  | @step log s run e ih =>
    refine apart_step ?_ e
    have hstepped := s.stepped e
    generalize (s.step e).2 = s' at hstepped h
    cases hstepped with
    | @ran i d command hd =>
      rcases Decoder.stash_run h with hold | ⟨ref, hf⟩
      · rw [(decoder?_eq hd).2] at hold
        exact ih hold
      · exact apart_of_frameAt? run hd hf
    | forked => exact ih h
    | closed _ _ hstash => exact ih (hstash field h)
    | served => exact ih h

/-! ## Frames in use -/

/-- **The frame is in use**: somebody holds it for the picture that it shows, and not only to weave
another one into it. -/
inductive InUse (s : Session) (x : FrameId) : Prop
  | slot {k : Nat} {d : Decoder} {ref : SlotRef} (hd : s.decoder? k = some d)
      (hf : d.frameAt? ref = some x)
  | stash {field : Field} (hs : s.shared.scheduler.stash = some field) (hf : field.frame = x)
  | queue {picture : Picture} (hp : picture ∈ s.shared.queue.pictures) (hf : picture.frame = x)
  | client {n : Nat} {picture : Picture} (hk : s.kept[n]?.join = some picture)
      (hf : picture.frame = x)

/-- What one of the decoders sees of a frame in use. -/
theorem InUse.guarded (h : s.InUse x) (run : Run config provider log s)
    (hd : s.decoder? i = some d) : d.Guarded (s.others i) x := by
  cases h with
  | slot hd' hf => exact Or.inl ((apart_of_frameAt? run hd' hf).decoder hd)
  | stash hs hf =>
    subst hf
    exact Or.inl ((stash_apart_run run hs).decoder hd)
  | queue hp hf =>
    refine Or.inr (Or.inr ⟨_, ?_, hf⟩)
    rwa [(decoder?_eq hd).2]
  | @client n picture hk hf =>
    refine Or.inr (Or.inl (List.mem_append_right _ (List.mem_flatMap.mpr ⟨some picture, ?_, ?_⟩)))
    · exact List.mem_of_getElem? (Option.join_eq_some_iff.mp hk)
    · exact List.mem_singleton.mpr hf.symm

/-- A frame in use is in the store. -/
theorem InUse.frame? (h : s.InUse x) (run : Run config provider log s) :
    ∃ old, s.shared.store.frame? x = some old := by
  have held : 0 < s.shared.store.handles x → ∃ old, s.shared.store.frame? x = some old := by
    intro hp
    obtain ⟨cell, hc⟩ := Store.cell?_of_handles_pos hp
    exact ⟨cell.frame, by rw [Store.frame?, hc]; rfl⟩
  have ha := accounted_run run
  cases h with
  | @slot k d ref hd hf =>
    obtain ⟨slot, hs, hslot⟩ := Decoder.frameAt?_eq_some_iff.mp hf
    have hframe := ((accounted_iff hd).mp ha).frame? hs hslot
    rwa [(decoder?_eq hd).2] at hframe
  | stash hs hf =>
    subst hf
    exact held (ha.pos_stash hs)
  | queue hp hf =>
    subst hf
    exact held (ha.pos_queue hp)
  | @client n picture hk hf =>
    refine held (ha.pos (List.mem_append_right _ (List.mem_flatMap.mpr ⟨some picture, ?_, ?_⟩)))
    · exact List.mem_of_getElem? (Option.join_eq_some_iff.mp hk)
    · exact List.mem_singleton.mpr hf.symm

/-- **A frame in use is guarded all along the passes of an event.** -/
theorem InUse.guarded_moment (h : s.InUse x) (run : Run config provider log s) {m : Moment}
    (hm : m ∈ s.moments e) :
    ∃ others, m.decoder.Accounted others ∧ m.decoder.Guarded others x := by
  obtain ⟨i, d, d', pass, hd, hq, he⟩ := moments_cases hm
  rw [he] at hm
  have hguarded : d'.Guarded (s.others i) x := by
    rcases h.guarded run hd with hap | hx | hp
    · refine Or.inl ⟨Nat.lt_of_lt_of_le hap.known hq.evolves.size_le, ?_⟩
      rw [hq.scheduler]
      exact hap.scratch
    · exact Or.inr (Or.inl hx)
    · refine Or.inr (Or.inr ?_)
      rwa [hq.queue]
  let P (d' : Decoder) := d'.Accounted (s.others i) ∧ d'.Guarded (s.others i) x
  have haccounted := hq.accounted _ ((accounted_iff hd).mp (accounted_run run))
  refine ⟨s.others i, (@Decoder.output_preserves d' pass P ?_ ⟨haccounted, hguarded⟩).2 m hm⟩
  rintro d'' ref slot ⟨ha, hg⟩ hslot
  exact ⟨(Decoder.grows_bump pass hslot).accounted _ ha, Decoder.guarded_bump hg pass ref slot⟩

/-! ## What is overwritten -/

/-- **A step overwrites no known frame** but the scratch frame, and that only if nobody else holds a
handle to it. -/
theorem keeps_or_sole_holder {m : Moment} (hx : x < m.decoder.store.cells.size) :
    Store.Keeps x m.decoder.store m.next.store ∨
      m.decoder.scheduler.scratch = some x ∧ m.decoder.store.handles x = 1 := by
  by_cases hsole : m.decoder.scheduler.scratch = some x ∧ m.decoder.store.handles x = 1
  · exact Or.inr hsole
  · refine Or.inl (Decoder.spares_frame_bump hx (fun hs => ?_) m.pass m.ref m.slot).keeps
    rw [Store.isUnique, beq_eq_false_iff_ne]
    exact fun hone => hsole ⟨hs, hone⟩

/-- A command overwrites nothing but what a step of its output pass overwrites. -/
theorem keeps_command (hd : s.decoder? i = some d) (hx : x < s.known) {command : Command}
    (h : ∀ m ∈ s.moments (.run i command), Store.Keeps x m.decoder.store m.next.store) :
    Store.Keeps x s.shared.store (d.run command).2.store := by
  -- What all steps so far have kept is kept.
  let P (log : List Moment) (d' : Decoder) := x < d'.store.cells.size ∧
    ((∀ m ∈ log, Store.Keeps x m.decoder.store m.next.store) →
      Store.Keeps x s.shared.store d'.store)
  have hstore : d.store = s.shared.store := congrArg Shared.store (decoder?_eq hd).2
  have hstart : P [] d := by
    refine ⟨by rw [hstore]; exact hx, fun _ => ?_⟩
    rw [hstore]
    exact .refl x _
  refine (command_induction (P := P) hd hstart ?_ ?_ ?_ ?_).2 h
  · rintro log d' pass ref slot - ⟨hlt, hkeeps⟩ -
    refine ⟨Nat.lt_of_lt_of_le hlt (Decoder.spares_bump pass d' ref slot).size_le, fun hlog => ?_⟩
    refine (hkeeps fun m hm => hlog m (List.mem_append_left _ hm)).trans ?_
    exact hlog ⟨pass, d', ref, slot⟩ (List.mem_append_right _ (List.mem_singleton_self _))
  · rintro -
    refine ⟨Nat.lt_of_lt_of_le hstart.1 d.confines_dropCurrent.size_le, fun hlog => ?_⟩
    exact (hstart.2 hlog).trans (Decoder.keeps_dropCurrent hstart.1)
  · rintro - log d' ⟨hlt, hkeeps⟩
    have hclear := d'.confines_clear.size_le
    have hdrop := d'.clear.spares_dropStash
    refine ⟨Nat.lt_of_lt_of_le hlt (Nat.le_trans hclear hdrop.size_le), fun hlog => ?_⟩
    exact ((hkeeps hlog).trans (Decoder.keeps_clear hlt)).trans
      (hdrop.frames x (Nat.lt_of_lt_of_le hlt hclear)).keeps
  · intro hsilent
    refine ⟨Nat.lt_of_lt_of_le hstart.1 (d.confines_run command).size_le, fun hlog => ?_⟩
    exact (hstart.2 hlog).trans (Decoder.keeps_run hstart.1 hsilent)

/-- **An event overwrites nothing** but what a step of its output pass overwrites and what a worker
paints. -/
theorem keeps_step (hx : x < s.known) (hpaint : e.paints = false)
    (h : ∀ m ∈ s.moments e, Store.Keeps x m.decoder.store m.next.store) :
    Store.Keeps x s.shared.store (s.step e).2.shared.store := by
  cases e with
  | run i command =>
    cases hd : s.decoder? i with
    | none =>
      simp only [step, hd]
      exact .refl x _
    | some d =>
      simp only [step, hd]
      exact keeps_command hd hx h
  | work i slot work =>
    dsimp only [step]
    split
    · exact .refl x _
    · cases work with
      | render => cases hpaint
      | produce => exact Store.keeps_update Frame.content_produce _ _ x
      | cancel => exact Store.keeps_update Frame.content_cancel _ _ x
  | fork i =>
    dsimp only [step]
    split
    · exact .refl x _
    · exact (Store.spares_retainAll _ x _).keeps
  | close i =>
    dsimp only [step]
    split
    · exact .refl x _
    · exact (s.spares_close i _ x).keeps
  | take i all keep =>
    obtain ⟨queue, hq⟩ := s.dequeue_eq all
    dsimp only [step]
    split
    · exact .refl x _
    · dsimp only
      rw [hq]
      split
      · exact .refl x _
      · exact (Store.spares_releaseAll _ x _).keeps
  | letGo n =>
    dsimp only [step]
    split
    · exact .refl x _
    · exact (Store.spares_release _ _ x).keeps

/-- **Frames in use are never overwritten.** Take any run of a session and any next event that is
not a worker's painting.

* A frame that a slot of a decoder, the stash, the queue or the client holds keeps its samples and
  its side data, or its last holder lets it go.
* A step of an output pass writes to no known frame but the scratch frame, and only when the
  scheduler has the only handle to it.
* What is not written by such a step is not written at all. -/
theorem never_overwritten (run : Run config provider log s) {e : Event}
    (hpaint : e.paints = false) :
    (∀ x, s.InUse x → (∃ old, s.shared.store.frame? x = some old) ∧
      Store.Keeps x s.shared.store (s.step e).2.shared.store) ∧
    (∀ m ∈ s.moments e, ∀ x, x < m.decoder.store.cells.size →
      Store.Keeps x m.decoder.store m.next.store ∨
        m.decoder.scheduler.scratch = some x ∧ m.decoder.store.handles x = 1) ∧
    ∀ x, x < s.known → (∀ m ∈ s.moments e, Store.Keeps x m.decoder.store m.next.store) →
      Store.Keeps x s.shared.store (s.step e).2.shared.store := by
  refine ⟨fun x hx => ⟨hx.frame? run, ?_⟩, fun m _ x hx => keeps_or_sole_holder hx,
    fun x hx => keeps_step hx hpaint⟩
  obtain ⟨old, hold⟩ := hx.frame? run
  obtain ⟨cell, hcell, -⟩ := Option.map_eq_some_iff.mp hold
  refine keeps_step (Store.lt_size_of_cell? hcell) hpaint fun m hm => ?_
  obtain ⟨others, ha, hguarded⟩ := hx.guarded_moment run hm
  exact (Decoder.spares_frame_bump (hguarded.known ha) (hguarded.isUnique_eq_false ha) m.pass
    m.ref m.slot).keeps

/-- The client takes and keeps the picture woven from two fields, and two more are decoded. -/
def keepPair : List Event :=
  twoFields .topField .bottomField ++
    [drainBase, .take 0 false true,
      .run 0 (.setSei { picStruct := .topField }), startBase 12, .run 0 .finishPicture,
      .run 0 (.setSei { picStruct := .bottomField }), startBase 13, .run 0 .finishPicture]

def pairKept : Session := (start {} {}).afterAll keepPair

/-- The scratch frame is in use, and the next pair is woven without it. -/
theorem pairKept_not_overwritten : ∃ log, Run {} {} log pairKept ∧
    pairKept.shared.scheduler.scratch = some 2 ∧ pairKept.InUse 2 ∧
    (pairKept.moments drainBase).map (·.woven?.isSome) = [false, true] ∧
    (∃ old, pairKept.shared.store.frame? 2 = some old) ∧
    Store.Keeps 2 pairKept.shared.store (pairKept.step drainBase).2.shared.store := by
  have run := run_all keepPair (@Run.start {} {})
  have hkept : (pairKept.kept[0]?.join).map (·.frame) = some 2 := by decide +kernel
  obtain ⟨picture, hk, hf⟩ := Option.map_eq_some_iff.mp hkept
  have hinUse : pairKept.InUse 2 := .client hk hf
  exact ⟨_, run, by decide +kernel, hinUse, by decide +kernel,
    (never_overwritten run (e := drainBase) rfl).1 2 hinUse⟩

/-- Once the client lets the picture go, the next pair is woven into its frame. -/
example : (pairKept.step drainBase).2.shared.queue.pictures.map (·.frame) = [5] ∧
    ((pairKept.step (.letGo 0)).2.step drainBase).2.shared.queue.pictures.map (·.frame) = [2] := by
  decide +kernel

end Session

end PictureBuffer
