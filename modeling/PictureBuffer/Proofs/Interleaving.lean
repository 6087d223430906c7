import PictureBuffer.Proofs.HalfSteps

/-!
# Decoders in threads of their own

The decoders of a session may run in different threads. A command that only works on the decoder's
own pictures is one event also then; an output pass is not. It looks at its next victim, waits for
its frame, and only then takes it out, while the other decoders go on, and while the production of
any frame may end. A flush is such a pass, with other work before and after it.

`Threads.Step` is what can happen next in such a session, with the two halves of a step of a pass as
steps of their own. The runs of a session are among the runs of its threads (`reached_of_run`).

A production that has ended stays as it ended, and a slot or the stash keeps its frame from being
freed. From that:

* If pictures are decoded concurrently, the stash holds a field that was produced, and whatever is
  woven is woven from two of them, as they are at that moment.
* A frame picture that was cancelled when its decoder looked at it is not sent. It loses its output
  flag.

Both are `woven_from_produced`.
-/

namespace PictureBuffer

namespace Decoder

variable {d : Decoder}

/-! ## The configuration -/

theorem config_abandonPicture (d : Decoder) : d.abandonPicture.config = d.config := by
  unfold abandonPicture
  dsimp only
  split
  · obtain ⟨store, he⟩ := d.updateFrame_eq _ (·.cancel)
    exact congrArg (·.config) he
  · rfl

theorem config_onDpb (d : Decoder) (n : Nat) (f : Dpb → Store → Dpb × Store) :
    (d.onDpb n f).config = d.config := by
  unfold onDpb
  split <;> rfl

theorem config_modifyLayer (d : Decoder) (n : Nat) (f : Layer → Layer) :
    (d.modifyLayer n f).config = d.config := by
  unfold modifyLayer
  split <;> rfl

theorem config_dropCurrent (d : Decoder) : d.dropCurrent.config = d.config := by
  unfold dropCurrent
  dsimp only
  split
  · exact (config_abandonPicture _).trans (d.config_onDpb _ _)
  · exact d.config_abandonPicture

/-- The configuration of a decoder is never changed. -/
theorem config_run (d : Decoder) {command : Command} (h : command.outputs = false) :
    (d.run command).2.config = d.config := by
  cases command with
  | setVps | setSei | setDts | setDuration | dropStash => rfl
  | setSps n sps =>
    dsimp only [run, setSps]
    split
    · rfl
    · exact d.config_modifyLayer n _
  | startPicture layer info =>
    dsimp only [run]
    obtain ⟨_, he, -⟩ | ⟨_, _, he, -⟩ | ⟨_, _, _, _, _, _, -, he, -⟩ :=
      d.startPicture_cases layer info
    · rw [he]
    · rw [he]
      rfl
    · rw [he]
      rfl
  | finishPicture =>
    dsimp only [run, finishPicture]
    split
    · obtain ⟨store, he⟩ := d.updateFrame_eq _ (·.produce)
      exact congrArg (·.config) he
    · rfl
  | unmarkAll n =>
    dsimp only [run, unmarkAll]
    split
    · rfl
    · exact d.config_onDpb n _
  | deriveSets layer hdr =>
    obtain ⟨layers, store, sets, he⟩ := (d.deriving_deriveSets layer hdr).eq
    exact congrArg (·.config) he
  | startSlice hdr slice =>
    obtain ⟨layers, he⟩ := d.startSlice_eq hdr slice
    exact congrArg (·.config) he
  | buildLists hdr slice =>
    obtain ⟨layers, collocated, he⟩ := d.buildLists_eq hdr slice
    exact congrArg (·.config) he
  | clear =>
    change ((((d.abandonPicture.onDpb 0 Dpb.clear).onDpb 1 Dpb.clear).modifyLayer 0
      ({ · with current := none })).modifyLayer 1 ({ · with current := none })).config = d.config
    rw [config_modifyLayer, config_modifyLayer, config_onDpb, config_onDpb, config_abandonPicture]
  | output | flush => cases h

end Decoder

/-! ## Threads -/

/-- The decoder in whose thread the event takes place, if the event changes it or copies it. -/
def Event.uses? : Event → Option Nat
  | .run i _ | .fork i | .close i => some i
  | .work .. | .take .. | .letGo _ => none

/-- A session whose decoders run in threads of their own. -/
structure Threads where
  session : Session
  /-- The victim that a decoder is about to take out, by decoder. -/
  checked : Nat → Option Checked

/-- **What can happen next.** The thread of a decoder that has looked at a victim goes on with
it. -/
inductive Threads.Step : Threads → Threads → Prop
  /-- Anything but an output pass or a flush. -/
  | event {t : Threads} {e : Event} (hs : e.outputs = false)
      (hidle : ∀ i, e.uses? = some i → t.checked i = none) :
      Step t { t with session := (t.session.step e).2 }
  /-- The production of a frame ends. -/
  | settle {t : Threads} (frame : FrameId) {f : Frame → Frame}
      (hf : f = Frame.produce ∨ f = Frame.cancel) :
      Step t { t with session := t.session.modifyStore (·.update frame f) }
  /-- A flush begins. -/
  | drop {t : Threads} {i : Nat} {d : Decoder} (hd : t.session.decoder? i = some d)
      (hidle : t.checked i = none) :
      Step t { t with session := t.session.setDecoder i d.dropCurrent }
  | check {t : Threads} {i : Nat} {d : Decoder} {pass : OutputPass} {c : Checked}
      (hd : t.session.decoder? i = some d) (hidle : t.checked i = none)
      (hc : d.check? pass = some c) :
      Step t { t with checked := fun j => if j = i then some c else t.checked j }
  | conclude {t : Threads} {i : Nat} {d : Decoder} {c : Checked}
      (hd : t.session.decoder? i = some d) (hc : t.checked i = some c) :
      Step t ⟨t.session.setDecoder i (d.conclude c).2, fun j => if j = i then none else t.checked j⟩

/-- No decoder has looked at a victim. -/
def Threads.idle (session : Session) : Threads := ⟨session, fun _ => none⟩

/-- The states that the threads of a session can reach. -/
inductive Threads.Reached (config : Config) (provider : Provider) : Threads → Prop
  | start : Reached config provider (.idle (.start config provider))
  | step {t t' : Threads} (h : Reached config provider t) (hs : t.Step t') :
      Reached config provider t'

namespace Session

variable {s : Session} {e : Event} {k : Nat} {context : Context}

/-- A decoder stays as it is while its thread does nothing. -/
theorem context?_step_of_unused (hc : s.context? k = some context) (hne : e.uses? ≠ some k) :
    (s.step e).2.context? k = some context := by
  have hstepped := s.stepped e
  generalize (s.step e).2 = s' at hstepped
  cases hstepped with
  | @ran i old command hold =>
    have hki : k ≠ i := fun hki => hne (congrArg some hki.symm)
    rwa [context?_setDecoder hold, if_neg hki]
  | forked => rwa [context?_fork_of_some hc]
  | @closed i =>
    have hik : i ≠ k := fun hik => hne (congrArg some hik)
    rwa [context?, List.getElem?_set, if_neg hik]
  | served => exact hc

/-- Each decoder has the configuration of one that was there before. -/
theorem config_step (hs : e.outputs = false) (hc : (s.step e).2.context? k = some context) :
    ∃ j old, s.context? j = some old ∧ context.config = old.config := by
  have hstepped := s.stepped e
  generalize (s.step e).2 = s' at hstepped hc
  cases hstepped with
  | @ran i old command hold =>
    rw [context?_setDecoder hold] at hc
    split at hc
    · cases hc
      exact ⟨i, old.toContext, (decoder?_eq hold).1, old.config_run hs⟩
    · exact ⟨k, context, hc, rfl⟩
  | @forked i forked hforked =>
    rcases context?_fork hc with hold | rfl
    · exact ⟨k, context, hold, rfl⟩
    · exact ⟨i, forked, hforked, rfl⟩
  | closed => exact ⟨k, context, context?_set_none hc, rfl⟩
  | served => exact ⟨k, context, hc, rfl⟩

theorem stash_step_of_silent (hs : e.outputs = false) {field : Field}
    (h : (s.step e).2.shared.scheduler.stash = some field) :
    s.shared.scheduler.stash = some field := by
  have hstepped := s.stepped e
  generalize (s.step e).2 = s' at hstepped h
  cases hstepped with
  | @ran i d command hd =>
    have hstash := Decoder.stash_run_of_silent hs h
    rwa [(decoder?_eq hd).2] at hstash
  | forked => exact h
  | closed _ _ hstash => exact hstash field h
  | served => exact h

end Session

namespace Threads

variable {t t' : Threads} {config : Config} {provider : Provider} {i : Nat} {d d' : Decoder}
  {c : Checked}

/-- **What the threads rely on**, whatever the others do. -/
structure Coherent (config : Config) (t : Threads) : Prop where
  accounted : t.session.Accounted
  configured : ∀ i context, t.session.context? i = some context → context.config = config
  /-- A decoder has not lost the victim that it has looked at. -/
  held : ∀ i c, t.checked i = some c → ∃ d, t.session.decoder? i = some d ∧
    d.slot? c.ref = some c.slot ∧ c.slot.frame = some c.frame
  /-- What was produced is still produced. -/
  produced : ∀ i c, t.checked i = some c → c.seen = .produced →
    t.session.shared.store.Produced c.frame
  stash : config.threading = .frame → ∀ field, t.session.shared.scheduler.stash = some field →
    t.session.shared.store.Produced field.frame

theorem coherent_start (config : Config) (provider : Provider) :
    (idle (.start config provider)).Coherent config := by
  refine ⟨Session.accounted_start config provider, fun i context hc => ?_, ?_, ?_, ?_⟩
  · cases i with
    | zero =>
      cases hc
      rfl
    | succ i => cases hc
  · exact fun i c hc => by cases hc
  · exact fun i c hc => by cases hc
  · exact fun _ field hf => by cases hf

/-- **A step that leaves the checked victims alone**, and lets nothing into the stash that was not
produced, carries on what the threads rely on. -/
theorem Coherent.next (h : t.Coherent config) {s : Session} {checked : Nat → Option Checked}
    (hev : t.session.shared.store.Evolves s.shared.store) (ha : s.Accounted)
    (hconfig : ∀ i context, s.context? i = some context → context.config = config)
    (hheld : ∀ i c, checked i = some c → t.checked i = some c ∧
      s.context? i = t.session.context? i)
    (hstash : config.threading = .frame → ∀ field, s.shared.scheduler.stash = some field →
      t.session.shared.store.Produced field.frame) : Coherent config ⟨s, checked⟩ := by
  have held : ∀ i c, checked i = some c → ∃ d, s.decoder? i = some d ∧
      d.slot? c.ref = some c.slot ∧ c.slot.frame = some c.frame := by
    intro i c hc
    obtain ⟨hc, hcontext⟩ := hheld i c hc
    obtain ⟨d, hd, hslot, hframe⟩ := h.held i c hc
    refine ⟨{ toContext := d.toContext, toShared := s.shared }, ?_, hslot, hframe⟩
    rw [Session.decoder?, hcontext, (Session.decoder?_eq hd).1]
    rfl
  refine ⟨ha, hconfig, held, fun i c hc hseen => ?_, fun hthreading field hf => ?_⟩
  · obtain ⟨d, hd, hslot, hframe⟩ := held i c hc
    refine (h.produced i c (hheld i c hc).1 hseen).evolves hev ?_
    have hpos := Shared.Accounted.pos ((Session.accounted_iff hd).mp ha)
      (List.mem_append_left _ (Decoder.mem_frames hslot hframe))
    rwa [(Session.decoder?_eq hd).2] at hpos
  · exact (hstash hthreading field hf).evolves hev (ha.pos_stash hf)

/-- The same for a step of one decoder. -/
theorem Coherent.setDecoder (h : t.Coherent config) (hd : t.session.decoder? i = some d)
    (hg : d.Grows d') (hconfig : d'.config = d.config) {checked : Nat → Option Checked}
    (hchecked : ∀ j c, checked j = some c → t.checked j = some c ∧ j ≠ i)
    (hstash : config.threading = .frame → ∀ field, d'.scheduler.stash = some field →
      d.scheduler.stash = some field ∨ t.session.shared.store.Produced field.frame) :
    Coherent config ⟨t.session.setDecoder i d', checked⟩ := by
  obtain ⟨hcontext, hshared⟩ := Session.decoder?_eq hd
  have hev := hg.evolves
  rw [hshared] at hev
  refine h.next hev (Session.accounted_setDecoder h.accounted hd hg.accounted) ?_ ?_ ?_
  · intro j context hc
    rw [Session.context?_setDecoder hd] at hc
    split at hc
    · cases hc
      exact hconfig.trans (h.configured i _ hcontext)
    · exact h.configured j context hc
  · intro j c hc
    obtain ⟨hold, hne⟩ := hchecked j c hc
    exact ⟨hold, by rw [Session.context?_setDecoder hd, if_neg hne]⟩
  · intro hthreading field hf
    rcases hstash hthreading field hf with hold | hproduced
    · rw [hshared] at hold
      exact h.stash hthreading field hold
    · exact hproduced

theorem coherent_event (h : t.Coherent config) {e : Event} (hs : e.outputs = false)
    (hidle : ∀ i, e.uses? = some i → t.checked i = none) :
    Coherent config { t with session := (t.session.step e).2 } := by
  refine h.next (t.session.evolves_step e) (Session.accounted_step h.accounted e) ?_ ?_ ?_
  · intro i context hc
    obtain ⟨j, old, hold, he⟩ := Session.config_step hs hc
    exact he.trans (h.configured j old hold)
  · intro i c hc
    obtain ⟨d, hd, -⟩ := h.held i c hc
    have hcontext := (Session.decoder?_eq hd).1
    refine ⟨hc, (Session.context?_step_of_unused hcontext fun hi => ?_).trans hcontext.symm⟩
    rw [hidle i hi] at hc
    cases hc
  · exact fun hthreading field hf =>
      h.stash hthreading field (Session.stash_step_of_silent hs hf)

/-- Productions may end whenever they like. -/
theorem coherent_settle (h : t.Coherent config) (frame : FrameId) {f : Frame → Frame}
    (hf : f = Frame.produce ∨ f = Frame.cancel) :
    Coherent config { t with session := t.session.modifyStore (·.update frame f) } := by
  have htame : Store.Tame f := by
    rcases hf with rfl | rfl
    · exact Decoder.tame_produce
    · exact Decoder.tame_cancel
  exact h.next (Store.evolves_update htame _ frame)
    (Session.accounted_update h.accounted frame f) h.configured (fun i c hc => ⟨hc, rfl⟩) h.stash

theorem coherent_drop (h : t.Coherent config) (hd : t.session.decoder? i = some d)
    (hidle : t.checked i = none) :
    Coherent config { t with session := t.session.setDecoder i d.dropCurrent } := by
  have hquiet := d.quiet_dropCurrent
  refine h.setDecoder hd hquiet.toGrows d.config_dropCurrent (fun j c hc => ⟨hc, ?_⟩) ?_
  · rintro rfl
    rw [hidle] at hc
    cases hc
  · exact fun _ field hf => Or.inl ((congrArg Scheduler.stash hquiet.scheduler).symm.trans hf)

/-- A decoder looks at its next victim, which one of its slots holds. -/
theorem coherent_check (h : t.Coherent config) (hd : t.session.decoder? i = some d)
    {pass : OutputPass} (hc : d.check? pass = some c) :
    Coherent config { t with checked := fun j => if j = i then some c else t.checked j } := by
  have hlooked := Decoder.looked_of_check? hc
  have hslot : d.slot? c.ref = some c.slot :=
    (Decoder.mem_pending.mp (Decoder.mem_pending_of_nextVictim? hlooked.victim)).2.1
  refine ⟨h.accounted, h.configured, fun j c' hj => ?_, fun j c' hj hseen => ?_, h.stash⟩
  · dsimp only at hj
    split at hj
    · rename_i heq
      cases hj
      rw [heq]
      exact ⟨d, hd, hslot, hlooked.frame⟩
    · exact h.held j c' hj
  · dsimp only at hj
    split at hj
    · cases hj
      obtain ⟨frame, hf⟩ :=
        ((Session.accounted_iff hd).mp h.accounted).frame? hslot hlooked.frame
      have hprogress : frame.progress = .produced := by
        have hseen' := hlooked.seen.symm.trans hseen
        rwa [Store.frame, hf] at hseen'
      rw [(Session.decoder?_eq hd).2] at hf
      exact ⟨frame, hf, hprogress⟩
    · exact h.produced j c' hj hseen

/-- **A field that is taken out was produced**, if pictures are decoded concurrently. -/
theorem Coherent.produced_of_judge? (h : t.Coherent config) (hd : t.session.decoder? i = some d)
    (hc : t.checked i = some c) (hthreading : config.threading = .frame)
    (hf : c.slot.picStruct.isField = true) (hj : d.judge? c.slot c.seen = some true) :
    t.session.shared.store.Produced c.frame := by
  have hconfig : d.config = config := h.configured i _ (Session.decoder?_eq hd).1
  rw [Decoder.judge?, hf, hconfig, hthreading] at hj
  refine h.produced i c hc ?_
  cases hseen : c.seen with
  | produced => rfl
  | pending | cancelled =>
    rw [hseen] at hj
    cases hj

theorem coherent_conclude (h : t.Coherent config) (hd : t.session.decoder? i = some d)
    (hc : t.checked i = some c) :
    Coherent config ⟨t.session.setDecoder i (d.conclude c).2,
      fun j => if j = i then none else t.checked j⟩ := by
  obtain ⟨d₀, hd₀, hslot, hframe⟩ := h.held i c hc
  obtain rfl : d₀ = d := Option.some.inj (hd₀.symm.trans hd)
  have hconfig : (d₀.conclude c).2.config = d₀.config := by
    obtain ⟨layers, shared, he⟩ := d₀.conclude_eq c
    rw [he]
  refine h.setDecoder hd (Decoder.grows_conclude hslot hframe) hconfig (fun j c' hj => ?_) ?_
  · split at hj
    · cases hj
    · exact ⟨hj, ‹_›⟩
  · intro hthreading field hf
    rcases Decoder.stash_of_conclude hf with hold | ⟨rfl, hisField, hjudge⟩
    · exact Or.inl hold
    · exact Or.inr (h.produced_of_judge? hd hc hthreading hisField hjudge)

theorem coherent_step (h : t.Coherent config) (hs : t.Step t') : t'.Coherent config := by
  cases hs with
  | event hs hidle => exact coherent_event h hs hidle
  | settle frame hf => exact coherent_settle h frame hf
  | drop hd hidle => exact coherent_drop h hd hidle
  | check hd _ hc => exact coherent_check h hd hc
  | conclude hd hc => exact coherent_conclude h hd hc

/-- **The threads rely on it at all times.** -/
theorem coherent_reached (h : Reached config provider t) : t.Coherent config := by
  induction h with
  | start => exact coherent_start config provider
  | step _ hs ih => exact coherent_step ih hs

/-! ## What is sent -/

/-- **Only the step that takes out a victim sends a picture**, and it sends one. -/
theorem conclude_of_sent (hs : t.Step t') {sent : List Picture}
    (hq : t'.session.shared.queue.pictures = t.session.shared.queue.pictures ++ sent)
    {picture : Picture} (hp : picture ∈ sent) :
    ∃ i d c, t.session.decoder? i = some d ∧ t.checked i = some c ∧
      (d.conclude c).2.queue.pictures = d.queue.pictures ++ [picture] := by
  have changed : t'.session.shared.queue ≠ t.session.shared.queue := by
    intro he
    rw [he] at hq
    rw [List.self_eq_append_right.mp hq] at hp
    cases hp
  cases hs with
  | event hs hidle =>
    obtain ⟨gone, hgone⟩ := t.session.pictures_step_of_silent hs
    have hlength := congrArg List.length hgone
    have hpos := List.length_pos_of_mem hp
    rw [List.length_append, hq, List.length_append] at hlength
    omega
  | settle frame hf => exact absurd rfl changed
  | @drop i d hd hidle =>
    refine absurd ?_ changed
    exact d.quiet_dropCurrent.queue.trans (congrArg Shared.queue (Session.decoder?_eq hd).2)
  | check hd hidle hc => exact absurd rfl changed
  | @conclude i d c hd hc =>
    refine ⟨i, d, c, hd, hc, ?_⟩
    obtain ⟨one, hone⟩ := d.pictures_conclude c
    rw [← (Session.decoder?_eq hd).2] at hq
    have hsent : sent = one.toList := List.append_cancel_left (hq.symm.trans hone)
    rw [hsent, Option.mem_toList] at hp
    rw [hone, hp]
    rfl

/-! ## Runs of the session -/

theorem setDecoder_setDecoder (s : Session) (i : Nat) (d d' : Decoder) :
    (s.setDecoder i d).setDecoder i d' = s.setDecoder i d' := by
  unfold Session.setDecoder
  rw [List.set_set]

variable {s : Session} {pass : OutputPass} {ref : SlotRef} {slot : Slot}

/-- A step of a pass is taken without anything in between. -/
theorem reached_bump (h : Reached config provider (idle s)) (hd : s.decoder? i = some d)
    (hv : d.nextVictim? pass = some (ref, slot)) :
    Reached config provider (idle (s.setDecoder i (d.bump pass ref slot).2)) := by
  cases hc : d.check? pass with
  | none =>
    rw [Decoder.bump_of_unchecked hv hc, Session.setDecoder_self hd]
    exact h
  | some c =>
    have hlooked := Decoder.looked_of_check? hc
    obtain ⟨rfl, rfl⟩ : c.ref = ref ∧ c.slot = slot :=
      Prod.mk.inj (Option.some.inj (hlooked.victim.symm.trans hv))
    have hchecked := h.step (.check hd rfl hc)
    have hconcluded := hchecked.step (.conclude hd (c := c) (if_pos rfl))
    rw [Decoder.bump_eq_conclude hlooked]
    have hidle : (fun j => if j = i then none else if j = i then some c else none) =
        fun _ : Nat => (none : Option Checked) := by
      funext j
      split <;> rfl
    dsimp only [idle] at hconcluded ⊢
    rwa [hidle] at hconcluded

theorem reached_output (h : Reached config provider (idle s)) (hd : s.decoder? i = some d)
    (pass : OutputPass) :
    Reached config provider (idle (s.setDecoder i (d.output pass).2)) := by
  let P (_ : List Moment) (d' : Decoder) := Reached config provider (idle (s.setDecoder i d'))
  have hstart : P [] d := by
    dsimp only [P]
    rwa [Session.setDecoder_self hd]
  refine (@Decoder.pass_induction d pass P ?_ [] hstart).1
  intro log d' ref slot hd' hv
  have hnext := reached_bump hd' (Session.decoder?_setDecoder hd d') hv
  rwa [setDecoder_setDecoder] at hnext

/-- A command that nothing interrupts. -/
theorem reached_silent (h : Reached config provider (idle s)) (hd : s.decoder? i = some d)
    (command : Command) (hs : command.outputs = false) :
    Reached config provider (idle (s.setDecoder i (d.run command).2)) := by
  have hnext := h.step (.event (e := .run i command) hs fun _ _ => rfl)
  dsimp only [idle, Session.step] at hnext
  rwa [hd] at hnext

/-- A flush drops the current picture, and goes on as an output pass. -/
theorem reached_flush (h : Reached config provider (idle s)) (hd : s.decoder? i = some d) :
    Reached config provider (idle (s.setDecoder i d.flush.2)) := by
  have hpass := reached_output (h.step (.drop hd rfl)) (Session.decoder?_setDecoder hd _)
    d.flushPass
  rw [setDecoder_setDecoder] at hpass
  obtain ⟨frame, -, he⟩ | ⟨-, he⟩ := d.flush_cases
  · rw [he]
    exact hpass
  · rw [he]
    have hclear := reached_silent hpass (Session.decoder?_setDecoder hd _) .clear rfl
    rw [setDecoder_setDecoder] at hclear
    have hdrop := reached_silent hclear (Session.decoder?_setDecoder hd _) .dropStash rfl
    rwa [setDecoder_setDecoder] at hdrop

/-- **The runs of a session are among the runs of its threads.** -/
theorem reached_of_run {log : List Moment} (run : Session.Run config provider log s) :
    Reached config provider (idle s) := by
  induction run with
  | start => exact .start
  | @step log s run e ih =>
    cases hs : e.outputs with
    | false => exact ih.step (.event hs fun _ _ => rfl)
    | true =>
      cases e with
      | run i command =>
        dsimp only [Session.step]
        cases hd : s.decoder? i with
        | none => exact ih
        | some d =>
          cases command with
          | output pass => exact reached_output ih hd pass
          | flush => exact reached_flush ih hd
          | _ => cases hs
      | _ => cases hs

/-! ## Fields that were produced -/

/-- **Whatever is woven is woven from produced fields**, if pictures are decoded concurrently: in
every state that the threads of a session can reach,

* the stash holds a field that was produced;
* a picture that a step sends is its victim, if that is a frame picture that was not cancelled when
  its decoder looked at it, or is woven from its victim, a field, and the stash, and then both of
  them are produced;
* a frame picture that was cancelled when its decoder looked at it is not sent, and no longer waits
  for output. This and what frame pictures are sent does not depend on how pictures are decoded. -/
theorem woven_from_produced (h : Reached config provider t) :
    (config.threading = .frame → ∀ field, t.session.shared.scheduler.stash = some field →
      t.session.shared.store.Produced field.frame) ∧
    (∀ t' sent, t.Step t' →
      t'.session.shared.queue.pictures = t.session.shared.queue.pictures ++ sent →
      ∀ picture ∈ sent, ∃ i d c, t.session.decoder? i = some d ∧ t.checked i = some c ∧
        (c.slot.picStruct.isField = false → picture.frame = c.frame ∧ c.seen ≠ .cancelled) ∧
        (c.slot.picStruct.isField = true → ∃ even odd,
          t.session.shared.Weaves c.victim even odd picture.frame ∧
          (config.threading = .frame → t.session.shared.store.Produced even.frame ∧
            t.session.shared.store.Produced odd.frame))) ∧
    ∀ i d c, t.session.decoder? i = some d → t.checked i = some c →
      c.slot.picStruct.isField = false → c.seen = .cancelled →
      (d.conclude c).2.queue = d.queue ∧
        (d.conclude c).2.slot? c.ref = some (c.slot.strip .waiting) := by
  have hcoherent := coherent_reached h
  refine ⟨hcoherent.stash, fun t' sent hs hq picture hp => ?_, fun i d c hd hc hf hseen => ?_⟩
  · obtain ⟨i, d, c, hd, hc, hsent⟩ := conclude_of_sent hs hq hp
    obtain ⟨hjudge, hframe, hfield⟩ := Decoder.sent_of_conclude hsent
    refine ⟨i, d, c, hd, hc, fun hf => ⟨hframe hf, fun hseen => ?_⟩, fun hf => ?_⟩
    · rw [Decoder.judge?, hf, hseen] at hjudge
      cases hjudge
    · obtain ⟨even, odd, hwoven⟩ := hfield hf
      rw [(Session.decoder?_eq hd).2] at hwoven
      refine ⟨even, odd, hwoven, fun hthreading => ?_⟩
      exact hwoven.forall (hcoherent.stash hthreading)
        (hcoherent.produced_of_judge? hd hc hthreading hf hjudge)
  · obtain ⟨d', hd', hslot, -⟩ := hcoherent.held i c hc
    obtain rfl : d' = d := Option.some.inj (hd'.symm.trans hd)
    refine Decoder.conclude_dropped ?_ hslot
    rw [Decoder.judge?, hf, hseen]
    rfl

/-- Decoder 0 and the next victim of its pass over the base layer. -/
def lookedAt (s : Session) : Option (Decoder × Checked) :=
  (s.decoder? 0).bind fun d => (d.check? Session.basePass).map (d, ·)

/-- It looks at its victim, and nothing else happens. -/
def looking (s : Session) (c : Checked) : Threads :=
  ⟨s, fun j => if j = 0 then some c else none⟩

theorem lookedAt_eq (h : lookedAt s = some (d, c)) :
    s.decoder? 0 = some d ∧ d.check? Session.basePass = some c := by
  obtain ⟨d', hd, hc⟩ := Option.bind_eq_some_iff.mp h
  obtain ⟨c', hc, he⟩ := Option.map_eq_some_iff.mp hc
  cases he
  exact ⟨hd, hc⟩

theorem reached_looking (run : ∃ log, Session.Run config provider log s)
    (h : lookedAt s = some (d, c)) : Reached config provider (looking s c) := by
  obtain ⟨log, run⟩ := run
  obtain ⟨hd, hc⟩ := lookedAt_eq h
  exact (reached_of_run run).step (.check hd rfl hc)

/-- Pictures are decoded concurrently. The first of two fields waits in the stash. -/
def firstStashed : Session :=
  (Session.start { threading := .frame } {}).afterAll
    (Session.twoFields .topField .bottomField ++
      [.run 0 (.output { Session.basePass with maxPending := 1 })])

/-- A worker has given up the picture that is being decoded. -/
def pictureCancelled : Session :=
  (Session.start { threading := .frame } {}).afterAll
    [.run 0 (.setSps 0 { width := 2, height := 2 }), Session.startBase 10, .work 0 ⟨0, 0⟩ .cancel]

/-- Two produced fields are woven, and a cancelled picture is not sent. -/
theorem firstStashed_woven_from_produced :
    (∃ d c t' picture even odd, lookedAt firstStashed = some (d, c) ∧
      Reached { threading := .frame } {} (looking firstStashed c) ∧
      (looking firstStashed c).Step t' ∧
      t'.session.shared.queue.pictures = firstStashed.shared.queue.pictures ++ [picture] ∧
      firstStashed.shared.Weaves c.victim even odd picture.frame ∧
      firstStashed.shared.store.Produced even.frame ∧
      firstStashed.shared.store.Produced odd.frame) ∧
    ∃ d c, lookedAt pictureCancelled = some (d, c) ∧
      Reached { threading := .frame } {} (looking pictureCancelled c) ∧
      c.slot.picStruct.isField = false ∧ c.seen = .cancelled ∧ c.slot.flags.output = true ∧
      (d.conclude c).2.slot? c.ref = some (c.slot.strip .waiting) := by
  refine ⟨?_, ?_⟩
  · have run : ∃ log, Session.Run { threading := .frame } {} log firstStashed :=
      ⟨_, Session.run_all _ .start⟩
    have hsent : (lookedAt firstStashed).map (fun x =>
        (x.2.slot.picStruct.isField, firstStashed.shared.queue.pictures.length,
          (x.1.conclude x.2).2.queue.pictures.length)) = some (true, 0, 1) := by decide +kernel
    obtain ⟨⟨d, c⟩, hlooked, he⟩ := Option.map_eq_some_iff.mp hsent
    simp only [Prod.mk.injEq] at he
    obtain ⟨hf, hempty, hone⟩ := he
    obtain ⟨picture, hpicture⟩ := List.length_eq_one_iff.mp hone
    have hq : (d.conclude c).2.queue.pictures =
        firstStashed.shared.queue.pictures ++ [picture] := by
      rw [List.length_eq_zero_iff.mp hempty]
      exact hpicture
    have hreached := reached_looking run hlooked
    have hstep : (looking firstStashed c).Step _ := .conclude (lookedAt_eq hlooked).1 rfl
    obtain ⟨i, d', c', hd', hc', -, hwoven⟩ := (woven_from_produced hreached).2.1 _ _ hstep hq
      picture (List.mem_singleton_self picture)
    obtain ⟨rfl, rfl⟩ : i = 0 ∧ c = c' := by
      dsimp only [looking] at hc'
      split at hc'
      · exact ⟨‹_›, Option.some.inj hc'⟩
      · cases hc'
    obtain ⟨even, odd, hweaves, hproduced⟩ := hwoven hf
    exact ⟨d, c, _, picture, even, odd, hlooked, hreached, hstep, hq, hweaves, hproduced rfl⟩
  · have run : ∃ log, Session.Run { threading := .frame } {} log pictureCancelled :=
      ⟨_, Session.run_all _ .start⟩
    have hcancelled : (lookedAt pictureCancelled).map (fun x =>
        (x.2.slot.picStruct.isField, x.2.seen, x.2.slot.flags.output)) =
          some (false, .cancelled, true) := by decide +kernel
    obtain ⟨⟨d, c⟩, hlooked, he⟩ := Option.map_eq_some_iff.mp hcancelled
    simp only [Prod.mk.injEq] at he
    obtain ⟨hf, hseen, ho⟩ := he
    have hreached := reached_looking run hlooked
    refine ⟨d, c, hlooked, hreached, hf, hseen, ho, ?_⟩
    exact ((woven_from_produced hreached).2.2 0 d c (lookedAt_eq hlooked).1 rfl hf hseen).2

end Threads

end PictureBuffer
