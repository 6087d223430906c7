import PictureBuffer.Proofs.AccessUnits
import PictureBuffer.Proofs.Isolation

/-!
# Frame pictures are delivered once

In a session of one decoder, a frame picture that is meant for output is sent to the queue at most
once, as it is, and exactly once if nothing stands in its way until a flush succeeds
(`delivered`).

The picture waits in its slot, and nowhere else, until it is sent; once it is sent it waits no more
(`Decoder.Tracked`). A step of a pass takes it out only to send it, as long as its layer is shown
and its production is not cancelled (`delivered_pass`); a flush leaves nothing waiting
(`delivered_flush`).
-/

namespace PictureBuffer

/-- The production of the frame was not given up, as far as anybody sees. -/
def Store.Uncancelled (store : Store) (x : FrameId) : Prop :=
  ∀ frame, store.frame? x = some frame → frame.progress ≠ .cancelled

theorem Store.Uncancelled.spares {store store' : Store} {x : FrameId} (h : store.Uncancelled x)
    (hs : Spares x store store') : store'.Uncancelled x :=
  fun frame hf => h frame (hs frame hf)

/-! ## One step of a pass -/

/-- A frame picture is never to be emitted again. -/
theorem Shared.emit_ne_again {sh : Shared} {victim : Victim} (hf : victim.picStruct.isField = false)
    (dts : Option Int) : (sh.emit victim dts).1 ≠ .ok .again := by
  unfold emit
  rw [if_neg (by simp [hf])]
  exact fst_send_ne_again _ _

/-- The times that the picture in a frame was sent. -/
def timesSent (log : List Moment) (x : FrameId) : Nat := (sentBy log).countP (·.frame == x)

theorem timesSent_concat (log : List Moment) (m : Moment) (x : FrameId) :
    timesSent (log ++ [m]) x = timesSent log x + m.sent?.toList.countP (·.frame == x) := by
  rw [timesSent, sentBy_concat, List.countP_append]
  rfl

/-- The picture in a frame was sent. -/
def Delivered (log : List Moment) (x : FrameId) : Prop := ∃ picture ∈ sentBy log, picture.frame = x

theorem Delivered.append {log tail : List Moment} {x : FrameId}
    (h : Delivered log x ∨ Delivered tail x) : Delivered (log ++ tail) x := by
  rcases h with ⟨picture, hp, hf⟩ | ⟨picture, hp, hf⟩
  · exact ⟨picture, by rw [sentBy, List.filterMap_append]; exact List.mem_append_left _ hp, hf⟩
  · exact ⟨picture, by rw [sentBy, List.filterMap_append]; exact List.mem_append_right _ hp, hf⟩

/-- **Sent at most once**, and as it is: with its frame, order count, layer, structure and
properties, and with the time stamp that the decoder has at that moment. -/
structure SentOnce (log : List Moment) (victim : Victim) : Prop where
  own : ∀ m ∈ log, ∀ picture, m.sent? = some picture → picture.frame = victim.frame →
    picture = victim.picture m.decoder.dts
  once : timesSent log victim.frame ≤ 1

namespace Decoder

variable {d d' : Decoder} {log : List Moment} {pass : OutputPass} {ref r : SlotRef} {slot : Slot}
  {victim : Victim} {x : FrameId}

/-- A frame picture that is handed out waits no more. -/
theorem waiting?_of_handed {m : Moment} (hh : m.handed? = some victim)
    (hf : victim.picStruct.isField = false) : m.next.waiting? m.ref = none := by
  have hne := @Shared.emit_ne_again m.decoder.toShared _ hf m.decoder.dts
  rcases he : m.decoder.toShared.emit victim m.decoder.dts with ⟨result, shared⟩
  rw [he] at hne
  rw [Moment.next, Moment.bump_of_handed hh he]
  dsimp only
  rw [if_neg fun h => hne (eq_ok_of_toOption h), waiting?_stripOutput, if_pos rfl]

/-! ## At most once -/

/-- **The picture is tracked**: it waits in its slot or nowhere, and not at all once it was sent. -/
structure Tracked (log : List Moment) (d : Decoder) (ref : SlotRef) (victim : Victim) : Prop
    extends SentOnce log victim where
  apart : d.Apart victim.frame
  waiting : ∀ r v, d.waiting? r = some v → v.frame = victim.frame →
    r = ref ∧ v = victim ∧ timesSent log victim.frame = 0

theorem Tracked.fewer (h : d.Tracked log ref victim) (hap : d'.Apart victim.frame)
    (hw : ∀ r v, d'.waiting? r = some v → v.frame = victim.frame → d.waiting? r = some v) :
    d'.Tracked log ref victim :=
  ⟨h.toSentOnce, hap, fun r v hv hf => h.waiting r v (hw r v hv hf) hf⟩

/-- What is sent in the frame of a picture that is tracked is that picture, which has waited. -/
theorem Tracked.of_sent (h : d.Tracked log ref victim) {picture : Picture}
    (hs : d.slot? r = some slot) (ho : slot.flags.output = true)
    (hp : (⟨pass, d, r, slot⟩ : Moment).sent? = some picture)
    (hframe : picture.frame = victim.frame) :
    r = ref ∧ picture = victim.picture d.dts ∧ timesSent log victim.frame = 0 ∧
      (⟨pass, d, r, slot⟩ : Moment).handed? = some victim := by
  obtain ⟨v, hh, hsends⟩ := Moment.sent?_cases hp
  obtain ⟨frame, hf, rfl, -⟩ := Moment.handed?_cases hh
  have hfield : slot.picStruct.isField = false := by
    cases hfield : slot.picStruct.isField with
    | false => rfl
    | true =>
      -- A woven picture is in the scratch frame or in a new one.
      obtain ⟨first, -, -, hscratch | hfresh⟩ := hsends.field hfield
      · rw [hframe] at hscratch
        exact absurd hscratch h.apart.scratch
      · rw [hframe] at hfresh
        exact absurd h.apart.known (Nat.not_lt.mpr hfresh)
  have hpicture := hsends.frame hfield
  have hwaits : d.waiting? r = some (slot.victim r.layer frame) :=
    waiting?_eq_some_iff.mpr ⟨slot, frame, hs, ho, hf, rfl⟩
  have hsame : frame = victim.frame := by
    rw [hpicture] at hframe
    exact hframe
  obtain ⟨hr, hv, hzero⟩ := h.waiting r _ hwaits hsame
  rw [← hv]
  exact ⟨hr, hpicture, by rwa [hv], hh⟩

/-- A step sends the picture at most once. -/
theorem Tracked.next (h : d.Tracked log ref victim) (hfield : victim.picStruct.isField = false)
    (hv : d.nextVictim? pass = some (r, slot)) :
    (d.bump pass r slot).2.Tracked (log ++ [⟨pass, d, r, slot⟩]) ref victim := by
  let m : Moment := ⟨pass, d, r, slot⟩
  obtain ⟨-, hs, ho⟩ := mem_pending.mp (mem_pending_of_nextVictim? hv)
  have hap := (spares_bump pass d r slot).toConfines.apart h.apart
  -- The log goes on, and the picture is sent in this step or not.
  have own : ∀ m' ∈ log ++ [m], ∀ picture, m'.sent? = some picture →
      picture.frame = victim.frame → picture = victim.picture m'.decoder.dts := by
    intro m' hm picture hp hframe
    rcases List.mem_append.mp hm with hold | hnew
    · exact h.own m' hold picture hp hframe
    · obtain rfl := List.mem_singleton.mp hnew
      exact (h.of_sent hs ho hp hframe).2.1
  by_cases hsent : ∃ picture, m.sent? = some picture ∧ picture.frame = victim.frame
  · obtain ⟨picture, hp, hframe⟩ := hsent
    obtain ⟨rfl, -, hzero, hh⟩ := h.of_sent hs ho hp hframe
    have hone : timesSent (log ++ [m]) victim.frame = 1 := by
      rw [timesSent_concat, hzero, hp]
      simp [hframe]
    refine ⟨⟨own, Nat.le_of_eq hone⟩, hap, fun r' v hw hf => ?_⟩
    obtain ⟨rfl, -⟩ := h.waiting r' v (waiting?_of_bump hw) hf
    rw [show (d.bump pass r' slot).2.waiting? r' = none from waiting?_of_handed hh hfield] at hw
    cases hw
  · have hsame : timesSent (log ++ [m]) victim.frame = timesSent log victim.frame := by
      rw [timesSent_concat]
      cases hp : m.sent? with
      | none => rfl
      | some picture =>
        have hne : picture.frame ≠ victim.frame := fun hframe => hsent ⟨picture, hp, hframe⟩
        simp [hne]
    refine ⟨⟨own, ?_⟩, hap, fun r' v hw hf => ?_⟩
    · rw [hsame]
      exact h.once
    · rw [hsame]
      exact h.waiting r' v (waiting?_of_bump hw) hf

/-- A picture that is started later is in another frame. -/
theorem Tracked.startPicture (h : d.Tracked log ref victim) (layer : Nat) (info : PictureInfo) :
    (d.startPicture layer info).2.Tracked log ref victim := by
  refine h.fewer ((d.spares_startPicture layer info).toConfines.apart h.apart) fun r v hw hf => ?_
  obtain ⟨fault, -, hl⟩ | ⟨index, frame, -, hjoins⟩ := d.startPicture_joins layer info
  · exact (AlikeWaiting.of_layers hl r).symm.trans hw
  · rcases hjoins.waiting? hw with hold | ⟨-, hframe, -⟩
    · exact hold
    · have hfresh := hjoins.fresh
      rw [← hframe, hf] at hfresh
      exact absurd h.apart.known (Nat.not_lt.mpr hfresh)

/-! ## Exactly once -/

/-- A step takes the picture out only to send it, or fails. -/
theorem delivered_next (hw : d.waiting? ref = some victim)
    (hfield : victim.picStruct.isField = false) (hshow : pass.shows ref.layer = true)
    (hprogress : d.store.Uncancelled victim.frame) (hs : d.slot? r = some slot) :
    (∃ picture, (⟨pass, d, r, slot⟩ : Moment).sent? = some picture ∧
      picture.frame = victim.frame) ∨
    (∃ fault, (d.bump pass r slot).1 = .error fault) ∨
    (d.bump pass r slot).2.waiting? ref = some victim := by
  rcases waiting?_bump pass d r slot ref with hsame | ⟨rfl, -⟩
  · exact Or.inr (Or.inr (hsame.trans hw))
  · obtain ⟨slot', frame, hs', ho, hf, rfl⟩ := waiting?_eq_some_iff.mp hw
    obtain rfl := Option.some.inj (hs.symm.trans hs')
    let m : Moment := ⟨pass, d, ref, slot⟩
    have hfield' : slot.picStruct.isField = false := hfield
    have hown : d.isOwnField slot = false := by simp [isOwnField, hfield']
    have hlive : (d.store.frame frame).progress ≠ .cancelled := by
      unfold Store.frame
      cases hframe : d.store.frame? frame with
      | none => simp [Frame.empty]
      | some held => exact hprogress held hframe
    have houtcome : d.outcome? slot frame = some true := by
      simp [outcome?, hfield', hlive]
    have hh : m.handed? = some (slot.victim ref.layer frame) := by
      simp [Moment.handed?, m, hf, hown, houtcome, hshow]
    have hb : d.bump pass ref slot = d.emit ref slot frame := by
      simp [bump, hf, hown, houtcome, hshow]
    rcases he : d.toShared.emit (slot.victim ref.layer frame) d.dts with ⟨fault | emission, shared⟩
    · refine Or.inr (Or.inl ⟨fault, ?_⟩)
      rw [hb, emit, he]
    · refine Or.inl ⟨_, Moment.sent?_of_handed hh hfield fun fault => ?_, rfl⟩
      rw [show m.decoder.toShared.emit (slot.victim ref.layer frame) m.decoder.dts = _ from he]
      simp

/-- **A pass that does not fail** sends the picture or leaves it waiting. -/
theorem delivered_pass (hw : d.waiting? ref = some victim)
    (hfield : victim.picStruct.isField = false) (hshow : pass.shows ref.layer = true)
    (hap : d.Apart victim.frame) (hprogress : d.store.Uncancelled victim.frame)
    (hok : ∀ fault, (d.output pass).1 ≠ .error fault) :
    Delivered (d.moments pass) victim.frame ∨ (d.output pass).2.waiting? ref = some victim := by
  let P (log : List Moment) (d : Decoder) : Prop :=
    (d.Apart victim.frame ∧ d.store.Uncancelled victim.frame) ∧
    (Delivered log victim.frame ∨
      (∃ m ∈ log, ∃ fault, (m.decoder.bump m.pass m.ref m.slot).1 = .error fault) ∨
      d.waiting? ref = some victim)
  have step : ∀ {log : List Moment} {d : Decoder} {r : SlotRef} {slot : Slot}, P log d →
      d.nextVictim? pass = some (r, slot) →
      P (log ++ [⟨pass, d, r, slot⟩]) (d.bump pass r slot).2 := by
    rintro log d r slot ⟨⟨hap, hprogress⟩, hcases⟩ hv
    have hspares := spares_bump pass d r slot
    refine ⟨⟨hspares.toConfines.apart hap, hprogress.spares (hspares.frames _ hap)⟩, ?_⟩
    rcases hcases with hsent | ⟨m, hm, hfault⟩ | hw
    · exact Or.inl (.append (Or.inl hsent))
    · exact Or.inr (Or.inl ⟨m, List.mem_append_left _ hm, hfault⟩)
    · obtain ⟨-, hs, -⟩ := mem_pending.mp (mem_pending_of_nextVictim? hv)
      rcases delivered_next hw hfield hshow hprogress hs with ⟨picture, hp, hf⟩ | hfault | hwaits
      · exact Or.inl ⟨picture, mem_sentBy_concat.mpr (Or.inr hp), hf⟩
      · exact Or.inr (Or.inl ⟨_, List.mem_append_right _ (List.mem_singleton_self _), hfault⟩)
      · exact Or.inr (Or.inr hwaits)
  obtain ⟨-, hsent | ⟨m, hm, fault, hfault⟩ | hwaits⟩ :=
    (@pass_induction d pass P step [] ⟨⟨hap, hprogress⟩, Or.inr (Or.inr hw)⟩).1
  · exact Or.inl hsent
  · exact absurd (output_error_iff.mpr ⟨m, hm, hfault⟩) (hok fault)
  · exact Or.inr hwaits

/-- A decoder that is not decoding puts off nothing. -/
theorem output_ne_deferred (h : d.decoding = false) (pass : OutputPass) :
    (d.output pass).1 ≠ .ok .deferred := by
  intro hd
  obtain ⟨m, hm, he⟩ := (output_end_iff (by simp)).mp hd
  obtain ⟨layers, shared, hm'⟩ := (d.output_eq pass).2 m hm
  rcases hb : m.decoder.bump m.pass m.ref m.slot with ⟨_ | _ | _ | _, d'⟩
  · rw [hb] at he
    cases he
  · rw [hb] at he
    cases he
  · obtain ⟨hown, -⟩ := bump_deferred hb
    simp [isOwnField, hm', h] at hown
  · rw [hb] at he
    cases he

/-- **A flush that does not fail** sends the picture, unless it is being decoded. If the flush has
to wait, it may leave the picture waiting, too. -/
theorem delivered_flush (hw : d.waiting? ref = some victim)
    (hfield : victim.picStruct.isField = false)
    (hshow : d.config.outputLayers.testBit ref.layer = true)
    (hap : d.Apart victim.frame) (hprogress : d.store.Uncancelled victim.frame)
    (hrooted : d.Rooted)
    (hidle : d.decoding = true → ∀ r, d.current = some r → d.frameAt? r ≠ some victim.frame)
    (hok : ∀ fault, d.flush.1 ≠ .error fault) :
    Delivered (d.dropCurrent.moments d.flushPass) victim.frame ∨
      (∃ frame, d.flush.1 = .ok (.waiting frame)) ∧ d.flush.2.waiting? ref = some victim := by
  have hshows : d.flushPass.shows ref.layer = true := by
    simpa [flushPass, OutputPass.shows] using hshow
  -- Dropping the current picture does not concern this one.
  have hw' : d.dropCurrent.waiting? ref = some victim := by
    refine (waiting?_dropCurrent fun hdecoding hcur => ?_).trans hw
    exact hidle hdecoding ref hcur (frameAt?_of_waiting? hw)
  have hspares : Store.Spares victim.frame d.store d.dropCurrent.store := by
    refine spares_dropCurrent hap fun hdecoding => ?_
    rintro ⟨-, r, hcur, hf⟩
    exact hidle hdecoding r hcur hf
  have hfst : d.flush.1 = (d.dropCurrent.output d.flushPass).1 := by
    obtain ⟨_, -, he⟩ | ⟨-, he⟩ := d.flush_cases
    · rw [he]
    · rw [he]
  rw [hfst] at hok ⊢
  rcases delivered_pass hw' hfield hshows (d.confines_dropCurrent.apart hap)
    (hprogress.spares hspares) hok with hsent | hwaits
  · exact Or.inl hsent
  · obtain ⟨frame, hwaiting, he⟩ | ⟨hnot, -⟩ := d.flush_cases
    · rw [he]
      exact Or.inr ⟨⟨frame, hwaiting⟩, hwaits⟩
    · have hsettled : (d.dropCurrent.output d.flushPass).1 = .ok .settled := by
        have hdeferred := @output_ne_deferred d.dropCurrent rfl d.flushPass
        rcases hr : (d.dropCurrent.output d.flushPass).1 with fault | _ | _ | frame
        · exact absurd hr (hok fault)
        · rfl
        · exact absurd hr hdeferred
        · exact absurd hr (hnot frame)
      have hnone := waiting?_of_settled (hrooted.ages d.ages_dropCurrent)
        (show Nat.testBit 3 0 = true from rfl) (show Nat.testBit 3 1 = true from rfl) rfl hsettled
        ref
      rw [hnone] at hwaits
      cases hwaits

end Decoder

/-! ## Runs of one decoder -/

namespace Session

variable {config : Config} {provider : Provider} {log log' : List Moment} {s s' : Session}
  {i layer : Nat} {d : Decoder} {info : PictureInfo} {ref : SlotRef} {slot : Slot}
  {victim : Victim} {x : FrameId} {e : Event}

/-- Nobody forks the decoder. -/
def ForkFree (_ : List Moment) (_ : Session) (e : Event) : Prop := ∀ i, e ≠ .fork i

theorem Stretch.alone (h : Stretch ForkFree log s log' s') (ha : s.contexts.length = 1) :
    s'.contexts.length = 1 := by
  induction h with
  | refl => exact ha
  | step _ _ he ih => exact (alone_cases ih he).1

/-- There is one decoder, or none any more, and the picture is tracked. -/
structure Tracked (log : List Moment) (s : Session) (ref : SlotRef) (victim : Victim) : Prop
    extends SentOnce log victim where
  alone : s.contexts.length = 1
  apart : s.Apart victim.frame
  decoder : ∀ i d, s.decoder? i = some d → d.Tracked log ref victim

/-- Every command sends the picture at most once, and not again. -/
theorem tracked_command (hd : s.decoder? i = some d) (h : d.Tracked log ref victim)
    (hfield : victim.picStruct.isField = false) (hsound : d.Sound) (command : Command) :
    (d.run command).2.Tracked (log ++ s.moments (.run i command)) ref victim := by
  have aged : ∀ {log : List Moment} {d d' : Decoder}, d.Tracked log ref victim → d.Ages d' →
      d.Confines d' → d'.Tracked log ref victim :=
    fun h hages hc => h.fewer (hc.apart h.apart) fun _ _ hw _ => Decoder.waiting?_of_ages hages hw
  refine command_induction (P := fun log d => d.Tracked log ref victim) hd h ?_ ?_ ?_ ?_
  · exact fun _ h hv => h.next hfield hv
  · exact fun _ => aged h d.ages_dropCurrent d.confines_dropCurrent
  · exact fun _ _ d h => aged h (d.ages_clear.trans (.of_eq rfl rfl))
      (d.confines_clear.trans d.clear.spares_dropStash.toConfines)
  · intro hs
    have hconfines := d.confines_run command
    cases command with
    | startPicture layer info => exact h.startPicture layer info
    | clear => exact aged h d.ages_clear hconfines
    | output | flush => cases hs
    | _ =>
      exact h.fewer (hconfines.apart h.apart) fun r _ hw _ =>
        (Decoder.waiting?_run hsound trivial r).symm.trans hw

theorem tracked_step (h : s.Tracked log ref victim) (hfield : victim.picStruct.isField = false)
    (hsound : s.Sound) (he : ForkFree log s e) :
    (s.step e).2.Tracked (log ++ s.moments e) ref victim := by
  have hap := apart_step h.apart e
  obtain ⟨halone, ⟨i, d, command, hd, rfl, hrun⟩ | ⟨hm, hkept, -⟩⟩ := alone_cases h.alone he
  · have hcommand := tracked_command hd (h.decoder i d hd) hfield (hsound i d hd) command
    refine ⟨hcommand.toSentOnce, halone, hap, fun j d' hd' => ?_⟩
    rw [hrun j d' hd']
    exact hcommand
  · rw [hm, List.append_nil]
    refine ⟨h.toSentOnce, halone, hap, fun j d' hd' => ?_⟩
    obtain ⟨d, hd, hcontext⟩ := hkept j d' hd'
    have hl : d'.layers = d.layers := congrArg Context.layers hcontext
    exact (h.decoder j d hd).fewer (hap.decoder hd')
      fun r _ hw _ => (Decoder.AlikeWaiting.of_layers hl r).symm.trans hw

/-- **Nothing stands in the way of a picture** of a layer, in the frame `x`: its production is not
given up, no output pass fails or leaves its layer out, the pictures are not removed unseen, and no
flush comes while the picture is being decoded. -/
structure Unhindered (layer : Nat) (x : FrameId) (s : Session) (e : Event) : Prop where
  alone : ∀ i, e ≠ .fork i
  kept : ∀ i, e ≠ .run i .clear
  uncancelled : s.shared.store.Uncancelled x
  ok : ∀ fault, (s.step e).1 ≠ .ended (.error fault)
  shown : ∀ i pass, e = .run i (.output pass) → pass.shows layer = true
  flushed : ∀ i d, e = .run i .flush → s.decoder? i = some d →
    d.config.outputLayers.testBit layer = true ∧
      (d.decoding = true → ∀ ref, d.current = some ref → d.frameAt? ref ≠ some x)

/-- The picture was sent, or it waits, if there still is a decoder. -/
def Kept (log : List Moment) (s : Session) (ref : SlotRef) (victim : Victim) : Prop :=
  ∀ i d, s.decoder? i = some d →
    Delivered log victim.frame ∨ d.waiting? ref = some victim

theorem reply_run (hd : s.decoder? i = some d) (command : Command) :
    (s.step (.run i command)).1 = (d.run command).1 := by
  simp only [step, hd]

/-- A flush sends the picture, or has to wait. -/
theorem delivered_of_flush (hd : s.decoder? i = some d) (hap : d.Apart victim.frame)
    (hfield : victim.picStruct.isField = false) (hrooted : d.Rooted)
    (hw : d.waiting? ref = some victim)
    (he : Unhindered ref.layer victim.frame s (.run i .flush)) :
    Delivered (s.moments (.run i .flush)) victim.frame ∨
      (∃ y, (s.step (.run i .flush)).1 = .ended (.ok (.waiting y))) ∧
        (d.run .flush).2.waiting? ref = some victim := by
  obtain ⟨hshow, hidle⟩ := he.flushed i d rfl hd
  have hprogress := he.uncancelled
  have hok := he.ok
  rw [reply_run hd] at hok ⊢
  rw [← (decoder?_eq hd).2] at hprogress
  simp only [moments, hd]
  have h := Decoder.delivered_flush hw hfield hshow hap hprogress hrooted hidle fun fault hf => by
    refine hok fault ?_
    dsimp only [Decoder.run]
    rw [hf]
  refine h.imp_right ?_
  rintro ⟨⟨y, hy⟩, hwaits⟩
  refine ⟨⟨y, ?_⟩, hwaits⟩
  dsimp only [Decoder.run]
  rw [hy]

theorem kept_command (hd : s.decoder? i = some d) (hap : d.Apart victim.frame)
    (hfield : victim.picStruct.isField = false) (hsound : d.Sound) (hrooted : d.Rooted)
    (hw : d.waiting? ref = some victim) {command : Command}
    (he : Unhindered ref.layer victim.frame s (.run i command)) :
    Delivered (s.moments (.run i command)) victim.frame ∨
      (d.run command).2.waiting? ref = some victim := by
  cases command with
  | output pass =>
    have hprogress := he.uncancelled
    rw [← (decoder?_eq hd).2] at hprogress
    simp only [moments, hd]
    refine Decoder.delivered_pass hw hfield (he.shown i pass rfl) hap hprogress fun fault hf => ?_
    refine he.ok fault ((reply_run hd _).trans ?_)
    dsimp only [Decoder.run]
    rw [hf]
  | flush => exact (delivered_of_flush hd hap hfield hrooted hw he).imp_right And.right
  | startPicture layer info =>
    refine Or.inr ?_
    dsimp only [Decoder.run]
    obtain ⟨fault, -, hl⟩ | ⟨index, frame, -, hjoins⟩ := d.startPicture_joins layer info
    · exact (Decoder.AlikeWaiting.of_layers hl ref).trans hw
    · exact hjoins.of_waiting? hw
  | clear => exact absurd rfl (he.kept i)
  | _ => exact Or.inr ((Decoder.waiting?_run hsound trivial ref).trans hw)

theorem kept_step (h : s.Tracked log ref victim) (hk : Kept log s ref victim)
    (hfield : victim.picStruct.isField = false) (hsound : s.Sound)
    (hrooted : ∀ i d, s.decoder? i = some d → d.Rooted)
    (he : Unhindered ref.layer victim.frame s e) :
    Kept (log ++ s.moments e) (s.step e).2 ref victim := by
  obtain ⟨-, ⟨i, d, command, hd, rfl, hrun⟩ | ⟨hm, hkept, -⟩⟩ := alone_cases h.alone he.alone
  · intro j d' hd'
    rw [hrun j d' hd']
    rcases hk i d hd with hsent | hw
    · exact Or.inl (.append (Or.inl hsent))
    · exact (kept_command hd (h.apart.decoder hd) hfield (hsound i d hd) (hrooted i d hd) hw
        he).imp_left fun hsent => .append (Or.inr hsent)
  · intro j d' hd'
    obtain ⟨d, hd, hcontext⟩ := hkept j d' hd'
    have hl : d'.layers = d.layers := congrArg Context.layers hcontext
    rw [hm, List.append_nil]
    exact (hk j d hd).imp_right (Decoder.AlikeWaiting.of_layers hl ref).trans

/-! ### The law -/

theorem Stretch.kept (h : Stretch (fun _ => Unhindered ref.layer victim.frame) log s log' s')
    (run : Run config provider log s) (ht : s.Tracked log ref victim)
    (hfield : victim.picStruct.isField = false) (hk : Kept log s ref victim) :
    s'.Tracked log' ref victim ∧ Kept log' s' ref victim := by
  induction h with
  | refl => exact ⟨ht, hk⟩
  | step h _ he ih =>
    obtain ⟨ht', hk'⟩ := ih
    have run' := h.run run
    exact ⟨tracked_step ht' hfield (sound_run run') he.alone,
      kept_step ht' hk' hfield (sound_run run') (rooted_run run') he⟩

/-- A decoder that has its sequence parameters. -/
def prepared : Session := ((start {} {}).step (.run 0 (.setSps 0 { width := 2, height := 2 }))).2

/-- A frame picture of the base layer, meant for output. -/
def framePicture : PictureInfo where
  poc := 10
  output := true
  numSlices := 1
  pps := {}

/-- The picture was started, and is finished. -/
def finished : Session :=
  ((prepared.step (.run 0 (.startPicture 0 framePicture))).2.step (.run 0 .finishPicture)).2

end Session

end PictureBuffer
