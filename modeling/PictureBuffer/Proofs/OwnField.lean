import PictureBuffer.Proofs.Partners

/-!
# A field that is still being decoded

An output pass is not to touch the field that its decoder is still decoding: it may neither wait
for it nor pair it. The pass knows the field by its order count, which it compares with that of the
last picture that the decoder **turned to** (`Decoder.isOwnField`).

A decoder turns to a picture before it is known whether there is room for it. If there is none, the
decoder goes on with the field it was decoding, under the order count of the picture that never
came: from then on a pass takes the field for somebody else's. So a pass leaves the field alone as
long as the last picture tried was the field itself (`leavesAlone_iff`), and after a failure it may
stash a field that is half decoded (`not_always_left_alone`).

There is another way for the field to be woven too soon: another decoder that sees it has stashed
it before.
-/

namespace PictureBuffer

namespace Decoder

variable {d : Decoder} {ref x : SlotRef} {slot s : Slot} {pass : OutputPass} {frame : FrameId}

/-- **A pass leaves a frame alone**: it does not wait for it, stash it or weave it, and what waits
for output in it goes on waiting. -/
structure LeavesAlone (d : Decoder) (pass : OutputPass) (frame : FrameId) : Prop where
  awaited : (d.output pass).1 ≠ .ok (.waiting frame)
  stashed : ∀ m ∈ d.moments pass, ∀ field, m.next.scheduler.stash = some field →
    field.frame = frame → m.decoder.scheduler.stash = some field
  woven : ∀ m ∈ d.moments pass, ∀ even odd, m.woven? = some (even, odd) →
    even.frame ≠ frame ∧ odd.frame ≠ frame
  output : ∀ ref slot, d.slot? ref = some slot → slot.frame = some frame →
    slot.flags.output = true →
    ∃ slot', (d.output pass).2.slot? ref = some slot' ∧ slot'.frame = some frame ∧
      slot'.flags.output = true

/-- Some steps put off every victim in a frame. -/
def Defers (moments : List Moment) (frame : FrameId) : Prop :=
  ∀ m ∈ moments, m.slot.frame = some frame → m.decoder.isOwnField m.slot = true

/-- Since before the pass, a field in the frame waits in the stash, and a step weaves it. -/
def WeavesWaiting (d : Decoder) (pass : OutputPass) (frame : FrameId) : Prop :=
  ∃ m ∈ d.moments pass, ∃ first, d.scheduler.stash = some first ∧
    m.decoder.scheduler.stash = some first ∧ first.frame = frame ∧ m.woven?.isSome = true

/-! ## What is left alone was put off -/

/-- A victim that still waits for output after the step was put off, must be waited for, or is to
be emitted again, without the stash. -/
theorem bump_of_output (hf : slot.frame = some frame)
    (h : (d.bump pass ref slot).2.slot? ref = some s) (ho : s.flags.output = true) :
    d.isOwnField slot = true ∨ (d.bump pass ref slot).1 = .ok (.waiting frame) ∨
    ∃ shared, d.bump pass ref slot = (.ok .next, { d with toShared := shared }) ∧
      d.scheduler.stash.isSome = true ∧ shared.scheduler.stash = none := by
  have stripped : ∀ d' : Decoder, (d'.stripOutput ref).slot? ref ≠ some s :=
    fun d' h => (slot?_of_stripOutput h ho).1 rfl
  have hb := bumped pass d ref slot
  generalize d.bump pass ref slot = result at hb h ⊢
  cases hb with
  | empty hf' =>
    rw [hf] at hf'
    cases hf'
  | deferred _ ho => exact Or.inl ho
  | waiting hf' =>
    obtain rfl := Option.some.inj (hf.symm.trans hf')
    exact Or.inr (Or.inl rfl)
  | dropped _ _ _ _ orphans =>
    exact absurd h (stripped { d with scheduler := d.scheduler.recordOrphans orphans })
  | @handed _ result shared _ _ _ _ he =>
    dsimp only at h
    split at h
    · rename_i hagain
      obtain rfl : result = .ok .again := by
        cases result with
        | error => cases hagain
        | ok emission => exact congrArg Except.ok (Option.some.inj hagain)
      obtain ⟨hsome, hnone⟩ := Shared.stash_of_emit_again (congrArg Prod.fst he)
      rw [he] at hnone
      exact Or.inr (Or.inr ⟨shared, rfl, hsome, hnone⟩)
    · exact absurd h (stripped { d with toShared := shared })

/-- A picture that waits for output before some step of a pass waited when the pass began. -/
theorem slot?_of_moment {m : Moment} (hm : m ∈ d.moments pass)
    (h : m.decoder.slot? x = some s) (ho : s.flags.output = true) : d.slot? x = some s := by
  let P (d' : Decoder) := d'.slot? x = some s → d.slot? x = some s
  refine (@output_preserves d pass P ?_ id).2 m hm h
  intro d' ref slot ih _ hs
  exact ih (slot?_of_bump hs ho)

/-- A picture that waits for output at the end of a pass waited after each of its steps. -/
theorem slot?_of_output (h : (d.output pass).2.slot? x = some s) (ho : s.flags.output = true)
    {m : Moment} (hm : m ∈ d.moments pass) : m.next.slot? x = some s := by
  let P (log : List Moment) (d' : Decoder) :=
    d'.slot? x = some s → ∀ m ∈ log, m.next.slot? x = some s
  refine (@pass_induction d pass P ?_ [] fun _ m hm => by cases hm).1 h m hm
  intro log d' ref slot ih _ hs m hm
  rcases List.mem_append.mp hm with hm | hm
  · exact ih (slot?_of_bump hs ho) m hm
  · obtain rfl := List.mem_singleton.mp hm
    exact hs

theorem defers_of_leavesAlone (h : d.LeavesAlone pass frame) :
    Defers (d.moments pass) frame := by
  have own_or_again : ∀ m ∈ d.moments pass, m.slot.frame = some frame →
      m.decoder.isOwnField m.slot = true ∨
      ∃ shared, m.decoder.bump m.pass m.ref m.slot =
          (.ok .next, { m.decoder with toShared := shared }) ∧
        m.decoder.scheduler.stash.isSome = true ∧ shared.scheduler.stash = none := by
    intro m hm hf
    obtain ⟨-, hslot, ho⟩ :=
      mem_pending.mp (mem_pending_of_nextVictim? (moments_victim hm).2)
    obtain ⟨s, hs, -, hso⟩ := h.output m.ref m.slot (slot?_of_moment hm hslot ho) hf ho
    rcases bump_of_output hf (slot?_of_output hs hso hm) hso with hown | hwait | hagain
    · exact Or.inl hown
    · exact absurd (output_waiting_iff.mpr ⟨m, hm, hwait⟩) h.awaited
    · exact Or.inr hagain
  intro m hm hf
  rcases own_or_again m hm hf with hown | ⟨shared, hb, -, hnone⟩
  · exact hown
  · -- The victim is emitted once more. This time there is no stash to be used up.
    obtain ⟨-, hv⟩ := moments_victim hm
    have hagain : (⟨pass, { m.decoder with toShared := shared }, m.ref, m.slot⟩ : Moment) ∈
        d.moments pass :=
      mem_moments_of_next hm hb _ (mem_moments_of_nextVictim? hv)
    rcases own_or_again _ hagain hf with hown | ⟨_, -, hsome, -⟩
    · exact hown
    · have hsome : shared.scheduler.stash.isSome = true := hsome
      rw [hnone] at hsome
      cases hsome

/-! ## What is put off is left alone -/

/-- A picture in the frame stays where it is as long as the steps put it off. -/
theorem slot?_of_defers (hs : d.slot? x = some slot) (hf : slot.frame = some frame)
    (h : Defers (d.moments pass) frame) : (d.output pass).2.slot? x = some slot := by
  let P (log : List Moment) (d' : Decoder) := Defers log frame → d'.slot? x = some slot
  refine (@pass_induction d pass P ?_ [] fun _ => hs).1 h
  intro log d' ref victim ih hv hdefers
  have hslot := ih fun m hm => hdefers m (List.mem_append_left _ hm)
  by_cases hx : x = ref
  · subst hx
    obtain ⟨-, hvictim, -⟩ := mem_pending.mp (mem_pending_of_nextVictim? hv)
    obtain rfl : slot = victim := Option.some.inj (hslot.symm.trans hvictim)
    have hown : d'.isOwnField slot = true :=
      hdefers _ (List.mem_append_right log List.mem_cons_self) hf
    unfold bump
    rw [hf]
    dsimp only
    rw [if_pos hown]
    exact hslot
  · rw [slot?_bump_of_ne hx]
    exact hslot

theorem frame_of_handed {m : Moment} {victim : Victim} (hh : m.handed? = some victim) :
    m.slot.frame = some victim.frame ∧ m.decoder.isOwnField m.slot = false := by
  obtain ⟨f, hf, rfl, hown, -⟩ := Moment.handed?_cases hh
  exact ⟨hf, hown⟩

/-- No step hands out a picture that all of them put off. -/
theorem Defers.handed_ne {moments : List Moment} (h : Defers moments frame) {m : Moment}
    (hm : m ∈ moments) {victim : Victim} (hh : m.handed? = some victim) :
    victim.frame ≠ frame := by
  rintro rfl
  obtain ⟨hf, hown⟩ := frame_of_handed hh
  rw [h m hm hf] at hown
  cases hown

/-- A step that puts off every picture in a frame does not stash it. -/
theorem Defers.stash_next {moments : List Moment} (h : Defers moments frame) {m : Moment}
    (hm : m ∈ moments) {field : Field} (hs : m.next.scheduler.stash = some field)
    (hf : field.frame = frame) : m.decoder.scheduler.stash = some field := by
  have hn := m.stash_next
  cases hh : m.handed? with
  | none =>
    rw [hh] at hn
    exact hn.symm.trans hs
  | some victim =>
    rw [hh] at hn
    obtain ⟨rfl, -⟩ := hn field hs
    exact absurd hf (h.handed_ne hm hh)

/-- What is stashed in the frame has been stashed since before the pass. -/
theorem stash_of_defers (h : Defers (d.moments pass) frame) {m : Moment}
    (hm : m ∈ d.moments pass) {field : Field} (hs : m.decoder.scheduler.stash = some field)
    (hf : field.frame = frame) : d.scheduler.stash = some field := by
  let P (log : List Moment) (d' : Decoder) := Defers log frame →
    d'.scheduler.stash = some field → d.scheduler.stash = some field
  obtain ⟨before, after, happend⟩ := List.append_of_mem hm
  refine ((@pass_induction d pass P ?_ [] fun _ hs => hs).2 happend).1 ?_ hs
  · intro log d' ref victim ih hv hdefers hs
    refine ih (fun m hm => hdefers m (List.mem_append_left _ hm)) ?_
    exact hdefers.stash_next (List.mem_append_right log List.mem_cons_self) hs hf
  · intro m' hm'
    refine h m' ?_
    rw [happend]
    exact List.mem_append_left _ hm'

/-- **A pass leaves a frame alone if and only if** its steps put off every victim in it, and none
weaves a field in it that was stashed before. -/
theorem leavesAlone_iff_defers : d.LeavesAlone pass frame ↔
    Defers (d.moments pass) frame ∧ ¬ d.WeavesWaiting pass frame := by
  constructor
  · intro h
    refine ⟨defers_of_leavesAlone h, ?_⟩
    rintro ⟨m, hm, first, -, hs, hf, hw⟩
    obtain ⟨⟨even, odd⟩, hw⟩ := Option.isSome_iff_exists.mp hw
    obtain ⟨heven, hodd⟩ := h.woven m hm even odd hw
    obtain ⟨victim, first', _, _, -, hs', -, -, -, rfl, rfl, -⟩ :=
      Moment.woven?_eq_some_iff.mp hw
    obtain rfl : first = first' := Option.some.inj (hs.symm.trans hs')
    unfold Shared.evenLines at heven
    unfold Shared.oddLines at hodd
    split at heven
    · rename_i htop
      rw [if_pos htop] at hodd
      exact hodd hf
    · exact heven hf
  · rintro ⟨h, hwaiting⟩
    refine ⟨?_, ?_, ?_, ?_⟩
    · intro hw
      obtain ⟨m, hm, hb⟩ := output_waiting_iff.mp hw
      obtain ⟨hf, hown, -⟩ := bump_waiting (Prod.ext hb rfl)
      rw [h m hm hf] at hown
      cases hown
    · intro m hm field hs hf
      exact h.stash_next hm hs hf
    · intro m hm even odd hw
      obtain ⟨victim, first, _, _, hh, hs, -, -, -, rfl, rfl, -⟩ :=
        Moment.woven?_eq_some_iff.mp hw
      have hvictim : victim.field.frame ≠ frame := h.handed_ne hm hh
      have hfirst : first.frame ≠ frame := by
        intro hf
        refine hwaiting ⟨m, hm, first, stash_of_defers h hm hs hf, hs, hf, ?_⟩
        rw [hw]
        rfl
      unfold Shared.evenLines Shared.oddLines
      split
      · exact ⟨hvictim, hfirst⟩
      · exact ⟨hfirst, hvictim⟩
    · intro ref slot hs hf ho
      exact ⟨slot, slot?_of_defers hs hf h, hf, ho⟩

/-! ## Turning to a picture -/

/-- A picture that was started is being decoded, under its order count. -/
theorem startPicture_ok {layer : Nat} {info : PictureInfo}
    (hs : (d.startPicture layer info).1 = .ok ref)
    (hf : (d.startPicture layer info).2.frameAt? ref = some frame) :
    (d.startPicture layer info).2.decoding = true ∧
    (d.startPicture layer info).2.poc = info.poc ∧
    ∃ slot, (d.startPicture layer info).2.slot? ref = some slot ∧ slot.frame = some frame ∧
      slot.poc = info.poc ∧ slot.picStruct = d.sei.picStruct := by
  obtain ⟨_, he, -⟩ | ⟨_, _, he, -⟩ |
    ⟨l, sps, index, frame', dpb, store, hg, he, hadd, -⟩ := d.startPicture_cases layer info
  · rw [he] at hs
    cases hs
  · rw [he] at hs
    cases hs
  · rw [he] at hs hf ⊢
    cases hs
    obtain ⟨slot, hentered, hframe, hpoc, hpic, -⟩ := hadd.entered
    have hset := Layers.get?_set_self hg { l with dpb, current := some index }
    refine ⟨rfl, rfl, slot, ?_, ?_, hpoc, hpic⟩
    · rw [slot?, layer?, hset]
      exact hentered
    · rw [frameAt?, slot?, layer?, hset, Option.bind_some, hentered, Option.bind_some] at hf
      exact hf

/-- A decoder that finds no room for a picture has turned to it all the same. -/
theorem startPicture_error {layer : Nat} {info : PictureInfo} {fault : Fault}
    (hs : (d.startPicture layer info).1 = .error fault) :
    (d.startPicture layer info).2.decoding = d.decoding ∧
    (d.startPicture layer info).2.poc =
      if fault.kind = .outOfResources then info.poc else d.poc := by
  obtain ⟨_, he, hfault⟩ | ⟨_, _, he, hfault, -⟩ | ⟨_, _, _, _, _, _, -, he, -⟩ :=
    d.startPicture_cases layer info
  · rw [he] at hs ⊢
    cases hs
    rcases hfault with rfl | rfl
    · exact ⟨rfl, rfl⟩
    · exact ⟨rfl, rfl⟩
  · rw [he] at hs ⊢
    cases hs
    rcases hfault with ⟨n, rfl⟩ | rfl
    · exact ⟨rfl, rfl⟩
    · exact ⟨rfl, rfl⟩
  · rw [he] at hs
    cases hs

end Decoder

/-- The command begins a picture, or ends the one that is being decoded. -/
def Command.turns : Command → Bool
  | .startPicture .. | .finishPicture | .flush | .clear => true
  | _ => false

/-- Any other command leaves the decoder with the picture that it is decoding. -/
theorem Decoder.run_of_turns {d : Decoder} {command : Command} (h : command.turns = false) :
    (d.run command).2.decoding = d.decoding ∧ (d.run command).2.poc = d.poc := by
  have same : ∀ {d' : Decoder}, d.Steady d' → d'.decoding = d.decoding ∧ d'.poc = d.poc :=
    fun h => ⟨h.decoding, h.poc⟩
  cases command with
  | output pass =>
    obtain ⟨layers, shared, he⟩ := (d.output_eq pass).1
    have hrun : (d.run (.output pass)).2 = (d.output pass).2 := rfl
    rw [hrun, he]
    exact ⟨rfl, rfl⟩
  | dropStash => exact ⟨rfl, rfl⟩
  | startPicture | finishPicture | flush | clear => cases h
  | _ => exact same (d.steady_run trivial)

/-- The event begins or ends a picture of decoder `i`. -/
def Event.turns (i : Nat) : Event → Bool
  | .run j command => j == i && command.turns
  | .close j => j == i
  | _ => false

namespace Session

variable {s : Session} {i : Nat}

/-- Other events leave the decoder with the picture that it is decoding. -/
theorem context?_step {context : Context} (hc : s.context? i = some context) {e : Event}
    (he : e.turns i = false) : ∃ context', (s.step e).2.context? i = some context' ∧
      context'.decoding = context.decoding ∧ context'.poc = context.poc := by
  have same : ∀ {s' : Session}, s'.context? i = s.context? i → ∃ context',
      s'.context? i = some context' ∧ context'.decoding = context.decoding ∧
        context'.poc = context.poc :=
    fun h => ⟨context, h.trans hc, rfl, rfl⟩
  have hstepped := s.stepped e
  generalize (s.step e).2 = s' at hstepped
  cases hstepped with
  | @ran j d command hd =>
    rw [context?_setDecoder hd]
    by_cases hj : i = j
    · subst hj
      rw [if_pos rfl]
      have hcontext : d.toContext = context :=
        Option.some.inj ((decoder?_eq hd).1.symm.trans hc)
      have hturns : command.turns = false := by simpa [Event.turns] using he
      have hrun := @Decoder.run_of_turns d command hturns
      rw [← hcontext]
      exact ⟨_, rfl, hrun⟩
    · rw [if_neg hj]
      exact ⟨context, hc, rfl, rfl⟩
  | forked => exact same (context?_fork_of_some hc _)
  | @closed j =>
    have hj : j ≠ i := by simpa [Event.turns] using he
    refine same ?_
    rw [context?, context?, List.getElem?_set, if_neg hj]
  | served => exact same rfl

/-! ## A decoder in the middle of a field -/

/-- **Decoder `i` is in the middle of a field** of order count `poc`, in `frame`: it has started the
field and has not finished it, given it up or started another picture since. The order count
`tried` is that of the last picture that it turned to. -/
inductive InFlight (config : Config) (provider : Provider) :
    Session → Nat → FrameId → Int → Int → Prop
  | started {log : List Moment} {s : Session} {i layer : Nat} {d : Decoder} {info : PictureInfo}
      {ref : SlotRef} {frame : FrameId} (run : Run config provider log s)
      (hd : s.decoder? i = some d) (hs : (d.startPicture layer info).1 = .ok ref)
      (hf : (d.startPicture layer info).2.frameAt? ref = some frame)
      (hfield : d.sei.picStruct.isField = true) :
      InFlight config provider (s.step (.run i (.startPicture layer info))).2 i frame info.poc
        info.poc
  /-- Another picture could not be started. -/
  | failed {s : Session} {i layer : Nat} {d : Decoder} {info : PictureInfo} {frame : FrameId}
      {poc tried : Int} {fault : Fault} (h : InFlight config provider s i frame poc tried)
      (hd : s.decoder? i = some d) (hs : (d.startPicture layer info).1 = .error fault) :
      InFlight config provider (s.step (.run i (.startPicture layer info))).2 i frame poc
        (if fault.kind = .outOfResources then info.poc else tried)
  | other {s : Session} {i : Nat} {e : Event} {frame : FrameId} {poc tried : Int}
      (h : InFlight config provider s i frame poc tried) (he : e.turns i = false) :
      InFlight config provider (s.step e).2 i frame poc tried
  /-- The copy of the decoder is in the middle of the field, too. -/
  | forked {s : Session} {i : Nat} {context : Context} {frame : FrameId} {poc tried : Int}
      (h : InFlight config provider s i frame poc tried) (hc : s.context? i = some context) :
      InFlight config provider (s.step (.fork i)).2 s.contexts.length frame poc tried

/-- What a decoder in the middle of a field knows of it: that it is decoding, and which picture it
turned to last. What the frame holds is known by its origin. -/
structure Busy (s : Session) (i : Nat) (frame : FrameId) (poc tried : Int)
    (origin : FrameId → Origin) : Prop where
  described : s.Described origin
  known : frame < s.known
  poc_eq : (origin frame).poc = poc
  isField : (origin frame).picStruct.isField = true
  decoding : ∃ context, s.context? i = some context ∧ context.decoding = true ∧
    context.poc = tried

variable {config : Config} {provider : Provider} {frame : FrameId} {poc tried : Int}

theorem Busy.step {origin : FrameId → Origin} (h : s.Busy i frame poc tried origin) (e : Event)
    {j : Nat} {tried' : Int} (hdecoding : ∃ context, (s.step e).2.context? j = some context ∧
      context.decoding = true ∧ context.poc = tried') :
    ∃ origin', (s.step e).2.Busy j frame poc tried' origin' := by
  obtain ⟨origin', ha, hd⟩ := described_step h.described e
  have hsame := ha frame h.known
  refine ⟨origin', hd, Nat.lt_of_lt_of_le h.known (evolves_step s e).size_le, ?_, ?_, hdecoding⟩
  · rw [hsame]
    exact h.poc_eq
  · rw [hsame]
    exact h.isField

theorem busy_of_inFlight (h : InFlight config provider s i frame poc tried) :
    ∃ origin, s.Busy i frame poc tried origin := by
  induction h with
  | @started log s i layer d info ref frame run hd hs hf hfield =>
    obtain ⟨hdecoding, hpoc, slot, hslot, hframe, hslotPoc, hpic⟩ :=
      Decoder.startPicture_ok hs hf
    obtain ⟨origin, h⟩ := described_run (run.step (.run i (.startPicture layer info)))
    have hd' := decoder?_run hd (.startPicture layer info)
    obtain ⟨hcontext, hshared⟩ := decoder?_eq hd'
    obtain ⟨hknown, horigin⟩ := (h i _ hd').slot hslot hframe
    refine ⟨origin, h, ?_, ?_, ?_, _, hcontext, hdecoding, hpoc⟩
    · rw [hshared] at hknown
      exact hknown
    · rw [horigin]
      exact hslotPoc
    · rw [← hpic] at hfield
      rw [horigin]
      exact hfield
  | @failed s i layer d info frame poc tried fault h hd hs ih =>
    obtain ⟨origin, hb⟩ := ih
    obtain ⟨context, hc, hdecoding, hpoc⟩ := hb.decoding
    obtain rfl := Option.some.inj ((decoder?_eq hd).1.symm.trans hc)
    obtain ⟨hdecoding', hpoc'⟩ := Decoder.startPicture_error hs
    have hcontext := (decoder?_eq (decoder?_run hd (.startPicture layer info))).1
    refine hb.step _ ⟨_, hcontext, hdecoding'.trans hdecoding, ?_⟩
    rw [← hpoc]
    exact hpoc'
  | other h he ih =>
    obtain ⟨origin, hb⟩ := ih
    obtain ⟨context, hc, hdecoding, hpoc⟩ := hb.decoding
    obtain ⟨context', hc', hdecoding', hpoc'⟩ := context?_step hc he
    exact hb.step _ ⟨context', hc', hdecoding'.trans hdecoding, hpoc'.trans hpoc⟩
  | forked h hc ih =>
    obtain ⟨origin, hb⟩ := ih
    obtain ⟨context, hc', hdecoding, hpoc⟩ := hb.decoding
    obtain rfl := Option.some.inj (hc.symm.trans hc')
    refine hb.step _ ⟨Context.fork _, ?_, hdecoding, hpoc⟩
    simp only [Session.step, hc]
    exact context?_fork_self _

/-- A pass of a decoder in the middle of a field takes the field for its own if and only if the
field is the last picture that the decoder turned to. -/
theorem isOwnField_of_inFlight (h : InFlight config provider s i frame poc tried) {d : Decoder}
    (hd : s.decoder? i = some d) {pass : OutputPass} {m : Moment} (hm : m ∈ d.moments pass)
    (hf : m.slot.frame = some frame) :
    m.decoder.isOwnField m.slot = true ↔ poc = tried := by
  obtain ⟨origin, hb⟩ := busy_of_inFlight h
  obtain ⟨hc, hshared⟩ := decoder?_eq hd
  obtain ⟨context, hc', hdecoding, hpoc⟩ := hb.decoding
  obtain rfl := Option.some.inj (hc.symm.trans hc')
  obtain ⟨layers, shared, hm'⟩ := (d.output_eq pass).2 m hm
  have hknown : frame < d.store.cells.size := by
    rw [hshared]
    exact hb.known
  obtain ⟨origin', ha, hd'⟩ := ((d.grows_output pass).2 m hm).described origin (hb.described i d hd)
  obtain ⟨-, horigin⟩ := hd'.slot (Decoder.moments_slot? hm) hf
  rw [ha frame hknown] at horigin
  have hslotPoc : m.slot.poc = poc := by
    rw [← hb.poc_eq, horigin]
  have hfield : m.slot.picStruct.isField = true := by
    rw [← hb.isField, horigin]
  have hd : m.decoder.decoding = true := by
    rw [hm']
    exact hdecoding
  have hp : m.decoder.poc = tried := by
    rw [hm']
    exact hpoc
  simp [Decoder.isOwnField, hfield, hd, hp, hslotPoc]

/-- **When a field that is being decoded is left alone.** Take any run of a session, a decoder in
the middle of a field, and any output pass of the decoder. The pass leaves the field alone **if and
only if** the field is the last picture that the decoder turned to, or the pass does not get to it;
and no step of the pass weaves the field because somebody stashed it before. -/
theorem leavesAlone_iff (h : InFlight config provider s i frame poc tried) {d : Decoder}
    (hd : s.decoder? i = some d) (pass : OutputPass) :
    d.LeavesAlone pass frame ↔
      (poc = tried ∨ ∀ m ∈ d.moments pass, m.slot.frame ≠ some frame) ∧
      ¬ d.WeavesWaiting pass frame := by
  have hdefers : Decoder.Defers (d.moments pass) frame ↔
      (poc = tried ∨ ∀ m ∈ d.moments pass, m.slot.frame ≠ some frame) := by
    constructor
    · intro hall
      by_cases ht : poc = tried
      · exact Or.inl ht
      · refine Or.inr fun m hm hf => ht ?_
        exact (isOwnField_of_inFlight h hd hm hf).mp (hall m hm hf)
    · rintro (ht | hne)
      · exact fun m hm hf => (isOwnField_of_inFlight h hd hm hf).mpr ht
      · exact fun m hm hf => absurd hf (hne m hm)
  rw [Decoder.leavesAlone_iff_defers, hdefers]

/-! ## A start that fails -/

/-- A provider that has one frame. -/
def oneFrame : Provider := { budget := some 1 }

/-- The start of a picture of the base layer. -/
def startBase (poc : Int) : Event :=
  .run 0 (.startPicture 0 { poc, output := true, numSlices := 1, pps := {} })

/-- A decoder of top fields. -/
def ofTopFields : Session :=
  (start {} oneFrame).afterAll
    [.run 0 (.setSps 0 { width := 2, height := 2 }), .run 0 (.setSei { picStruct := .topField })]

/-- It is in the middle of a field. -/
def amidField : Session := (ofTopFields.step (startBase 10)).2

/-- Another picture was tried, for which there is no frame. -/
def afterFailure : Session := (amidField.step (startBase 11)).2

theorem inFlight_amidField : InFlight {} oneFrame amidField 0 0 10 10 :=
  .started (run_all _ .start) rfl rfl rfl rfl

theorem inFlight_afterFailure : InFlight {} oneFrame afterFailure 0 0 10 11 :=
  @InFlight.failed {} oneFrame _ 0 0 _ _ 0 10 10 .outOfMemory inFlight_amidField rfl rfl

/-- The field that was started is left alone. -/
theorem amidField_leavesAlone : ∃ d, amidField.decoder? 0 = some d ∧
    InFlight {} oneFrame amidField 0 0 10 10 ∧ d.LeavesAlone basePass 0 := by
  refine ⟨_, rfl, inFlight_amidField, (leavesAlone_iff inFlight_amidField rfl basePass).mpr ?_⟩
  refine ⟨Or.inl rfl, ?_⟩
  rintro ⟨m, hm, first, hs, -⟩
  cases hs

/-- **After a failed start, the field that is being decoded is taken out of the buffer**, so it is
not true of every run that it is left alone. -/
theorem not_always_left_alone : ¬ ∀ (config : Config) (provider : Provider) (s : Session) (i : Nat)
    (frame : FrameId) (poc tried : Int) (d : Decoder) (pass : OutputPass),
    InFlight config provider s i frame poc tried → s.decoder? i = some d →
    d.LeavesAlone pass frame := by
  intro h
  obtain ⟨d, hd⟩ : ∃ d, afterFailure.decoder? 0 = some d := ⟨_, rfl⟩
  obtain ⟨slot, hslot, hf, ho⟩ : ∃ slot, d.slot? ⟨0, 0⟩ = some slot ∧ slot.frame = some 0 ∧
      slot.flags.output = true := by
    cases hd
    exact ⟨_, rfl, rfl, rfl⟩
  have hleft := h {} oneFrame afterFailure 0 0 10 11 d basePass inFlight_afterFailure hd
  obtain ⟨slot', hslot', -, ho'⟩ := hleft.output ⟨0, 0⟩ slot hslot hf ho
  have hcleared : (((afterFailure.step drainBase).2.decoder? 0).bind
      (·.slot? ⟨0, 0⟩)).map (·.flags.output) = some false := by
    decide +kernel
  have hrun : (afterFailure.step drainBase).2.decoder? 0 = some (d.output basePass).2 :=
    decoder?_run hd (.output basePass)
  rw [hrun, Option.bind_some, hslot', Option.map_some, ho'] at hcleared
  cases hcleared

end Session

end PictureBuffer
