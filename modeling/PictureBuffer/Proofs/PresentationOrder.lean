import PictureBuffer.Proofs.OwnField
import PictureBuffer.Proofs.Presentation
import PictureBuffer.Proofs.Sending

/-!
# Pictures are sent in presentation order

Take a session of one decoder that looks at both layers in every output pass, and let no picture be
started behind one that was handed out before (`Session.Orderly`). Then the pictures that are sent
to the queue never go back in order count, over the whole run and whatever the passes leave pending,
put off, drop or fail to send (`sent_in_order`).

The invariant (`Decoder.Ordered`) compares three things with what was handed out: no picture that
waits is behind it, the field in the stash is the last of it, and no picture that was sent is ahead
of the stash. A step keeps it because its victim is the least of those that wait
(`poc_le_of_nextVictim?`).
-/

namespace PictureBuffer

namespace Decoder

variable {d d' : Decoder} {log : List Moment} {pass : OutputPass} {ref : SlotRef} {slot : Slot}

/-! ## The invariant -/

/-- **In order**: how the pictures that wait, the stash and the pictures that were sent compare with
what was handed out. -/
structure Ordered (log : List Moment) (d : Decoder) : Prop where
  waiting : ∀ ref victim, d.waiting? ref = some victim →
    ∀ out ∈ handedBy log, out.poc ≤ victim.poc
  stash : ∀ field, d.scheduler.stash = some field → ∃ out ∈ handedBy log, out.poc = field.poc
  ahead : ∀ field, d.scheduler.stash = some field → ∀ picture ∈ sentBy log,
    picture.poc ≤ field.poc
  sent : ∀ picture ∈ sentBy log, ∃ out ∈ handedBy log, picture.poc ≤ out.poc
  sorted : (sentBy log).Pairwise fun a b => a.poc ≤ b.poc

/-- Pictures may cease to wait, and the stash may be dropped. -/
theorem Ordered.fewer (h : d.Ordered log)
    (hw : ∀ ref victim, d'.waiting? ref = some victim → d.waiting? ref = some victim)
    (hs : ∀ field, d'.scheduler.stash = some field → d.scheduler.stash = some field) :
    d'.Ordered log :=
  ⟨fun ref victim hv => h.waiting ref victim (hw ref victim hv),
    fun field hf => h.stash field (hs field hf), fun field hf => h.ahead field (hs field hf),
    h.sent, h.sorted⟩

theorem Ordered.ages (h : d.Ordered log) (hages : d.Ages d')
    (hs : ∀ field, d'.scheduler.stash = some field → d.scheduler.stash = some field) :
    d'.Ordered log :=
  h.fewer (fun _ _ => waiting?_of_ages hages) hs

/-! ## One step of a pass -/

/-- **The victim of a pass over both layers is the least** of the pictures that wait. -/
theorem poc_le_of_nextVictim? (hv : d.nextVictim? pass = some (ref, slot))
    (h₀ : pass.active.testBit 0 = true) (h₁ : pass.active.testBit 1 = true) {x : SlotRef}
    {victim : Victim} (hw : d.waiting? x = some victim) : slot.poc ≤ victim.poc := by
  obtain ⟨s, frame, hs, ho, -, rfl⟩ := waiting?_eq_some_iff.mp hw
  have hactive : pass.active.testBit x.layer = true := by
    obtain ⟨n, i⟩ := x
    match n with
    | 0 => exact h₀
    | 1 => exact h₁
    | n + 2 => cases hs
  have hmin : (d.pending pass.active).minOn? (·.2.poc) = some (ref, slot) := by
    unfold nextVictim? at hv
    split at hv
    · exact hv
    · cases hv
  have hfirst := minOn?_first (pairwise_pending d pass.active) hmin (x, s)
    (mem_pending.mpr ⟨hactive, hs, ho⟩)
  rcases hfirst with hlt | ⟨heq, -⟩
  · exact Int.le_of_lt hlt
  · exact Int.le_of_eq heq

/-- A step that hands nothing out sends nothing. -/
theorem Ordered.next_idle (h : d.Ordered log)
    (hh : (⟨pass, d, ref, slot⟩ : Moment).handed? = none) :
    (d.bump pass ref slot).2.Ordered (log ++ [⟨pass, d, ref, slot⟩]) := by
  let m : Moment := ⟨pass, d, ref, slot⟩
  have hstash := m.stash_next
  rw [hh] at hstash
  have hsent : m.sent? = none := by
    cases hp : m.sent? with
    | none => rfl
    | some picture =>
      obtain ⟨victim, hh', -⟩ := Moment.sent?_cases hp
      cases hh.symm.trans hh'
  have hs : sentBy (log ++ [m]) = sentBy log := by
    rw [sentBy_concat, hsent, Option.toList_none, List.append_nil]
  have ho : handedBy (log ++ [m]) = handedBy log := by
    rw [handedBy_concat, hh, Option.toList_none, List.append_nil]
  have hfewer := h.fewer (fun _ _ => waiting?_of_bump)
    fun field hf => (hstash.symm.trans hf : d.scheduler.stash = some field)
  exact ⟨by rw [ho]; exact hfewer.waiting, by rw [ho]; exact hfewer.stash,
    by rw [hs]; exact hfewer.ahead, by rw [hs, ho]; exact hfewer.sent,
    by rw [hs]; exact hfewer.sorted⟩

/-- What a step sends is not behind the victim that it hands out, and not ahead of what was sent:
it is the victim, or it stands for the first field in the stash. -/
theorem Ordered.sends_between (h : d.Ordered log) {victim : Victim} {picture : Picture}
    (hh : (⟨pass, d, ref, slot⟩ : Moment).handed? = some victim)
    (hp : (⟨pass, d, ref, slot⟩ : Moment).sent? = some picture)
    (hlast : ∀ out ∈ handedBy log, out.poc ≤ victim.poc) :
    picture.poc ≤ victim.poc ∧ ∀ old ∈ sentBy log, old.poc ≤ picture.poc := by
  obtain ⟨victim, hh', hsends⟩ := Moment.sent?_cases hp
  obtain rfl := Option.some.inj (hh.symm.trans hh')
  cases hfield : victim.picStruct.isField with
  | false =>
    rw [hsends.frame hfield]
    refine ⟨Int.le_refl _, fun old hold => ?_⟩
    obtain ⟨out, hout, hle⟩ := h.sent old hold
    exact Int.le_trans hle (hlast out hout)
  | true =>
    obtain ⟨first, hfirst, hpoc, -⟩ := hsends.field hfield
    obtain ⟨out, hout, heq⟩ := h.stash first hfirst
    rw [hpoc]
    exact ⟨heq ▸ hlast out hout, h.ahead first hfirst⟩

/-- A step keeps what is sent in order. -/
theorem Ordered.next (h : d.Ordered log) (hv : d.nextVictim? pass = some (ref, slot))
    (h₀ : pass.active.testBit 0 = true) (h₁ : pass.active.testBit 1 = true) :
    (d.bump pass ref slot).2.Ordered (log ++ [⟨pass, d, ref, slot⟩]) := by
  let m : Moment := ⟨pass, d, ref, slot⟩
  cases hh : m.handed? with
  | none => exact h.next_idle hh
  | some victim =>
    have hstash := m.stash_next
    rw [hh] at hstash
    obtain ⟨frame, hf, rfl, -⟩ := Moment.handed?_cases hh
    obtain ⟨-, hslot, ho⟩ := mem_pending.mp (mem_pending_of_nextVictim? hv)
    -- The victim comes after all that was handed out, and before all that waits.
    have hlast : ∀ out ∈ handedBy log, out.poc ≤ slot.poc :=
      h.waiting ref _ (waiting?_eq_some_iff.mpr ⟨slot, frame, hslot, ho, hf, rfl⟩)
    have hsent : ∀ picture ∈ sentBy (log ++ [m]), picture.poc ≤ slot.poc := by
      intro picture hp
      rcases mem_sentBy_concat.mp hp with hold | hnew
      · obtain ⟨out, hout, hle⟩ := h.sent picture hold
        exact Int.le_trans hle (hlast out hout)
      · exact (h.sends_between hh hnew hlast).1
    have hvictim : m.slot.victim m.ref.layer frame ∈ handedBy (log ++ [m]) :=
      mem_handedBy_concat.mpr (Or.inr hh)
    refine ⟨?_, ?_, ?_, fun picture hp => ⟨_, hvictim, hsent picture hp⟩, ?_⟩
    · intro x w hw out hout
      have hold := waiting?_of_bump hw
      rcases mem_handedBy_concat.mp hout with hout | hout
      · exact h.waiting x w hold out hout
      · obtain rfl := Option.some.inj (hh.symm.trans hout)
        exact poc_le_of_nextVictim? hv h₀ h₁ hold
    · intro field hfield
      obtain ⟨rfl, -⟩ := hstash field hfield
      exact ⟨_, hvictim, rfl⟩
    · intro field hfield
      obtain ⟨rfl, -⟩ := hstash field hfield
      exact hsent
    · rw [sentBy_concat, List.pairwise_append]
      refine ⟨h.sorted, ?_, fun a ha b hb => ?_⟩
      · cases m.sent? with
        | none => exact List.Pairwise.nil
        | some picture => exact List.pairwise_singleton _ _
      · exact (h.sends_between hh (Option.mem_toList.mp hb) hlast).2 a ha

/-- All pictures are removed, and the stash is dropped. -/
theorem Ordered.removed (h : d.Ordered log) :
    Ordered log { d.clear with toShared := d.clear.toShared.dropStash } := by
  refine h.ages ((ages_clear _).trans (.of_eq rfl rfl)) fun field hf => ?_
  exact absurd ((Shared.stash_dropStash _).symm.trans hf) (by simp)

/-- A picture that is started joins those that wait, behind what was handed out. -/
theorem Ordered.startPicture (h : d.Ordered log) {layer : Nat} {info : PictureInfo}
    (hlast : info.output = true → ∀ ref, (d.startPicture layer info).1 = .ok ref →
      ∀ out ∈ handedBy log, out.poc ≤ info.poc) : (d.startPicture layer info).2.Ordered log := by
  have hs : ∀ field, (d.startPicture layer info).2.scheduler.stash = some field →
      d.scheduler.stash = some field := by
    intro field hf
    rwa [(d.quiet_startPicture layer info).scheduler] at hf
  obtain ⟨fault, -, hl⟩ | ⟨index, frame, hok, hjoins⟩ := d.startPicture_joins layer info
  · exact h.fewer (fun ref victim hw => (AlikeWaiting.of_layers hl ref).symm.trans hw) hs
  · refine ⟨fun ref victim hw => ?_, fun field hf => h.stash field (hs field hf),
      fun field hf => h.ahead field (hs field hf), h.sent, h.sorted⟩
    rcases hjoins.waiting? hw with hold | ⟨-, -, hpoc, hout⟩
    · exact h.waiting ref victim hold
    · rw [hpoc]
      exact hlast hout _ hok

end Decoder

/-! ## Runs of one decoder -/

namespace Session

variable {config : Config} {provider : Provider} {log : List Moment} {s : Session}

/-- **What an orderly run allows**: nobody forks the decoder, every output pass looks at both
layers, and no picture meant for output is started behind one that was handed out before. -/
def Orderly (log : List Moment) (s : Session) : Event → Prop
  | .fork _ => False
  | .run _ (.output pass) => pass.active.testBit 0 = true ∧ pass.active.testBit 1 = true
  | .run i (.startPicture layer info) => info.output = true → ∀ d ref, s.decoder? i = some d →
      (d.startPicture layer info).1 = .ok ref → ∀ out ∈ handedBy log, out.poc ≤ info.poc
  | _ => True

/-- There is one decoder, or none any more, and what was sent is in order. -/
structure Ordered (log : List Moment) (s : Session) : Prop where
  alone : s.contexts.length = 1
  decoder : ∀ i d, s.decoder? i = some d → d.Ordered log
  sorted : (sentBy log).Pairwise fun a b => a.poc ≤ b.poc

theorem ordered_start (config : Config) (provider : Provider) :
    (start config provider).Ordered [] := by
  refine ⟨rfl, fun i d hd => ⟨?_, ?_, ?_, ?_, .nil⟩, .nil⟩
  · intro ref victim _ out hout
    cases hout
  · intro field hf
    rw [(decoder?_eq hd).2] at hf
    cases hf
  · intro field _ picture hp
    cases hp
  · intro picture hp
    cases hp

/-- A command that is allowed keeps what is sent in order. -/
theorem ordered_command {i : Nat} {d : Decoder} (hd : s.decoder? i = some d)
    (h : d.Ordered log) (hsound : d.Sound) {command : Command}
    (hallowed : Orderly log s (.run i command)) :
    (d.run command).2.Ordered (log ++ s.moments (.run i command)) := by
  have quiet : ∀ {d' : Decoder}, d.Quiet d' → ∀ field, d'.scheduler.stash = some field →
      d.scheduler.stash = some field := by
    intro d' hq field hf
    rwa [hq.scheduler] at hf
  refine command_induction (P := fun log d => d.Ordered log) hd h ?_ ?_ ?_ ?_
  · intro log' d pass ref slot hpass h hv
    obtain ⟨h₀, h₁⟩ : pass.active.testBit 0 = true ∧ pass.active.testBit 1 = true := by
      rcases hpass with rfl | ⟨-, d, rfl⟩
      · exact hallowed
      · exact ⟨show Nat.testBit 3 0 = true from rfl, show Nat.testBit 3 1 = true from rfl⟩
    exact h.next hv h₀ h₁
  · exact fun _ => h.ages d.ages_dropCurrent (quiet d.quiet_dropCurrent)
  · exact fun _ _ _ h => h.removed
  · intro hs
    cases command with
    | startPicture layer info =>
      exact h.startPicture fun hout ref hok => hallowed hout d ref hd hok
    | finishPicture => exact h.ages d.ages_finishPicture (quiet d.quiet_finishPicture)
    | clear => exact h.ages d.ages_clear (quiet d.quiet_clear)
    | dropStash =>
      refine h.fewer (fun _ _ hw => hw) fun field hf => ?_
      exact absurd ((Shared.stash_dropStash d.toShared).symm.trans hf) (by simp)
    | deriveSets layer hdr =>
      refine h.fewer (fun ref victim hw => ?_) (quiet (d.steady_deriveSets layer hdr).toQuiet)
      exact (Decoder.alikeWaiting_deriveSets hsound layer hdr ref).symm.trans hw
    | output | flush => cases hs
    | _ => exact h.ages (d.ages_run trivial) (quiet (d.steady_run trivial).toQuiet)

theorem ordered_step (h : s.Ordered log) (hsound : s.Sound) {e : Event}
    (hallowed : Orderly log s e) : (s.step e).2.Ordered (log ++ s.moments e) := by
  have hfork : ∀ i, e ≠ .fork i := by
    rintro i rfl
    exact hallowed
  obtain ⟨halone, ⟨i, d, command, hd, rfl, hrun⟩ | ⟨hm, hkept, hstash⟩⟩ := alone_cases h.alone hfork
  · have hcommand := ordered_command hd (h.decoder i d hd) (hsound i d hd) hallowed
    refine ⟨halone, fun j d' hd' => ?_, hcommand.sorted⟩
    rw [hrun j d' hd']
    exact hcommand
  · rw [hm, List.append_nil]
    refine ⟨halone, fun j d' hd' => ?_, h.sorted⟩
    obtain ⟨d, hd, hcontext⟩ := hkept j d' hd'
    have hl : d'.layers = d.layers := congrArg Context.layers hcontext
    refine (h.decoder j d hd).fewer
      (fun ref _ hw => (Decoder.AlikeWaiting.of_layers hl ref).symm.trans hw) fun field hf => ?_
    rw [(decoder?_eq hd').2] at hf
    rw [(decoder?_eq hd).2]
    exact hstash field hf

/-- **Pictures are sent in presentation order.** In every orderly run of one decoder, the pictures
that were sent to the queue, in all output passes and flushes so far, do not go back in order count.
A woven picture counts with its first field. -/
theorem sent_in_order (h : Stretch Orderly [] (start config provider) log s) :
    (sentBy log).Pairwise fun a b => a.poc ≤ b.poc := by
  suffices hall : s.Ordered log from hall.sorted
  induction h with
  | refl => exact ordered_start config provider
  | step h e he ih => exact ordered_step ih (sound_run (h.run .start)) he

/-- A pair of fields and two frame pictures, the second one ahead of the first, are decoded; all
but the last of them are output. -/
def twoFieldsTwoFrames : List Event :=
  twoFields .topField .bottomField ++
    [.run 0 (.setSei {}), startBase 14, .run 0 .finishPicture,
      startBase 12, .run 0 .finishPicture,
      .run 0 (.output { active := 3, shown := 3, maxPending := 1, maxInUse := 16 })]

/-- A frame picture ahead of the one that waits is decoded, and both are output. -/
def oneMoreFrame : List Event := [startBase 13, .run 0 .finishPicture, .run 0 .flush]

/-- The pictures are sent in the order of their counts, not in the order of decoding. -/
theorem oneMoreFrame_sent_in_order : ∃ log s, Stretch Orderly [] (start {} {}) log s ∧
    (sentBy log).map (·.poc) = [10, 12, 13, 14] ∧
    (sentBy log).Pairwise fun a b => a.poc ≤ b.poc := by
  have unbounded : ∀ {log : List Moment}, handedBy log = [] → ∀ {s : Session} {poc : Int},
      Orderly log s (startBase poc) := by
    intro log hnone s poc _ d ref _ _ out hout
    rw [hnone] at hout
    cases hout
  have hlast : ∀ out ∈ handedBy ([] ++ (start {} {}).momentsAll twoFieldsTwoFrames),
      out.poc ≤ 13 := by
    decide +kernel
  have before : AllowedAll Orderly [] (start {} {}) twoFieldsTwoFrames :=
    ⟨trivial, trivial, unbounded rfl, trivial, trivial, unbounded rfl, trivial, trivial,
      unbounded rfl, trivial, unbounded rfl, trivial, ⟨rfl, rfl⟩, trivial⟩
  have after : AllowedAll Orderly ([] ++ (start {} {}).momentsAll twoFieldsTwoFrames)
      ((start {} {}).afterAll twoFieldsTwoFrames) oneMoreFrame :=
    ⟨fun _ _ _ _ _ => hlast, trivial, trivial, trivial⟩
  have h := (Stretch.refl.all before).all after
  exact ⟨_, _, h, by decide +kernel, sent_in_order h⟩

end Session

end PictureBuffer
