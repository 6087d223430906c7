import PictureBuffer.Proofs.Sessions

/-!
# Partners

There is one stash for all layers and all decoders of a session. So which fields are woven with
each other is decided by the order in which pictures are handed to the output process, whoever
hands them out: a woven field has for its partner the picture handed out **just before it**
(`woven_fields`). Nothing else about the partner is asked for than the layout of its frame. In
particular nobody asks whether the two are of one layer, and of opposite parity; if they are, then
they are two pictures, and each goes to its own lines.

Two top fields in a row, the second with an odd order count, are woven like any other two
(`not_always_matched`).
-/

namespace PictureBuffer

/-! ## Handing out -/

namespace Moment

/-- The victim, if the step hands it to the output process. -/
def handed? (m : Moment) : Option Victim :=
  match m.slot.frame with
  | none => none
  | some frame =>
    if m.decoder.isOwnField m.slot = false ∧ m.decoder.outcome? m.slot frame = some true ∧
        m.pass.shows m.ref.layer = true then
      some (m.slot.victim m.ref.layer frame)
    else none

/-- The state after the step. -/
def next (m : Moment) : Decoder := (m.decoder.bump m.pass m.ref m.slot).2

/-- The fields that the step weaves, that of the even lines and that of the odd ones. -/
def woven? (m : Moment) : Option (Field × Field) :=
  match m.handed?, m.decoder.scheduler.stash with
  | some victim, some first =>
    match victim.picStruct.isField, ((m.decoder.toShared.pop victim.poc).pair victim).1 with
    | true, .ok (.paired _) =>
      some (Shared.evenLines first victim.field, Shared.oddLines first victim.field)
    | _, _ => none
  | _, _ => none

theorem handed?_cases {m : Moment} {victim : Victim} (h : m.handed? = some victim) :
    ∃ frame, m.slot.frame = some frame ∧ victim = m.slot.victim m.ref.layer frame ∧
      m.decoder.isOwnField m.slot = false ∧
      m.decoder.outcome? m.slot frame = some true ∧ m.pass.shows m.ref.layer = true := by
  unfold handed? at h
  cases hf : m.slot.frame with
  | none => rw [hf] at h; cases h
  | some frame =>
    rw [hf] at h
    dsimp only at h
    split at h
    · rename_i hc
      exact ⟨frame, rfl, (Option.some.inj h).symm, hc.1, hc.2.1, hc.2.2⟩
    · cases h

/-- A step that hands nothing out ends the pass, with a failure only if its slot is empty; or it
takes the output flag off its victim. -/
theorem bump_of_unhanded {m : Moment} (h : m.handed? = none) :
    ((m.decoder.bump m.pass m.ref m.slot).2 = m.decoder ∧
        (m.decoder.bump m.pass m.ref m.slot).1 ≠ .ok .next ∧
        ∀ fault, (m.decoder.bump m.pass m.ref m.slot).1 = .error fault → m.slot.frame = none) ∨
    ∃ orphans, m.decoder.bump m.pass m.ref m.slot = (.ok .next,
      ({ m.decoder with scheduler := m.decoder.scheduler.recordOrphans orphans } :
        Decoder).stripOutput m.ref) := by
  have hb := Decoder.bumped m.pass m.decoder m.ref m.slot
  unfold handed? at h
  generalize m.decoder.bump m.pass m.ref m.slot = result at hb ⊢
  cases hb with
  | empty hf => exact Or.inl ⟨rfl, by simp, fun _ _ => hf⟩
  | deferred | waiting => exact Or.inl ⟨rfl, by simp, fun _ he => by cases he⟩
  | dropped _ _ _ _ orphans => exact Or.inr ⟨orphans, rfl⟩
  | handed hf ho hw hs =>
    rw [hf] at h
    dsimp only at h
    rw [if_pos ⟨ho, hw, hs⟩] at h
    cases h

/-- A step that hands a picture out emits it. The picture loses its output flag, failure or not,
unless it is to be emitted again. -/
theorem bump_of_handed {m : Moment} {victim : Victim} {result : Except Fault Emission}
    {shared : Shared} (h : m.handed? = some victim)
    (he : m.decoder.toShared.emit victim m.decoder.dts = (result, shared)) :
    m.decoder.bump m.pass m.ref m.slot = (result.map fun _ => .next,
      if result.toOption = some .again then { m.decoder with toShared := shared }
      else ({ m.decoder with toShared := shared } : Decoder).stripOutput m.ref) := by
  obtain ⟨frame, hframe, rfl, hown, hout, hshow⟩ := handed?_cases h
  have hb := Decoder.bumped m.pass m.decoder m.ref m.slot
  generalize m.decoder.bump m.pass m.ref m.slot = bump at hb ⊢
  cases hb with
  | empty hf => cases hf.symm.trans hframe
  | deferred _ ho => cases ho.symm.trans hown
  | waiting hf _ hw =>
    obtain rfl := Option.some.inj (hf.symm.trans hframe)
    cases hw.symm.trans hout
  | dropped hf _ hw hs =>
    obtain rfl := Option.some.inj (hf.symm.trans hframe)
    obtain rfl := Option.some.inj (hw.symm.trans hout)
    rw [hshow] at hs
    cases hs
  | handed hf _ _ _ he' =>
    obtain rfl := Option.some.inj (hf.symm.trans hframe)
    cases he.symm.trans he'
    rfl

/-- The scheduler after a step that hands a picture out is as the emission leaves it. -/
theorem scheduler_next {m : Moment} {victim : Victim} (h : m.handed? = some victim) :
    m.next.scheduler = (m.decoder.toShared.emit victim m.decoder.dts).2.scheduler := by
  rcases he : m.decoder.toShared.emit victim m.decoder.dts with ⟨result, shared⟩
  rw [next, bump_of_handed h he]
  dsimp only
  split
  · rfl
  · exact Decoder.scheduler_stripOutput _ _

/-- A step that hands nothing out leaves the stash alone. -/
theorem stash_of_unhanded {m : Moment} (h : m.handed? = none) :
    m.next.scheduler.stash = m.decoder.scheduler.stash := by
  obtain ⟨he, -⟩ | ⟨orphans, he⟩ := bump_of_unhanded h
  · rw [next, he]
  · rw [next, he, Decoder.scheduler_stripOutput]
    rfl

/-- **What becomes of the stash**: a step that hands nothing out leaves it alone; otherwise no field
waits but the one that was handed out. -/
theorem stash_next (m : Moment) :
    match m.handed? with
    | none => m.next.scheduler.stash = m.decoder.scheduler.stash
    | some victim => ∀ field, m.next.scheduler.stash = some field →
        field = victim.field ∧ victim.picStruct.isField = true := by
  cases h : m.handed? with
  | none => exact stash_of_unhanded h
  | some victim =>
    intro field hfield
    rw [scheduler_next h] at hfield
    exact Shared.stash_emit hfield

end Moment

/-- The last picture that was handed out. -/
def lastHanded? (log : List Moment) : Option Victim := (log.filterMap Moment.handed?).getLast?

theorem lastHanded?_append_singleton (log : List Moment) (m : Moment) :
    lastHanded? (log ++ [m]) = m.handed?.or (lastHanded? log) := by
  have hm : [m].filterMap Moment.handed? = m.handed?.toList := by
    cases h : m.handed? <;> simp [h]
  unfold lastHanded?
  rw [List.filterMap_append, List.getLast?_append, hm]
  cases m.handed? <;> rfl

/-! ## The stash along a run

A step of a pass changes the stash by handing a picture out; all else can only empty it. So what
each step carries on, and what an emptied stash does not break, holds along every run. -/

section StashInduction

variable {P : List Moment → Option Field → Prop} {d : Decoder} {pass : OutputPass}
  {log : List Moment}

theorem stash_pass
    (next : ∀ log (m : Moment), P log m.decoder.scheduler.stash →
      P (log ++ [m]) m.next.scheduler.stash)
    (h : P log d.scheduler.stash) :
    P (log ++ d.moments pass) (d.output pass).2.scheduler.stash ∧
    ∀ {before m after}, d.moments pass = before ++ m :: after →
      P (log ++ before) m.decoder.scheduler.stash := by
  obtain ⟨hend, hall⟩ := @Decoder.pass_induction d pass (fun log d => P log d.scheduler.stash)
    (fun {log d ref slot} h _ => next log ⟨pass, d, ref, slot⟩ h) log h
  exact ⟨hend, fun hm => (hall hm).1⟩

variable (drop : ∀ log stash, P log stash → P log none)
  (next : ∀ log (m : Moment), P log m.decoder.scheduler.stash →
    P (log ++ [m]) m.next.scheduler.stash)

include drop

/-- What can only empty the stash. -/
theorem stash_kept {stash stash' : Option Field} (h : P log stash)
    (hs : ∀ field, stash' = some field → stash = some field) : P log stash' := by
  cases stash' with
  | none => exact drop _ _ h
  | some field => exact hs field rfl ▸ h

include next

theorem stash_flush (h : P log d.scheduler.stash) :
    P (log ++ d.dropCurrent.moments d.flushPass) d.flush.2.scheduler.stash := by
  have hd : P log d.dropCurrent.scheduler.stash := by
    rw [d.quiet_dropCurrent.scheduler]
    exact h
  have hp := (@stash_pass P _ d.flushPass log next hd).1
  have hend : ∀ d' : Decoder,
      P (log ++ d.dropCurrent.moments d.flushPass) d'.clear.toShared.dropStash.scheduler.stash := by
    intro d'
    rw [Shared.stash_dropStash]
    exact drop _ _ hp
  unfold Decoder.flush
  rcases he : d.dropCurrent.output d.flushPass with ⟨fault | _ | _ | frame, d'⟩
  · exact hend d'
  · exact hend d'
  · exact hend d'
  · rw [he] at hp
    exact hp

namespace Session

variable {config : Config} {provider : Provider} {s : Session}

theorem stash_command {i : Nat} (hd : s.decoder? i = some d)
    (h : P log s.shared.scheduler.stash) (command : Command) :
    P (log ++ s.moments (.run i command)) (d.run command).2.scheduler.stash := by
  have hw : P log d.scheduler.stash := by
    rw [(decoder?_eq hd).2]
    exact h
  have quiet : ∀ {d' : Decoder}, d.Quiet d' → s.moments (.run i command) = [] →
      P (log ++ s.moments (.run i command)) d'.scheduler.stash := by
    intro d' hq hm
    rw [hm, List.append_nil, hq.scheduler]
    exact hw
  cases command with
  | output pass =>
    simp only [moments, hd]
    exact (stash_pass next hw).1
  | flush =>
    simp only [moments, hd]
    exact stash_flush drop next hw
  | startPicture layer info => exact quiet (d.quiet_startPicture layer info) rfl
  | finishPicture => exact quiet d.quiet_finishPicture rfl
  | clear => exact quiet d.quiet_clear rfl
  | dropStash =>
    change P (log ++ []) d.toShared.dropStash.scheduler.stash
    rw [List.append_nil, Shared.stash_dropStash]
    exact drop _ _ hw
  | _ => exact quiet (d.steady_run trivial).toQuiet rfl

theorem stash_step (h : P log s.shared.scheduler.stash) (e : Event) :
    P (log ++ s.moments e) (s.step e).2.shared.scheduler.stash := by
  have same : ∀ {sh : Shared}, s.moments e = [] → (∀ field, sh.scheduler.stash = some field →
      s.shared.scheduler.stash = some field) → P (log ++ s.moments e) sh.scheduler.stash := by
    intro sh hm hs
    rw [hm, List.append_nil]
    exact stash_kept drop h hs
  have hstepped := s.stepped e
  generalize (s.step e).2 = s' at hstepped
  cases hstepped with
  | ran hd => exact stash_command drop next hd h _
  | forked => exact same rfl fun _ hf => hf
  | closed _ _ hstash => exact same rfl hstash
  | served hm => exact same hm fun _ hf => hf

/-- **Induction along a run over its log and the stash.** -/
theorem stash_run (start : P [] none) (run : Run config provider log s) :
    P log s.shared.scheduler.stash := by
  induction run with
  | start => exact start
  | step run e ih => exact stash_step drop next ih e

/-- The same before every step of an output pass. -/
theorem stash_moment (start : P [] none) (run : Run config provider log s) {e : Event}
    {before after : List Moment} {m : Moment} (hm : s.moments e = before ++ m :: after) :
    P (log ++ before) m.decoder.scheduler.stash := by
  have hmem : m ∈ s.moments e := by
    rw [hm]
    exact List.mem_append_right before List.mem_cons_self
  obtain ⟨i, d, d', pass, hd, hq, he⟩ := moments_cases hmem
  rw [he] at hm
  have hw : P log d'.scheduler.stash := by
    rw [hq.scheduler, (decoder?_eq hd).2]
    exact stash_run drop next start run
  exact (stash_pass next hw).2 hm

end Session

end StashInduction

/-- The field that waits, if any, is the last picture that was handed out. -/
def Waits (log : List Moment) (sh : Shared) : Prop :=
  ∀ field, sh.scheduler.stash = some field →
    ∃ victim, lastHanded? log = some victim ∧ victim.field = field ∧
      victim.picStruct.isField = true

theorem waits_next {log : List Moment} {m : Moment} (h : Waits log m.decoder.toShared) :
    Waits (log ++ [m]) m.next.toShared := by
  have hn := m.stash_next
  intro field hf
  rw [lastHanded?_append_singleton]
  cases hh : m.handed? with
  | none =>
    rw [hh] at hn
    rw [Option.none_or]
    exact h field (hn.symm.trans hf)
  | some victim =>
    rw [hh] at hn
    obtain ⟨rfl, hfield⟩ := hn field hf
    exact ⟨victim, Option.some_or, rfl, hfield⟩

namespace Session

variable {config : Config} {provider : Provider} {log : List Moment} {s : Session}

/-- **The field that waits is the last picture that was handed out**, by whichever decoder. -/
theorem waits_run (run : Run config provider log s) : Waits log s.shared :=
  stash_run (P := fun log stash => ∀ field, stash = some field → ∃ victim,
      lastHanded? log = some victim ∧ victim.field = field ∧ victim.picStruct.isField = true)
    (fun _ _ _ _ hf => by cases hf) (fun _ _ => waits_next) (fun _ hf => by cases hf) run

/-- The same before every step of an output pass. -/
theorem waits_moment (run : Run config provider log s) {e : Event} {before after : List Moment}
    {m : Moment} (hm : s.moments e = before ++ m :: after) :
    Waits (log ++ before) m.decoder.toShared :=
  stash_moment (P := fun log stash => ∀ field, stash = some field → ∃ victim,
      lastHanded? log = some victim ∧ victim.field = field ∧ victim.picStruct.isField = true)
    (fun _ _ _ _ hf => by cases hf) (fun _ _ => waits_next) (fun _ hf => by cases hf) run hm

end Session

/-! ## What is woven -/

namespace Moment

variable {m : Moment} {even odd : Field}

/-- **When a step weaves**: it hands out a field that does not start a pair, while a field of the
same layout waits, and there is a frame to weave into. -/
theorem woven?_eq_some_iff : m.woven? = some (even, odd) ↔
    ∃ victim first woven sh, m.handed? = some victim ∧
      m.decoder.scheduler.stash = some first ∧
      victim.picStruct.isField = true ∧
      m.decoder.scheduler.startsPair victim.poc victim.picStruct = false ∧
      (m.decoder.store.frame first.frame).layout =
        (m.decoder.store.frame victim.frame).layout ∧
      even = Shared.evenLines first victim.field ∧ odd = Shared.oddLines first victim.field ∧
      (m.decoder.toShared.pop victim.poc).takeStash.weave even.frame odd.frame =
        (.ok woven, sh) := by
  unfold woven?
  constructor
  · intro h
    split at h
    · rename_i victim first hv hs
      split at h
      · rename_i picture hf hp
        rw [Option.some.injEq, Prod.mk.injEq] at h
        obtain ⟨rfl, rfl⟩ := h
        obtain ⟨-, he⟩ | ⟨-, -, he⟩ | ⟨first', hstart, hs', hl, he⟩ | ⟨_, -, -, -, he⟩ :=
          Shared.pair_cases (m.decoder.toShared.pop victim.poc) victim
        · rw [he] at hp
          cases hp
        · rw [he] at hp
          cases hp
        · obtain rfl : first = first' := Option.some.inj (hs.symm.trans hs')
          obtain ⟨sh, hw, hc⟩ | ⟨woven, sh, hw, hc⟩ := Shared.complete_cases
            (m.decoder.toShared.pop victim.poc).takeStash victim.layer first victim.field
          · rw [he, hc] at hp
            cases hp
          · exact ⟨victim, first, woven, sh, hv, hs, hf, hstart, hl, rfl, rfl, hw⟩
        · rw [he] at hp
          split at hp <;> cases hp
      · cases h
    · cases h
  · rintro ⟨victim, first, woven, sh, hv, hs, hf, hstart, hl, rfl, rfl, hw⟩
    have hp : (m.decoder.toShared.pop victim.poc).pair victim =
        (m.decoder.toShared.pop victim.poc).takeStash.complete victim.layer first
          victim.field := by
      obtain ⟨hstart', -⟩ | ⟨-, hs', -⟩ | ⟨first', -, hs', -, he⟩ | ⟨first', -, hs', hl', -⟩ :=
        Shared.pair_cases (m.decoder.toShared.pop victim.poc) victim
      · exact absurd (hstart.symm.trans hstart') Bool.false_ne_true
      · cases hs.symm.trans hs'
      · obtain rfl : first = first' := Option.some.inj (hs.symm.trans hs')
        exact he
      · obtain rfl : first = first' := Option.some.inj (hs.symm.trans hs')
        exact absurd hl hl'
    rw [hv, hs]
    dsimp only
    rw [hf, hp, Shared.complete, hw]

end Moment

/-- The two fields of a pair are in their places: each parity in its lines. -/
theorem lines_iff {first second : Field} (hf : first.picStruct.isField = true)
    (hs : second.picStruct.isField = true) :
    ((Shared.evenLines first second).picStruct.isTopField = true ∧
      (Shared.oddLines first second).picStruct.isBottomField = true) ↔
    first.picStruct.isTopField ≠ second.picStruct.isTopField := by
  have exclusive : ∀ p : PicStruct, p.isField = true → p.isBottomField = !p.isTopField := by
    intro p
    cases p <;> decide
  unfold Shared.evenLines Shared.oddLines
  cases ht : second.picStruct.isTopField with
  | true =>
    rw [if_pos rfl, if_pos rfl, ht, exclusive _ hf]
    simp
  | false =>
    rw [if_neg Bool.false_ne_true, if_neg Bool.false_ne_true, exclusive _ hs, ht]
    simp

namespace Session

variable {config : Config} {provider : Provider} {log : List Moment} {s : Session}

/-- **Who is woven with whom.** Take any run of a session, and any step of its next event that
weaves two fields. They are the picture that the step hands out and the last one that was handed
out before it. They are of one layer, each parity in its lines, and two different pictures **if
and only if** these two pictures are of one layer and of opposite parity. -/
theorem woven_fields (run : Run config provider log s) {e : Event} {before after : List Moment}
    {m : Moment} (hm : s.moments e = before ++ m :: after) {even odd : Field}
    (hw : m.woven? = some (even, odd)) :
    ∃ first second, lastHanded? (log ++ before) = some first ∧ m.handed? = some second ∧
      even = Shared.evenLines first.field second.field ∧
      odd = Shared.oddLines first.field second.field ∧
      ((first.layer = second.layer ∧ even.picStruct.isTopField = true ∧
          odd.picStruct.isBottomField = true ∧ even.frame ≠ odd.frame) ↔
        first.layer = second.layer ∧
          first.picStruct.isTopField ≠ second.picStruct.isTopField) := by
  obtain ⟨second, waiting, -, -, hh, hs, hf, -, -, heven, hodd, -⟩ :=
    Moment.woven?_eq_some_iff.mp hw
  obtain ⟨first, hlast, rfl, hfirst⟩ := waits_moment run hm waiting hs
  refine ⟨first, second, hlast, hh, heven, hodd, ?_⟩
  have hlines := @lines_iff first.field second.field hfirst hf
  rw [← heven, ← hodd] at hlines
  constructor
  · rintro ⟨hl, he, ho, -⟩
    exact ⟨hl, hlines.mp ⟨he, ho⟩⟩
  · rintro ⟨hl, hp⟩
    obtain ⟨he, ho⟩ := hlines.mpr hp
    refine ⟨hl, he, ho, ?_⟩
    intro hframe
    -- One frame belongs to one picture, which has one parity.
    have hmem : m ∈ s.moments e := by
      rw [hm]
      exact List.mem_append_right before List.mem_cons_self
    obtain ⟨origin, hd⟩ := described_run run
    obtain ⟨origin, hd⟩ := described_moment hd hmem
    have hwaiting := (hd.stash _ hs).picStruct
    obtain ⟨i, d, d', pass, -, -, hmoments⟩ := moments_cases hmem
    rw [hmoments] at hmem
    obtain ⟨frame, hslot, rfl, -⟩ := Moment.handed?_cases hh
    obtain ⟨-, horigin⟩ := hd.slot (Decoder.moments_slot? hmem) hslot
    have hsame : first.field.frame = frame := by
      unfold Shared.evenLines at heven
      unfold Shared.oddLines at hodd
      rw [heven, hodd] at hframe
      split at hframe
      · exact hframe.symm
      · exact hframe
    rw [hsame, horigin] at hwaiting
    exact hp (congrArg PicStruct.isTopField hwaiting).symm

/-! ## Two fields in a row -/

/-- The state after some events. -/
def afterAll (s : Session) : List Event → Session
  | [] => s
  | e :: events => (s.step e).2.afterAll events

/-- The steps of output passes that some events take. -/
def momentsAll (s : Session) : List Event → List Moment
  | [] => []
  | e :: events => s.moments e ++ (s.step e).2.momentsAll events

theorem run_all (events : List Event) : ∀ {log : List Moment} {s : Session},
    Run config provider log s →
      Run config provider (log ++ s.momentsAll events) (s.afterAll events) := by
  induction events with
  | nil =>
    intro log s run
    rw [momentsAll, List.append_nil]
    exact run
  | cons e events ih =>
    intro log s run
    have hrun := ih (run.step e)
    rw [List.append_assoc] at hrun
    exact hrun

/-- Two fields are decoded, of order counts `10` and `11`. -/
def twoFields (first second : PicStruct) : List Event :=
  [.run 0 (.setSps 0 { width := 2, height := 2 }),
    .run 0 (.setSei { picStruct := first }),
    .run 0 (.startPicture 0 { poc := 10, output := true, numSlices := 1, pps := {} }),
    .run 0 .finishPicture,
    .run 0 (.setSei { picStruct := second }),
    .run 0 (.startPicture 0 { poc := 11, output := true, numSlices := 1, pps := {} }),
    .run 0 .finishPicture]

/-- All pictures of the base layer are output. -/
def basePass : OutputPass where
  active := 1
  shown := 1
  maxPending := 0
  maxInUse := 16

def drainBase : Event := .run 0 (.output basePass)

/-- The last step of a course of two steps. -/
theorem second_moment {moments : List Moment} {p : PicStruct × PicStruct}
    (h : moments.map (fun m => m.woven?.map fun w => (w.1.picStruct, w.2.picStruct)) =
      [none, some p]) :
    ∃ a b even odd, moments = [a] ++ b :: [] ∧ b.woven? = some (even, odd) ∧
      even.picStruct = p.1 ∧ odd.picStruct = p.2 := by
  obtain ⟨a, rest, rfl, -, hrest⟩ := List.map_eq_cons_iff.mp h
  obtain ⟨b, rest, rfl, hb, hnil⟩ := List.map_eq_cons_iff.mp hrest
  obtain rfl := List.map_eq_nil_iff.mp hnil
  obtain ⟨⟨even, odd⟩, hw, rfl⟩ := Option.map_eq_some_iff.mp hb
  exact ⟨a, b, even, odd, rfl, hw, rfl, rfl⟩

/-- A top field and a bottom field are woven, and are the two that were handed out. -/
theorem woven_top_bottom : ∃ log s before m after even odd,
    Run {} {} log s ∧ s.moments drainBase = before ++ m :: after ∧
    m.woven? = some (even, odd) ∧
    ∃ first second, lastHanded? (log ++ before) = some first ∧ m.handed? = some second ∧
      even = Shared.evenLines first.field second.field ∧
      odd = Shared.oddLines first.field second.field ∧
      ((first.layer = second.layer ∧ even.picStruct.isTopField = true ∧
          odd.picStruct.isBottomField = true ∧ even.frame ≠ odd.frame) ↔
        first.layer = second.layer ∧
          first.picStruct.isTopField ≠ second.picStruct.isTopField) := by
  have run := run_all (twoFields .topField .bottomField) (@Run.start {} {})
  obtain ⟨a, b, even, odd, hm, hw, -, -⟩ := @second_moment
    (((start {} {}).afterAll (twoFields .topField .bottomField)).moments drainBase)
    (.topField, .bottomField) (by decide +kernel)
  exact ⟨_, _, _, _, _, _, _, run, hm, hw, woven_fields run hm hw⟩

/-- **Two top fields are woven**, so it is not true of every run that the fields which are woven are
of opposite parity. -/
theorem not_always_matched : ¬ ∀ (config : Config) (provider : Provider) (log : List Moment)
    (s : Session) (e : Event) (m : Moment) (even odd : Field), Run config provider log s →
    m ∈ s.moments e → m.woven? = some (even, odd) →
    even.picStruct.isTopField = true ∧ odd.picStruct.isBottomField = true := by
  intro h
  have run := run_all (twoFields .topField .topField) (@Run.start {} {})
  obtain ⟨a, b, even, odd, hm, hw, -, ho⟩ := @second_moment
    (((start {} {}).afterAll (twoFields .topField .topField)).moments drainBase)
    (.topField, .topField) (by decide +kernel)
  have hmem : b ∈ ((start {} {}).afterAll (twoFields .topField .topField)).moments drainBase := by
    rw [hm]
    exact List.mem_append_right [a] List.mem_cons_self
  obtain ⟨-, hbottom⟩ := h {} {} _ _ drainBase b even odd run hmem hw
  rw [ho] at hbottom
  cases hbottom

end Session

end PictureBuffer
