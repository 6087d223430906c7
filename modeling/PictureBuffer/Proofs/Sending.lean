import PictureBuffer.Proofs.Waiting

/-!
# What is sent to the queue

The picture that a step of an output pass adds to the queue, if any, is a frame picture that the
step hands to the output process, or woven from the field that waits in the stash and the one that
it hands out (`Moment.sent?_cases`). A woven picture stands where its first field stood, in a frame
that is the scratch frame or new to all.

The pictures that the steps of a run have sent are those that have been in the queue, in order
(`queue_run`).

A **stretch** of a run goes on from some state through events that are allowed
(`Session.Stretch`).
-/

namespace PictureBuffer

namespace Shared

variable {sh sh' : Shared} {victim : Victim} {dts : Option Int}

/-! ## One emission -/

/-- The scratch frame can be used again for `layout`. -/
def Reusable (sh : Shared) (layout : Layout) (scratch : FrameId) : Prop :=
  sh.scheduler.scratch = some scratch ∧ sh.store.isUnique scratch = true ∧
    (sh.store.frame scratch).layout = layout

/-- The scratch frame is taken if it can be used again. -/
theorem weavingFrame_of_reusable {layout : Layout} {scratch : FrameId}
    (hr : sh.Reusable layout scratch) : sh.weavingFrame layout =
      (some scratch, { sh with scheduler := { sh.scheduler with scratch := none } }) := by
  unfold weavingFrame
  rw [hr.1]
  exact if_pos hr.2

/-- Otherwise the provider is asked, and the scratch frame let go. -/
theorem weavingFrame_of_not_reusable {layout : Layout}
    (hr : ∀ scratch, ¬sh.Reusable layout scratch) :
    sh.weavingFrame layout =
      ((sh.store.acquire layout.format layout.width layout.height).1,
        { sh with
          store := (sh.store.acquire layout.format layout.width layout.height).2.releaseAll
            sh.scheduler.scratch.toList
          scheduler := { sh.scheduler with scratch := none } }) := by
  unfold weavingFrame
  dsimp only
  cases hs : sh.scheduler.scratch with
  | none => rfl
  | some scratch => exact if_neg fun hfit => hr scratch ⟨hs, hfit⟩

/-- **The frame to weave into** is the scratch frame, or else a new one, next to which an unfit
scratch frame is let go. -/
theorem weavingFrame_cases {layout : Layout} {woven : FrameId}
    (hw : sh.weavingFrame layout = (some woven, sh')) :
    sh.Reusable layout woven ∧ sh'.store = sh.store ∨
    (∀ scratch, ¬ sh.Reusable layout scratch) ∧
      ∃ store, sh.store.acquire layout.format layout.width layout.height = (some woven, store) ∧
        sh'.store = store.releaseAll sh.scheduler.scratch.toList := by
  by_cases hr : ∃ scratch, sh.Reusable layout scratch
  · obtain ⟨scratch, hr⟩ := hr
    rw [weavingFrame_of_reusable hr] at hw
    cases hw
    exact Or.inl ⟨hr, rfl⟩
  · rw [not_exists] at hr
    rw [weavingFrame_of_not_reusable hr] at hw
    obtain ⟨ha, rfl⟩ := Prod.mk.inj hw
    exact Or.inr ⟨hr, _, Prod.ext ha rfl, rfl⟩

/-- A frame to weave into is the scratch frame, which nobody else holds then, or a new one. -/
theorem fst_weavingFrame {layout : Layout} {woven : FrameId}
    (h : (sh.weavingFrame layout).1 = some woven) :
    sh.scheduler.scratch = some woven ∧ sh.store.isUnique woven = true ∨
      sh.store.cells.size ≤ woven := by
  obtain ⟨⟨hs, hunique, -⟩, -⟩ | ⟨-, store, ha, -⟩ := weavingFrame_cases (Prod.ext h rfl)
  · exact Or.inl ⟨hs, hunique⟩
  · exact Or.inr (Store.size_le_of_acquire ha).1

/-- The picture of a pair stands where its first field stood, in the scratch frame or a new one. -/
theorem paired_pair {picture : Picture} (h : (sh.pair victim).1 = .ok (.paired picture)) :
    ∃ first, sh.scheduler.stash = some first ∧ picture.poc = first.poc ∧
      (sh.scheduler.scratch = some picture.frame ∨ sh.store.cells.size ≤ picture.frame) := by
  obtain ⟨-, he⟩ | ⟨-, -, he⟩ | ⟨first, -, hs, -, he⟩ | ⟨first, -, -, -, he⟩ :=
    pair_cases sh victim
  · rw [he] at h
    cases h
  · rw [he] at h
    cases h
  · refine ⟨first, hs, ?_⟩
    obtain ⟨_, -, hc⟩ | ⟨woven, _, hw, hc⟩ :=
      complete_cases sh.takeStash victim.layer first victim.field
    · rw [he, hc] at h
      cases h
    · rw [he, hc] at h
      cases h
      refine ⟨rfl, ?_⟩
      obtain ⟨_, -, hweave⟩ | ⟨_, _, hframe, hweave⟩ := weave_cases sh.takeStash
        (evenLines first victim.field).frame (oddLines first victim.field).frame
      · rw [hweave] at hw
        cases hw
      · rw [hweave] at hw
        cases hw
        exact (@fst_weavingFrame sh.takeStash _ _ (congrArg Prod.fst hframe)).imp_left And.left
  · rw [he] at h
    split at h <;> cases h

/-- A picture that an emission sends: a frame picture, or one woven from the stash and the victim. -/
structure Sends (sh : Shared) (victim : Victim) (dts : Option Int) (picture : Picture) : Prop where
  frame : victim.picStruct.isField = false → picture = victim.picture dts
  field : victim.picStruct.isField = true → ∃ first, sh.scheduler.stash = some first ∧
    picture.poc = first.poc ∧
    (sh.scheduler.scratch = some picture.frame ∨ sh.store.cells.size ≤ picture.frame)

/-- **What an emission does to the queue**: a picture is added, or it stays. A frame picture whose
emission succeeds is added. -/
theorem sends_emit (sh : Shared) (victim : Victim) (dts : Option Int) :
    (∃ picture, (sh.emit victim dts).2.queue =
        { sh.queue with pictures := sh.queue.pictures ++ [picture] } ∧
      sh.Sends victim dts picture) ∨
    (sh.emit victim dts).2.queue = sh.queue ∧
      (victim.picStruct.isField = false → ∃ fault, (sh.emit victim dts).1 = .error fault) := by
  have pair := queue_pair (sh.pop victim.poc) victim
  obtain ⟨hf, he⟩ | ⟨picture, sh', hf, hpair, he⟩ | ⟨result, sh', hf, hpair, -, he⟩ :=
    emit_cases sh victim dts
  · have hqueue : (sh.pop victim.poc).dropStash.queue = sh.queue := queue_dropStash _
    obtain ⟨-, hs⟩ | ⟨-, hs⟩ := send_cases { (sh.pop victim.poc).dropStash with
      store := (sh.pop victim.poc).dropStash.store.retain victim.frame } (victim.picture dts)
    · refine Or.inl ⟨victim.picture dts, ?_, fun _ => rfl, fun hf' => ?_⟩
      · rw [he, hs]
        dsimp only
        rw [hqueue]
      · rw [hf] at hf'
        cases hf'
    · refine Or.inr ⟨?_, fun _ => ⟨.outputQueueFull, ?_⟩⟩
      · rw [he, hs]
        exact hqueue
      · rw [he, hs]
  · rw [hpair] at pair
    obtain ⟨first, hstash, hpoc, hframe⟩ := paired_pair (congrArg Prod.fst hpair)
    obtain ⟨-, hs⟩ | ⟨-, hs⟩ := send_cases sh' { picture with dts }
    · refine Or.inl ⟨{ picture with dts }, ?_, fun hf' => ?_, fun _ => ⟨first, hstash, hpoc, hframe⟩⟩
      · rw [he, hs]
        dsimp only
        rw [pair]
        rfl
      · rw [hf] at hf'
        cases hf'
    · refine Or.inr ⟨?_, fun hf' => ?_⟩
      · rw [he, hs]
        exact pair
      · rw [hf] at hf'
        cases hf'
  · rw [hpair] at pair
    refine Or.inr ⟨?_, fun hf' => ?_⟩
    · rw [he]
      exact pair
    · rw [hf] at hf'
      cases hf'

end Shared

/-! ## One step of a pass -/

namespace Moment

variable {m : Moment} {picture : Picture} {victim : Victim}

/-- The picture that the step adds to the queue. -/
def sent? (m : Moment) : Option Picture := m.next.queue.pictures[m.decoder.queue.pictures.length]?

theorem queue_stripOutput (d : Decoder) (ref : SlotRef) :
    (d.stripOutput ref).queue = d.queue := by
  unfold Decoder.stripOutput Decoder.onDpb
  split <;> rfl

/-- A step that hands nothing out leaves the queue alone; otherwise the queue is as the emission
leaves it. -/
theorem queue_next (m : Moment) :
    m.next.queue = match m.handed? with
      | none => m.decoder.queue
      | some victim => (m.decoder.toShared.emit victim m.decoder.dts).2.queue := by
  cases h : m.handed? with
  | none =>
    obtain ⟨he, -⟩ | ⟨orphans, he⟩ := bump_of_unhanded h
    · rw [next, he]
    · rw [next, he, queue_stripOutput]
  | some victim =>
    rcases he : m.decoder.toShared.emit victim m.decoder.dts with ⟨result, shared⟩
    rw [next, bump_of_handed h he]
    dsimp only
    rw [he]
    split
    · rfl
    · exact queue_stripOutput _ _

/-- **Pictures are only added to the queue**, at its end and one by one. -/
theorem pictures_next (m : Moment) :
    m.next.queue.pictures = m.decoder.queue.pictures ++ m.sent?.toList := by
  have added : ∀ {queue : Queue} {picture : Picture},
      m.next.queue = { queue with pictures := queue.pictures ++ [picture] } →
      queue = m.decoder.queue →
      m.next.queue.pictures = m.decoder.queue.pictures ++ m.sent?.toList := by
    rintro queue picture h rfl
    rw [sent?, h]
    simp
  have kept : m.next.queue = m.decoder.queue →
      m.next.queue.pictures = m.decoder.queue.pictures ++ m.sent?.toList := by
    intro h
    rw [sent?, h]
    simp
  have hq := m.queue_next
  cases hh : m.handed? with
  | none =>
    rw [hh] at hq
    exact kept hq
  | some victim =>
    rw [hh] at hq
    obtain ⟨picture, he, -⟩ | ⟨he, -⟩ :=
      m.decoder.toShared.sends_emit victim m.decoder.dts
    · exact added (hq.trans he) rfl
    · exact kept (hq.trans he)

/-- **What a step sends**: a frame picture that it hands out, or one woven from the stash and the
field that it hands out. -/
theorem sent?_cases (h : m.sent? = some picture) : ∃ victim, m.handed? = some victim ∧
    m.decoder.toShared.Sends victim m.decoder.dts picture := by
  have hp := m.pictures_next
  have hq := m.queue_next
  rw [h] at hp
  cases hh : m.handed? with
  | none =>
    rw [hh] at hq
    rw [hq] at hp
    simp at hp
  | some victim =>
    rw [hh] at hq
    dsimp only at hq
    refine ⟨victim, rfl, ?_⟩
    obtain ⟨sent, he, hsends⟩ | ⟨he, -⟩ := m.decoder.toShared.sends_emit victim m.decoder.dts
    · rw [hq, he] at hp
      obtain rfl : sent = picture := by simpa using hp
      exact hsends
    · rw [hq, he] at hp
      simp at hp

/-- A frame picture that is handed out without a failure is sent. -/
theorem sent?_of_handed (h : m.handed? = some victim) (hf : victim.picStruct.isField = false)
    (hok : ∀ fault, (m.decoder.toShared.emit victim m.decoder.dts).1 ≠ .error fault) :
    m.sent? = some (victim.picture m.decoder.dts) := by
  have hq := m.queue_next
  rw [h] at hq
  dsimp only at hq
  obtain ⟨sent, he, hsends⟩ | ⟨-, hfault⟩ := m.decoder.toShared.sends_emit victim m.decoder.dts
  · rw [sent?, hq, he, hsends.frame hf]
    simp
  · obtain ⟨fault, he⟩ := hfault hf
    exact absurd he (hok fault)

end Moment

/-- **What a flush does**: after the current picture is dropped it is an output pass. Unless the
pass has to wait, all pictures are removed then, and the stash is dropped. -/
theorem Decoder.flush_cases (d : Decoder) :
    (∃ frame, (d.dropCurrent.output d.flushPass).1 = .ok (.waiting frame) ∧
      d.flush = d.dropCurrent.output d.flushPass) ∨
    (∀ frame, (d.dropCurrent.output d.flushPass).1 ≠ .ok (.waiting frame)) ∧
      d.flush = ((d.dropCurrent.output d.flushPass).1,
        { (d.dropCurrent.output d.flushPass).2.clear with
          toShared := (d.dropCurrent.output d.flushPass).2.clear.toShared.dropStash }) := by
  unfold flush
  rcases d.dropCurrent.output d.flushPass with ⟨fault | _ | _ | frame, d'⟩
  · exact Or.inr ⟨fun _ h => (by cases h), rfl⟩
  · exact Or.inr ⟨fun _ h => (by cases h), rfl⟩
  · exact Or.inr ⟨fun _ h => (by cases h), rfl⟩
  · exact Or.inl ⟨frame, rfl, rfl⟩

/-- The pictures that the steps of output passes have sent. -/
def sentBy (log : List Moment) : List Picture := log.filterMap Moment.sent?

/-- The pictures that they have handed to the output process. -/
def handedBy (log : List Moment) : List Victim := log.filterMap Moment.handed?

theorem sentBy_concat (log : List Moment) (m : Moment) :
    sentBy (log ++ [m]) = sentBy log ++ m.sent?.toList := by
  unfold sentBy
  rw [List.filterMap_append]
  cases h : m.sent? with
  | none => simp [h]
  | some picture => simp [h]

theorem handedBy_concat (log : List Moment) (m : Moment) :
    handedBy (log ++ [m]) = handedBy log ++ m.handed?.toList := by
  unfold handedBy
  rw [List.filterMap_append]
  cases h : m.handed? with
  | none => simp [h]
  | some victim => simp [h]

theorem mem_sentBy_concat {log : List Moment} {m : Moment} {picture : Picture} :
    picture ∈ sentBy (log ++ [m]) ↔ picture ∈ sentBy log ∨ m.sent? = some picture := by
  rw [sentBy_concat, List.mem_append, Option.mem_toList]

theorem mem_handedBy_concat {log : List Moment} {m : Moment} {victim : Victim} :
    victim ∈ handedBy (log ++ [m]) ↔ victim ∈ handedBy log ∨ m.handed? = some victim := by
  rw [handedBy_concat, List.mem_append, Option.mem_toList]

/-- The command may take pictures out of the buffer for output. -/
def Command.outputs : Command → Bool
  | .output _ | .flush => true
  | _ => false

def Event.outputs : Event → Bool
  | .run _ command => command.outputs
  | _ => false

/-! ## Stretches of a run -/

namespace Session

variable {config : Config} {provider : Provider} {log log' : List Moment} {s s' : Session}

/-- **A stretch of a run**, from a state with its log, through events that are allowed where they
occur. -/
inductive Stretch (allowed : List Moment → Session → Event → Prop) (log : List Moment)
    (s : Session) : List Moment → Session → Prop
  | refl : Stretch allowed log s log s
  | step {log' : List Moment} {s' : Session} (h : Stretch allowed log s log' s') (e : Event)
      (he : allowed log' s' e) : Stretch allowed log s (log' ++ s'.moments e) (s'.step e).2

variable {allowed : List Moment → Session → Event → Prop}

/-- A run goes on through a stretch. -/
theorem Stretch.run (h : Stretch allowed log s log' s') (run : Run config provider log s) :
    Run config provider log' s' := by
  induction h with
  | refl => exact run
  | step _ e _ ih => exact ih.step e

/-- Each of the events is allowed where it occurs. -/
def AllowedAll (allowed : List Moment → Session → Event → Prop) :
    List Moment → Session → List Event → Prop
  | _, _, [] => True
  | log, s, e :: events =>
    allowed log s e ∧ AllowedAll allowed (log ++ s.moments e) (s.step e).2 events

/-- A stretch goes on through some events. -/
theorem Stretch.all {events : List Event} : ∀ {log' : List Moment} {s' : Session},
    Stretch allowed log s log' s' → AllowedAll allowed log' s' events →
      Stretch allowed log s (log' ++ s'.momentsAll events) (s'.afterAll events) := by
  induction events with
  | nil =>
    intro log' s' h _
    rw [momentsAll, List.append_nil]
    exact h
  | cons e events ih =>
    rintro log' s' h ⟨he, hall⟩
    have hrest := ih (h.step e he) hall
    rw [List.append_assoc] at hrest
    exact hrest

/-! ## The steps of a command -/

theorem moments_of_absent {i : Nat} (hd : s.decoder? i = none) (command : Command) :
    s.moments (.run i command) = [] := by
  unfold moments
  cases command <;> simp [hd]

theorem moments_of_silent {e : Event} (hs : e.outputs = false) : s.moments e = [] := by
  cases e with
  | run i command =>
    cases command with
    | output | flush => cases hs
    | _ => rfl
  | _ => rfl

/-- **Induction along a command**: what every step of its output pass carries on, from the log so
far and the state, and what the rest of the command keeps, holds after it. -/
theorem command_induction {P : List Moment → Decoder → Prop} {i : Nat} {d : Decoder}
    {command : Command} (hd : s.decoder? i = some d) (h : P log d)
    (next : ∀ {log : List Moment} {d : Decoder} {pass : OutputPass} {ref : SlotRef} {slot : Slot},
      (command = .output pass ∨ command = .flush ∧ ∃ d : Decoder, pass = d.flushPass) →
      P log d → d.nextVictim? pass = some (ref, slot) →
      P (log ++ [⟨pass, d, ref, slot⟩]) (d.bump pass ref slot).2)
    (drop : command = .flush → P log d.dropCurrent)
    (removed : command = .flush → ∀ {log : List Moment} {d : Decoder}, P log d →
      P log { d.clear with toShared := d.clear.toShared.dropStash })
    (silent : command.outputs = false → P log (d.run command).2) :
    P (log ++ s.moments (.run i command)) (d.run command).2 := by
  have others : command.outputs = false → s.moments (.run i command) = [] →
      P (log ++ s.moments (.run i command)) (d.run command).2 := by
    intro hs hm
    rw [hm, List.append_nil]
    exact silent hs
  cases command with
  | output pass =>
    simp only [moments, hd]
    exact (@Decoder.pass_induction d pass P (next (Or.inl rfl)) log h).1
  | flush =>
    simp only [moments, hd]
    have hpass := (@Decoder.pass_induction d.dropCurrent d.flushPass P
      (next (Or.inr ⟨rfl, d, rfl⟩)) log (drop rfl)).1
    dsimp only [Decoder.run]
    obtain ⟨frame, -, he⟩ | ⟨-, he⟩ := d.flush_cases
    · rw [he]
      exact hpass
    · rw [he]
      exact removed rfl hpass
  | _ => exact others rfl rfl

/-- There is no other decoder. -/
theorem decoder?_alone (h : s.contexts.length = 1) {i j : Nat} {d d' : Decoder}
    (hd : s.decoder? i = some d) (hd' : s.decoder? j = some d') : d' = d := by
  have hi := lt_length_of_context? (decoder?_eq hd).1
  have hj := lt_length_of_context? (decoder?_eq hd').1
  rw [h] at hi hj
  obtain rfl : j = i := by omega
  exact Option.some.inj (hd'.symm.trans hd)

/-- **What happens to the only decoder** of a session, as long as it is not forked: it carries out a
command, or it is as before, or gone. -/
theorem alone_cases (h : s.contexts.length = 1) {e : Event} (he : ∀ i, e ≠ .fork i) :
    (s.step e).2.contexts.length = 1 ∧
    ((∃ i d command, s.decoder? i = some d ∧ e = .run i command ∧
        ∀ j d', (s.step e).2.decoder? j = some d' → d' = (d.run command).2) ∨
      s.moments e = [] ∧
      (∀ i d', (s.step e).2.decoder? i = some d' →
        ∃ d, s.decoder? i = some d ∧ d'.toContext = d.toContext) ∧
      ∀ field, (s.step e).2.shared.scheduler.stash = some field →
        s.shared.scheduler.stash = some field) := by
  have kept : ∀ {i : Nat} {d' : Decoder}, s.context? i = some d'.toContext →
      ∃ d, s.decoder? i = some d ∧ d'.toContext = d.toContext := by
    intro i d' hc
    exact ⟨{ toContext := d'.toContext, toShared := s.shared }, by rw [decoder?, hc]; rfl, rfl⟩
  have hstepped := s.stepped e
  generalize (s.step e).2 = s' at hstepped
  cases hstepped with
  | @ran i d command hd =>
    have hlength : (s.setDecoder i (d.run command).2).contexts.length = 1 :=
      List.length_set.trans h
    have hrun := decoder?_run hd command
    have hs : (s.step (.run i command)).2 = s.setDecoder i (d.run command).2 := by
      simp only [step, hd]
    rw [hs] at hrun
    exact ⟨hlength, Or.inl ⟨i, d, command, hd, rfl, fun j d' => decoder?_alone hlength hrun⟩⟩
  | @forked i => exact absurd rfl (he i)
  | closed _ _ hstash =>
    refine ⟨List.length_set.trans h, Or.inr ⟨rfl, fun i d' hd' => ?_, hstash⟩⟩
    exact kept (context?_set_none (decoder?_eq hd').1)
  | served hm =>
    exact ⟨h, Or.inr ⟨hm, fun i d' hd' => kept (decoder?_eq hd').1, fun _ hf => hf⟩⟩

/-! ## The queue of a run -/

/-- The pictures in the queue are the last ones that were sent. -/
def Queued (log : List Moment) (queue : Queue) : Prop :=
  ∃ gone, sentBy log = gone ++ queue.pictures

theorem Queued.of_suffix {queue queue' : Queue} (h : Queued log queue) {gone : List Picture}
    (hq : queue.pictures = gone ++ queue'.pictures) : Queued log queue' := by
  obtain ⟨gone', hsent⟩ := h
  exact ⟨gone' ++ gone, by rw [hsent, hq, List.append_assoc]⟩

/-- A command without an output pass is none of the output process's business, unless it is to drop
the stash. -/
theorem quiet_run_of_silent {command : Command} (hs : command.outputs = false)
    (hd : command ≠ .dropStash) (d : Decoder) : d.Quiet (d.run command).2 := by
  cases command with
  | output | flush => cases hs
  | dropStash => exact absurd rfl hd
  | startPicture layer info => exact d.quiet_startPicture layer info
  | finishPicture => exact d.quiet_finishPicture
  | clear => exact d.quiet_clear
  | _ => exact (d.steady_run trivial).toQuiet

/-- A command without an output pass leaves the queue alone. -/
theorem queue_run_of_silent {command : Command} (hs : command.outputs = false) (d : Decoder) :
    (d.run command).2.queue = d.queue := by
  by_cases hd : command = .dropStash
  · subst hd
    exact Shared.queue_dropStash d.toShared
  · exact (quiet_run_of_silent hs hd d).queue

theorem queued_command {i : Nat} {d : Decoder} (hd : s.decoder? i = some d)
    (h : Queued log s.shared.queue) (command : Command) :
    Queued (log ++ s.moments (.run i command)) (d.run command).2.queue := by
  rw [← (decoder?_eq hd).2] at h
  have quiet : ∀ {d' : Decoder}, d'.queue = d.queue → Queued log d'.queue := by
    intro d' he
    rwa [he]
  refine command_induction (P := fun log d => Queued log d.queue) hd h ?_ ?_ ?_ ?_
  · rintro log d pass ref slot - ⟨gone, hsent⟩ -
    have hp := Moment.pictures_next ⟨pass, d, ref, slot⟩
    refine ⟨gone, ?_⟩
    rw [sentBy_concat, hsent, List.append_assoc, ← hp]
    rfl
  · exact fun _ => quiet d.quiet_dropCurrent.queue
  · rintro - log d h
    have hqueue : d.clear.toShared.dropStash.queue = d.queue :=
      (Shared.queue_dropStash _).trans d.quiet_clear.queue
    dsimp only
    rwa [hqueue]
  · exact fun hs => quiet (queue_run_of_silent hs d)

/-- Whatever happens between the output passes, pictures can only leave the queue. -/
theorem pictures_step_of_silent {e : Event} (hs : e.outputs = false) :
    ∃ gone, s.shared.queue.pictures = gone ++ (s.step e).2.shared.queue.pictures := by
  have same : ∀ {queue : Queue}, queue = s.shared.queue →
      ∃ gone, s.shared.queue.pictures = gone ++ queue.pictures := by
    rintro queue rfl
    exact ⟨[], rfl⟩
  cases e with
  | run i command =>
    dsimp only [step]
    cases hd : s.decoder? i with
    | none => exact same rfl
    | some d =>
      exact same ((queue_run_of_silent hs d).trans (congrArg Shared.queue (decoder?_eq hd).2))
  | fork i =>
    dsimp only [step]
    cases s.context? i with
    | none => exact same rfl
    | some context => exact same rfl
  | close i =>
    dsimp only [step]
    cases s.context? i with
    | none => exact same rfl
    | some context =>
      dsimp only [close]
      split
      · exact ⟨s.shared.queue.pictures, (List.append_nil _).symm⟩
      · exact same rfl
  | work i slot work =>
    dsimp only [step]
    cases (s.decoder? i).bind (·.frameAt? slot) with
    | none => exact same rfl
    | some frame => exact same rfl
  | take i all keep =>
    dsimp only [step]
    cases s.context? i with
    | none => exact same rfl
    | some context =>
      dsimp only
      split
      · exact ⟨_, pictures_dequeue s all⟩
      · exact ⟨_, pictures_dequeue s all⟩
  | letGo i =>
    dsimp only [step]
    cases s.kept[i]?.join with
    | none => exact same rfl
    | some picture => exact same rfl

theorem queued_step (h : Queued log s.shared.queue) (e : Event) :
    Queued (log ++ s.moments e) (s.step e).2.shared.queue := by
  cases hs : e.outputs with
  | false =>
    obtain ⟨gone, hq⟩ := pictures_step_of_silent hs
    rw [moments_of_silent hs, List.append_nil]
    exact h.of_suffix hq
  | true =>
    cases e with
    | run i command =>
      dsimp only [step]
      cases hd : s.decoder? i with
      | none =>
        rw [moments_of_absent hd, List.append_nil]
        exact h
      | some d => exact queued_command hd h command
    | _ => cases hs

/-- **Pictures leave the queue in the order in which they were sent**: what is in the queue is the
end of what was sent, in every state of every run. -/
theorem queue_run (run : Run config provider log s) : Queued log s.shared.queue := by
  induction run with
  | start => exact ⟨[], rfl⟩
  | step run e ih => exact queued_step ih e

/-! ## The frames of a run -/

end Session

end PictureBuffer
