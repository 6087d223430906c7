import PictureBuffer.Proofs.Partners

/-!
# Fields that name the previous one as their partner

Four codes say which field of its pair a field is: two name the next field as the partner
(`PicStruct.opensPair`), two the previous one (`PicStruct.closesPair`). A field of the former is
stashed whatever its order count is (`Scheduler.startsPair_of_opensPair`).

One of the latter should never be: it is a second field. But `Scheduler.startsPair` only asks for
the codes of the former, and by all others it goes by the order count, also if they name a partner
(`Scheduler.startsPair_iff`). So a second field with an even order count is taken for the first one
of a pair (`Shared.TakesForFirst`) if no field waits, or an earlier one of the same code, or one of
another layout, which is dropped first. Otherwise it is settled as it should be: woven as the second
field, or dropped as an orphan (`Shared.settlesSecond`).

Over a run, the stash is free of such fields exactly if no step of an output pass takes one for a
first field (`settlesSecond_and_holdsSecond_iff`). This can happen with the first picture
(`not_always_settled_second`).
-/

namespace PictureBuffer

namespace PicStruct

/-- The field says that it is the first of its pair. -/
def opensPair : PicStruct → Bool
  | topPairedNextBottom | bottomPairedNextTop => true
  | _ => false

/-- The field says that it is the second of its pair. -/
def closesPair : PicStruct → Bool
  | topPairedPrevBottom | bottomPairedPrevTop => true
  | _ => false

/-- Of all structures that settle which field comes first, those of a single field open a pair if
this field is the one. -/
theorem opensPair_eq (p : PicStruct) :
    p.opensPair = (p.topFirst && p.isTopField || p.bottomFirst && p.isBottomField) := by
  cases p <;> rfl

theorem opensPair_of_closesPair {p : PicStruct} (h : p.closesPair = true) :
    p.opensPair = false := by
  cases p <;> first | rfl | cases h

theorem isField_of_closesPair {p : PicStruct} (h : p.closesPair = true) : p.isField = true := by
  cases p <;> first | rfl | cases h

end PicStruct

/-! ## Which field is the first -/

namespace Scheduler

variable {s : Scheduler} {poc : Int} {p : PicStruct}

theorem startsPair_of_opensPair (h : p.opensPair = true) (s : Scheduler) (poc : Int) :
    s.startsPair poc p = true := by
  rw [PicStruct.opensPair_eq] at h
  rw [startsPair, h, Bool.true_or]

/-- **A field that does not say that it is the first** is taken for it by its order count and the
field that waits, if any. -/
theorem startsPair_iff (h : p.opensPair = false) : s.startsPair poc p = true ↔
    poc % 2 = 0 ∧ ∀ first, s.stash = some first → first.picStruct = p ∧ first.poc < poc := by
  rw [PicStruct.opensPair_eq] at h
  rw [startsPair, h, Bool.false_or]
  cases s.stash with
  | none => simp
  | some first =>
    simp only [Bool.and_eq_true, beq_iff_eq, decide_eq_true_eq, Option.some.injEq, forall_eq',
      and_assoc, and_left_comm]

/-- The stash holds a field that says that it is the second of its pair. -/
def HoldsSecond (s : Scheduler) : Prop :=
  ∃ field, s.stash = some field ∧ field.picStruct.closesPair = true

end Scheduler

namespace Shared

variable {sh : Shared} {victim : Victim} {field : Field}

/-! ## Pairing, the second attempt included -/

/-- Stashes a field, or pairs it with the stash. A field for whose sake the stash was dropped is
tried again. -/
def pairAgain (sh : Shared) (victim : Victim) : Except Fault Pairing × Shared :=
  match sh.pair victim with
  | (.ok .again, sh) => sh.pair victim
  | settled => settled

/-- A second field is taken for the first of a pair: it has an even order count, and no field waits,
an earlier one of the same code, or one of another layout. -/
def TakesForFirst (sh : Shared) (victim : Victim) : Prop :=
  victim.poc % 2 = 0 ∧ ∀ first, sh.scheduler.stash = some first →
    (first.picStruct = victim.picStruct ∧ first.poc < victim.poc) ∨
      (sh.store.frame first.frame).layout ≠ (sh.store.frame victim.frame).layout

/-- A second field was settled: it was woven with the field that waited, or dropped as an orphan
because there was none that fits, unless there was no frame to weave into. -/
structure Settles (sh : Shared) (victim : Victim) (result : Except Fault Pairing) (after : Shared) :
    Prop where
  stash : after.scheduler.stash = none
  alone : sh.scheduler.stash = none → result = .ok .dropped
  fits : ∀ first, sh.scheduler.stash = some first →
    (sh.store.frame first.frame).layout = (sh.store.frame victim.frame).layout →
    (∃ woven, result = .ok (.paired (wovenPicture victim.layer woven first victim.field))) ∨
      result = .error .outOfMemory
  unfit : ∀ first, sh.scheduler.stash = some first →
    (sh.store.frame first.frame).layout ≠ (sh.store.frame victim.frame).layout →
    result = .ok .dropped
  orphans : result = .ok .dropped →
    after.scheduler.stats.orphans = sh.scheduler.stats.orphans + 1

/-- The stash after a first field was stashed. -/
theorem pair_of_startsPair (h : sh.scheduler.startsPair victim.poc victim.picStruct = true) :
    sh.pair victim = (.ok .stashed, sh.putStash victim.field) := by
  rw [pair, if_pos h]

theorem orphans_dropStash (h : sh.scheduler.stash = some field) :
    sh.dropStash.scheduler.stats.orphans = sh.scheduler.stats.orphans + 1 := by
  rw [dropStash, h]
  rfl

/-- Completing a pair yields the woven picture, or there is no frame to weave into. -/
theorem fst_complete (sh : Shared) (layer : Nat) (first second : Field) :
    (∃ woven, (sh.complete layer first second).1 =
      .ok (.paired (wovenPicture layer woven first second))) ∨
    (sh.complete layer first second).1 = .error .outOfMemory := by
  obtain ⟨sh', -, he⟩ | ⟨woven, sh', -, he⟩ := sh.complete_cases layer first second
  · exact Or.inr (congrArg Prod.fst he)
  · exact Or.inl ⟨woven, congrArg Prod.fst he⟩

/-- There is no second attempt after a pair was completed. -/
theorem pairAgain_of_complete {first : Field}
    (h : sh.pair victim = sh.takeStash.complete victim.layer first victim.field) :
    sh.pairAgain victim = sh.takeStash.complete victim.layer first victim.field := by
  have hne := fst_complete_ne_again sh.takeStash victim.layer first victim.field
  rw [pairAgain, h]
  split
  · rename_i he
    rw [he] at hne
    exact absurd rfl hne
  · rfl

/-- A second field that is taken for a first one ends up in the stash. -/
theorem pairAgain_of_takesForFirst (hs : victim.picStruct.closesPair = true)
    (h : sh.TakesForFirst victim) : (sh.pairAgain victim).1 = .ok .stashed ∧
      (sh.pairAgain victim).2.scheduler.stash = some victim.field := by
  have hopens := PicStruct.opensPair_of_closesPair hs
  obtain ⟨heven, hwaiting⟩ := h
  obtain ⟨-, he⟩ | ⟨hn, hstash, -⟩ | ⟨first, hn, hstash, hl, -⟩ | ⟨first, -, -, -, he⟩ :=
    pair_cases sh victim
  · rw [pairAgain, he]
    exact ⟨rfl, rfl⟩
  · rw [← Bool.not_eq_true, Scheduler.startsPair_iff hopens, hstash] at hn
    exact absurd ⟨heven, fun first hf => by cases hf⟩ hn
  · rw [← Bool.not_eq_true, Scheduler.startsPair_iff hopens, hstash] at hn
    refine absurd ⟨heven, ?_⟩ hn
    rintro _ ⟨rfl⟩
    exact (hwaiting first hstash).resolve_right fun hne => hne hl
  · -- The second attempt finds no field waiting.
    have hagain : sh.dropStash.scheduler.startsPair victim.poc victim.picStruct = true := by
      rw [Scheduler.startsPair_iff hopens, stash_dropStash]
      exact ⟨heven, fun first hf => by cases hf⟩
    rw [if_pos heven] at he
    rw [pairAgain, he]
    dsimp only
    rw [pair_of_startsPair hagain]
    exact ⟨rfl, rfl⟩

/-- Any other second field is settled. -/
theorem settles_of_not_takesForFirst (hs : victim.picStruct.closesPair = true)
    (h : ¬ sh.TakesForFirst victim) :
    sh.Settles victim (sh.pairAgain victim).1 (sh.pairAgain victim).2 := by
  have hopens := PicStruct.opensPair_of_closesPair hs
  obtain ⟨hy, -⟩ | ⟨-, hstash, he⟩ | ⟨first, -, hstash, hl, he⟩ | ⟨first, -, hstash, hl, he⟩ :=
    pair_cases sh victim
  · obtain ⟨heven, hwaiting⟩ := (Scheduler.startsPair_iff hopens).mp hy
    exact absurd ⟨heven, fun first hf => Or.inl (hwaiting first hf)⟩ h
  · rw [pairAgain, he]
    refine ⟨hstash, fun _ => rfl, ?_, fun _ _ _ => rfl, fun _ => rfl⟩
    rw [hstash]
    exact fun _ hf => by cases hf
  · have hresult := fst_complete sh.takeStash victim.layer first victim.field
    rw [pairAgain_of_complete he]
    constructor
    case stash => exact stash_complete _ _ _ _
    case alone => exact fun hn => by cases hstash.symm.trans hn
    case fits =>
      rintro _ hf -
      obtain rfl := Option.some.inj (hstash.symm.trans hf)
      exact hresult
    case unfit =>
      intro _ hf hne
      obtain rfl := Option.some.inj (hstash.symm.trans hf)
      exact absurd hl hne
    case orphans =>
      rintro hd
      obtain ⟨woven, hp⟩ | hp := hresult
      · cases hp.symm.trans hd
      · cases hp.symm.trans hd
  · have hodd : ¬ victim.poc % 2 = 0 := by
      refine fun heven => h ⟨heven, fun _ hf => Or.inr ?_⟩
      obtain rfl := Option.some.inj (hstash.symm.trans hf)
      exact hl
    rw [if_neg hodd] at he
    rw [pairAgain, he]
    refine ⟨stash_dropStash sh, fun _ => rfl, fun _ hf hfit => ?_, fun _ _ _ => rfl,
      fun _ => orphans_dropStash hstash⟩
    obtain rfl := Option.some.inj (hstash.symm.trans hf)
    exact absurd hfit hl

/-- **What pairing makes of a second field**, for every state: it keeps the field as a first one if
it takes it for that, and settles it otherwise. -/
structure SettlesSecond (sh : Shared) (victim : Victim) : Prop where
  kept : sh.TakesForFirst victim → (sh.pairAgain victim).1 = .ok .stashed ∧
    (sh.pairAgain victim).2.scheduler.stash = some victim.field
  settled : ¬ sh.TakesForFirst victim →
    sh.Settles victim (sh.pairAgain victim).1 (sh.pairAgain victim).2

theorem settlesSecond (hs : victim.picStruct.closesPair = true) (sh : Shared) :
    sh.SettlesSecond victim :=
  ⟨pairAgain_of_takesForFirst hs, settles_of_not_takesForFirst hs⟩

end Shared

/-! ## Runs -/

namespace Moment

variable {m : Moment}

/-- The step hands out a second field that is taken for a first one: it has an even order count, and
if a field waits, it is an earlier one of the same code. -/
def TakesForFirst (m : Moment) : Prop :=
  ∃ victim, m.handed? = some victim ∧ victim.picStruct.closesPair = true ∧ victim.poc % 2 = 0 ∧
    ∀ first, m.decoder.scheduler.stash = some first →
      first.picStruct = victim.picStruct ∧ first.poc < victim.poc

/-- **The stash holds a second field after a step** if the step takes one for a first field, or if
it hands nothing out and the stash held one before. -/
theorem holdsSecond_next_iff : m.next.scheduler.HoldsSecond ↔
    m.TakesForFirst ∨ m.handed? = none ∧ m.decoder.scheduler.HoldsSecond := by
  unfold TakesForFirst Scheduler.HoldsSecond
  cases h : m.handed? with
  | none =>
    rw [stash_of_unhanded h]
    simp
  | some victim =>
    rw [scheduler_next h]
    simp only [Shared.stash_emit_iff, Option.some.injEq, exists_eq_left', reduceCtorEq, false_and,
      or_false]
    constructor
    · rintro ⟨field, ⟨rfl, -, hstarts⟩, hs⟩
      exact ⟨hs, (Scheduler.startsPair_iff (PicStruct.opensPair_of_closesPair hs)).mp hstarts⟩
    · rintro ⟨hs, hfirst⟩
      refine ⟨victim.field, ⟨rfl, PicStruct.isField_of_closesPair hs, ?_⟩, hs⟩
      exact (Scheduler.startsPair_iff (PicStruct.opensPair_of_closesPair hs)).mpr hfirst

end Moment

namespace Session

variable {config : Config} {provider : Provider} {log : List Moment} {s : Session}

/-- If no step takes a second field for a first one, the stash never holds one. -/
theorem not_holdsSecond (run : Run config provider log s)
    (h : ∀ m ∈ log, ¬ m.TakesForFirst) :
    (∀ m ∈ log, ¬ m.next.scheduler.HoldsSecond) ∧ ¬ s.shared.scheduler.HoldsSecond := by
  refine stash_run (P := fun log stash => (∀ m ∈ log, ¬ m.TakesForFirst) →
    (∀ m ∈ log, ¬ m.next.scheduler.HoldsSecond) ∧
      ¬ ∃ field, stash = some field ∧ field.picStruct.closesPair = true) ?drop ?next ?start run h
  case drop =>
    intro log stash ih h
    exact ⟨(ih h).1, fun ⟨_, hf, _⟩ => (by cases hf)⟩
  case next =>
    intro log m ih h
    obtain ⟨hall, hstash⟩ := ih fun m' hm' => h m' (List.mem_append_left _ hm')
    have hnext : ¬ m.next.scheduler.HoldsSecond := by
      rw [Moment.holdsSecond_next_iff, not_or]
      exact ⟨h m (List.mem_append_right log List.mem_cons_self), fun hn => hstash hn.2⟩
    refine ⟨fun m' hm' => ?_, hnext⟩
    rcases List.mem_append.mp hm' with hm' | hm'
    · exact hall m' hm'
    · rwa [List.mem_singleton.mp hm']
  case start => exact fun _ => ⟨fun _ hm => (by cases hm), fun ⟨_, hf, _⟩ => (by cases hf)⟩

/-- **When second fields are settled.** In every state, pairing stashes a field that says that it is
the first, and keeps one that says that it is the second if it takes it for a first one; any other
second field is settled. Over a run, the stash is free of second fields, after every step of an
output pass and at the end, **if and only if** no step takes a second field for a first one. -/
theorem settlesSecond_and_holdsSecond_iff (run : Run config provider log s) :
    (∀ (sh : Shared) (victim : Victim), victim.picStruct.opensPair = true →
      (sh.pair victim).1 = .ok .stashed) ∧
    (∀ (sh : Shared) (victim : Victim), victim.picStruct.closesPair = true →
      sh.SettlesSecond victim) ∧
    ((∀ m ∈ log, ¬ m.next.scheduler.HoldsSecond) ∧ ¬ s.shared.scheduler.HoldsSecond ↔
      ∀ m ∈ log, ¬ m.TakesForFirst) := by
  refine ⟨fun sh victim ho => ?_, fun sh victim hs => Shared.settlesSecond hs sh,
    fun h m hm htakes => ?_, not_holdsSecond run⟩
  · rw [Shared.pair_of_startsPair (Scheduler.startsPair_of_opensPair ho _ _)]
  · exact h.1 m hm (Moment.holdsSecond_next_iff.mpr (Or.inl htakes))

/-- A field of order count `10` is decoded and output. -/
def loneField (picStruct : PicStruct) : List Event :=
  [.run 0 (.setSps 0 { width := 2, height := 2 }),
    .run 0 (.setSei { picStruct }),
    .run 0 (.startPicture 0 { poc := 10, output := true, numSlices := 1, pps := {} }),
    .run 0 .finishPicture, drainBase]

theorem holdsSecond_loneField :
    ((start {} {}).afterAll (loneField .topPairedPrevBottom)).shared.scheduler.HoldsSecond := by
  have hstash : ((start {} {}).afterAll
      (loneField .topPairedPrevBottom)).shared.scheduler.stash.map (·.picStruct.closesPair) =
        some true := by decide +kernel
  obtain ⟨field, hs, hsecond⟩ := Option.map_eq_some_iff.mp hstash
  exact ⟨field, hs, hsecond⟩

/-- A step takes the first picture of the session for the first field of a pair, although it says
that it is the second. -/
theorem loneField_takesForFirst : ∃ log s, Run {} {} log s ∧ s.shared.scheduler.HoldsSecond ∧
    ∃ m ∈ log, m.TakesForFirst := by
  have run := run_all (loneField .topPairedPrevBottom) (@Run.start {} {})
  refine ⟨_, _, run, holdsSecond_loneField, Classical.byContradiction fun hno => ?_⟩
  have hnone := (settlesSecond_and_holdsSecond_iff run).2.2.mpr fun m hm ht => hno ⟨m, hm, ht⟩
  exact hnone.2 holdsSecond_loneField

/-- **A second field is stashed as a first one**, so it is not true of every run that the stash
never holds a field that names the previous one as its partner. -/
theorem not_always_settled_second : ¬ ∀ (config : Config) (provider : Provider)
    (log : List Moment) (s : Session), Run config provider log s →
    ¬ s.shared.scheduler.HoldsSecond := by
  intro h
  exact h {} {} _ _ (run_all (loneField .topPairedPrevBottom) Run.start) holdsSecond_loneField

end Session

end PictureBuffer
