import PictureBuffer.Proofs.Budget
import PictureBuffer.Proofs.FailedPasses

/-!
# When there is no frame to weave into

A pair of fields is woven into the scratch frame if nobody else holds that one and its layout fits,
and else into a new one. So an output pass runs out of memory if and only if it comes to a pair for
which the scratch frame cannot be used while the budget of the pool is exhausted
(`emit_outOfMemory_iff`).

Who exhausts it? The frames outstanding are those that are held elsewhere than as the scratch frame
(`Shared.elsewhere`), and the scratch frame. If the latter is held by nobody else but does not fit,
it is of no use any more, but still counts when the provider is asked: it is let go only afterwards
(`Shared.weavingFrame`). One such frame can therefore take the last place in the pool, and the pass
fails although one frame less than the budget is held elsewhere (`not_always_taken_elsewhere`). In
all other cases the whole budget is (`runs_out_iff`).
-/

namespace PictureBuffer

namespace Shared

variable {sh : Shared} {victim : Victim} {others : List FrameId} {layout : Layout}

/-! ## What weaving fails for -/

/-- There is nothing to weave into if and only if the scratch frame cannot be used and the provider
has no frame to give. -/
theorem weavingFrame_eq_none_iff : (sh.weavingFrame layout).1 = none ↔
    (∀ scratch, ¬sh.Reusable layout scratch) ∧ ¬sh.store.Supplies := by
  have hacquire : (sh.store.acquire layout.format layout.width layout.height).1 = none ↔
      ¬sh.store.Supplies := by
    rw [← Store.isSome_acquire_iff sh.store layout.format layout.width layout.height]
    simp
  by_cases hr : ∃ scratch, sh.Reusable layout scratch
  · obtain ⟨scratch, hr⟩ := hr
    rw [weavingFrame_of_reusable hr]
    exact iff_of_false (by simp) fun h => h.1 scratch hr
  · rw [not_exists] at hr
    rw [weavingFrame_of_not_reusable hr]
    exact hacquire.trans (iff_and_self.mpr fun _ => hr)

/-- **The victim completes the pair** of the stash `first`. -/
structure Completes (sh : Shared) (victim : Victim) (first : Field) : Prop where
  field : victim.picStruct.isField = true
  second : sh.scheduler.startsPair victim.poc victim.picStruct = false
  stash : sh.scheduler.stash = some first
  layout : (sh.store.frame first.frame).layout = (sh.store.frame victim.frame).layout

/-- Both fields of a pair ask for the same woven layout. -/
theorem Completes.wovenLayout {first : Field} (h : sh.Completes victim first) :
    (sh.store.frame (evenLines first victim.field).frame).wovenLayout =
      (sh.store.frame victim.frame).wovenLayout := by
  unfold evenLines
  split
  · rfl
  · rw [Frame.wovenLayout, h.layout, Frame.wovenLayout]

theorem complete_outOfMemory_iff (sh : Shared) (layer : Nat) (first second : Field) :
    (sh.complete layer first second).1 = .error .outOfMemory ↔
      (sh.weavingFrame (sh.store.frame (evenLines first second).frame).wovenLayout).1 = none := by
  obtain ⟨sh', hw, he⟩ | ⟨woven, sh', hw, he⟩ := complete_cases sh layer first second
  · rw [he]
    obtain ⟨_, hn, -⟩ | ⟨_, _, -, hc⟩ :=
      weave_cases sh (evenLines first second).frame (oddLines first second).frame
    · rw [hn]
      exact iff_of_true rfl rfl
    · cases hw.symm.trans hc
  · rw [he]
    obtain ⟨_, -, hc⟩ | ⟨_, _, hs, -⟩ :=
      weave_cases sh (evenLines first second).frame (oddLines first second).frame
    · cases hw.symm.trans hc
    · rw [hs]
      exact iff_of_false (by simp) (by simp)

theorem pair_outOfMemory_iff : (sh.pair victim).1 = .error .outOfMemory ↔
    ∃ first, sh.scheduler.startsPair victim.poc victim.picStruct = false ∧
      sh.scheduler.stash = some first ∧
      (sh.store.frame first.frame).layout = (sh.store.frame victim.frame).layout ∧
      (sh.takeStash.weavingFrame
        (sh.store.frame (evenLines first victim.field).frame).wovenLayout).1 = none := by
  obtain ⟨hy, he⟩ | ⟨-, hs, he⟩ | ⟨first, hn, hs, hl, he⟩ | ⟨first, -, hs, hl, he⟩ :=
    pair_cases sh victim
  · rw [he, hy]
    simp
  · rw [he, hs]
    simp
  · rw [he, complete_outOfMemory_iff]
    constructor
    · exact fun hw => ⟨first, hn, hs, hl, hw⟩
    · rintro ⟨other, -, hs', -, hw⟩
      obtain rfl := Option.some.inj (hs.symm.trans hs')
      exact hw
  · rw [he]
    refine iff_of_false (by simp) ?_
    rintro ⟨other, -, hs', hl', -⟩
    obtain rfl := Option.some.inj (hs.symm.trans hs')
    exact hl hl'

/-- **An emission runs out of memory** if and only if its victim completes a pair and there is
nothing to weave into. -/
theorem emit_outOfMemory_iff {dts : Option Int} : (sh.emit victim dts).1 = .error .outOfMemory ↔
    ∃ first, sh.Completes victim first ∧
      (∀ scratch, ¬sh.Reusable (sh.store.frame victim.frame).wovenLayout scratch) ∧
      ¬sh.store.Supplies := by
  have hsend : ∀ (sh' : Shared) (picture : Picture),
      (sh'.send picture).1 ≠ .error .outOfMemory := by
    intro sh' picture
    obtain ⟨-, he⟩ | ⟨-, he⟩ := send_cases sh' picture <;> rw [he] <;> simp
  have hpair : (sh.emit victim dts).1 = .error .outOfMemory ↔
      victim.picStruct.isField = true ∧
        ((sh.pop victim.poc).pair victim).1 = .error .outOfMemory := by
    obtain ⟨hf, he⟩ | ⟨picture, sh', -, hp, he⟩ | ⟨result, sh', hf, hp, -, he⟩ :=
      emit_cases sh victim dts
    · rw [he]
      refine iff_of_false (hsend _ _) fun h => ?_
      cases hf.symm.trans h.1
    · rw [he, hp]
      exact iff_of_false (hsend _ _) (by simp)
    · rw [he, hp]
      cases result <;> simp [Except.map, hf]
  rw [hpair, pair_outOfMemory_iff]
  constructor
  · rintro ⟨hf, first, hn, hs, hl, hw⟩
    have hc : sh.Completes victim first := ⟨hf, hn, hs, hl⟩
    rw [show ((sh.pop victim.poc).store.frame (evenLines first victim.field).frame).wovenLayout =
      (sh.store.frame victim.frame).wovenLayout from hc.wovenLayout] at hw
    have hnone := weavingFrame_eq_none_iff.mp hw
    exact ⟨first, hc, hnone⟩
  · rintro ⟨first, hc, hnone⟩
    refine ⟨hc.field, first, hc.second, hc.stash, hc.layout, ?_⟩
    rw [show ((sh.pop victim.poc).store.frame (evenLines first victim.field).frame).wovenLayout =
      (sh.store.frame victim.frame).wovenLayout from hc.wovenLayout]
    exact weavingFrame_eq_none_iff.mpr hnone

/-! ## Who holds the frames of the pool -/

/-- The frames that are held otherwise than as the scratch frame: by the queue, the stash, and
`others`. -/
def elsewhere (sh : Shared) (others : List FrameId) : Finset FrameId :=
  (sh.queue.pictures.map (·.frame) ++ (sh.scheduler.stash.map (·.frame)).toList ++ others).toFinset

/-- **The scratch frame is of no use**: nobody else holds it, but it does not have the layout. -/
structure Idle (sh : Shared) (others : List FrameId) (layout : Layout) (id : FrameId) : Prop where
  scratch : sh.scheduler.scratch = some id
  alone : id ∉ sh.elsewhere others
  unfit : (sh.store.frame id).layout ≠ layout

section Pool

variable {provider : Provider} {budget : Nat} {id : FrameId} (h : sh.Accounted others)

include h

theorem handles_eq_elsewhere (x : FrameId) : sh.store.handles x =
    (sh.queue.pictures.map (·.frame) ++ (sh.scheduler.stash.map (·.frame)).toList ++ others).count x
      + sh.scheduler.scratch.toList.count x := by
  have hx := h x
  simp only [frames, List.count_append] at hx ⊢
  omega

/-- The scratch frame can be used again if nobody else holds it and it fits. -/
theorem reusable_iff : sh.Reusable layout id ↔ sh.scheduler.scratch = some id ∧
    id ∉ sh.elsewhere others ∧ (sh.store.frame id).layout = layout := by
  refine and_congr_right fun hs => and_congr_left fun _ => ?_
  have hcount := handles_eq_elsewhere h id
  rw [hs, Option.toList_some, List.count_singleton_self] at hcount
  rw [elsewhere, List.mem_toFinset, ← List.count_eq_zero, Store.isUnique, beq_iff_eq, hcount]
  omega

/-- The frames in use are those that are held elsewhere, and the scratch frame. -/
theorem pooledIds_eq_elsewhere (hb : sh.store.Balanced provider) (hp : sh.store.Pooled provider) :
    sh.store.pooledIds = sh.elsewhere others ∪ sh.scheduler.scratch.toList.toFinset := by
  ext x
  have hcount := handles_eq_elsewhere h x
  rw [hp.mem_pooledIds, Finset.mem_union, elsewhere, List.mem_toFinset, List.mem_toFinset,
    ← List.count_pos_iff, ← List.count_pos_iff]
  constructor
  · rintro ⟨cell, hc⟩
    have hpos := hb.held x cell hc
    rw [Store.handles, hc, Option.elim_some] at hcount
    omega
  · intro hpos
    exact Store.cell?_of_handles_pos (by omega)

/-- **Nothing to weave into**: the budget is taken elsewhere, or all of it but one place, which a
scratch frame takes that is of no use. -/
theorem nothing_to_weave_into_iff (hb : sh.store.Balanced provider) (hp : sh.store.Pooled provider)
    (hsupply : ∀ n, provider.supply n = .pooled) (hbudget : provider.budget = some budget) :
    ((∀ scratch, ¬sh.Reusable layout scratch) ∧ ¬sh.store.Supplies) ↔
      (sh.elsewhere others).card = budget ∨
        (sh.elsewhere others).card + 1 = budget ∧ ∃ id, sh.Idle others layout id := by
  have hle := hb.within budget hbudget
  have hcard := hb.outstanding
  rw [pooledIds_eq_elsewhere h hb hp] at hcard
  have hsupplies : sh.store.Supplies ↔ sh.store.outstanding < budget := by
    unfold Store.Supplies
    rw [hb.source, hsupply, hbudget]
    simp
  rw [hsupplies]
  cases hs : sh.scheduler.scratch with
  | none =>
    rw [hs, Option.toList_none, List.toFinset_nil, Finset.union_empty] at hcard
    have hunusable : ∀ id, ¬sh.Reusable layout id := fun id hr => by cases hs.symm.trans hr.1
    have hidle : ¬∃ id, sh.Idle others layout id := by
      rintro ⟨id, hi⟩
      cases hs.symm.trans hi.scratch
    simp only [hunusable, hidle, not_false_eq_true, implies_true, true_and, and_false, or_false]
    omega
  | some id =>
    rw [hs, Option.toList_some, List.toFinset_cons, List.toFinset_nil, Finset.union_insert,
      Finset.union_empty] at hcard
    by_cases hin : id ∈ sh.elsewhere others
    · rw [Finset.insert_eq_of_mem hin] at hcard
      have hunusable : ∀ x, ¬sh.Reusable layout x := by
        intro x hr
        obtain ⟨hx, hnot, -⟩ := (reusable_iff h).mp hr
        obtain rfl := Option.some.inj (hs.symm.trans hx)
        exact hnot hin
      have hidle : ¬∃ x, sh.Idle others layout x := by
        rintro ⟨x, hi⟩
        obtain rfl := Option.some.inj (hs.symm.trans hi.scratch)
        exact hi.alone hin
      simp only [hunusable, hidle, not_false_eq_true, implies_true, true_and, and_false, or_false]
      omega
    · rw [Finset.card_insert_of_notMem hin] at hcard
      have hunusable : (∀ x, ¬sh.Reusable layout x) ↔ ∃ x, sh.Idle others layout x := by
        constructor
        · exact fun hr => ⟨id, hs, hin, fun hl => hr id ((reusable_iff h).mpr ⟨hs, hin, hl⟩)⟩
        · rintro ⟨x, hi⟩ y hr
          obtain rfl := Option.some.inj (hi.scratch.symm.trans hr.1)
          exact hi.unfit hr.2.2
      rw [hunusable]
      constructor
      · exact fun ⟨hi, hfull⟩ => .inr ⟨by omega, hi⟩
      · rintro (hfull | ⟨hfull, hi⟩)
        · omega
        · exact ⟨hi, by omega⟩

end Pool

end Shared

/-! ## Output passes -/

namespace Moment

/-- A step runs out of memory if and only if the emission of its victim does. -/
theorem bump_outOfMemory_iff (m : Moment) :
    (m.decoder.bump m.pass m.ref m.slot).1 = .error .outOfMemory ↔
      ∃ victim, m.handed? = some victim ∧
        (m.decoder.toShared.emit victim m.decoder.dts).1 = .error .outOfMemory := by
  cases hh : m.handed? with
  | none =>
    refine iff_of_false (fun he => ?_) (by simp)
    obtain ⟨-, -, hempty⟩ | ⟨orphans, hn⟩ := bump_of_unhanded hh
    · have hframe := hempty _ he
      rw [Decoder.bump, hframe] at he
      cases he
    · rw [hn] at he
      cases he
  | some victim =>
    rcases he : m.decoder.toShared.emit victim m.decoder.dts with ⟨result, shared⟩
    rw [bump_of_handed hh he]
    cases result <;> simp [Except.map, he]

/-- The frames that are held otherwise than as the scratch frame: by the queue, by the stash, by a
slot of the decoder, or by `others`. -/
def elsewhere (m : Moment) (others : List FrameId) : Finset FrameId :=
  m.decoder.toShared.elsewhere (m.decoder.layers.frames ++ others)

/-- **The step comes to a pair for which there is no frame**, with `budget` frames in the pool. -/
def Starved (m : Moment) (others : List FrameId) (budget : Nat) : Prop :=
  ∃ victim first, m.handed? = some victim ∧ m.decoder.toShared.Completes victim first ∧
    ((m.elsewhere others).card = budget ∨ (m.elsewhere others).card + 1 = budget ∧
      ∃ id, m.decoder.toShared.Idle (m.decoder.layers.frames ++ others)
        (m.decoder.store.frame victim.frame).wovenLayout id)

end Moment

namespace Session

variable {config : Config} {attaches : Nat → Bool} {budget : Nat} {log : List Moment} {s : Session}
  {i : Nat} {d : Decoder}

/-- **An output pass runs out of memory** if and only if it comes to a pair for which there is no
frame: the whole budget is taken by frames that are held elsewhere than as the scratch frame, or all
of it but one place, which a scratch frame of no use takes. -/
theorem runs_out_iff (run : Run config { budget := some budget, attaches } log s)
    (hd : s.decoder? i = some d) (pass : OutputPass) :
    ((d.output pass).1 = .error .outOfMemory ↔
      ∃ m ∈ d.moments pass, m.Starved (s.others i) budget) ∧
    ∀ m ∈ d.moments pass, ((m.decoder.bump m.pass m.ref m.slot).1 = .error .outOfMemory ↔
      m.Starved (s.others i) budget) := by
  obtain ⟨-, hshared⟩ := decoder?_eq hd
  have hpools : ({ budget := some budget, attaches } : Provider).Pools := by
    rintro n planes ⟨⟩
  let P (d' : Decoder) := d'.Accounted (s.others i) ∧
    d'.store.Balanced { budget := some budget, attaches } ∧
    d'.store.Pooled { budget := some budget, attaches }
  have hstart : P d := by
    refine ⟨(accounted_iff hd).mp (accounted_run run), ?_, ?_⟩
    · rw [hshared]
      exact balanced_run run
    · rw [hshared]
      exact pooled_run hpools run
  have hmoments : ∀ m ∈ d.moments pass, P m.decoder := by
    refine (Decoder.output_preserves (fun {d'} {ref} {slot} h hs => ?_) hstart).2
    have hl := d'.leads_bump pass ref slot
    exact ⟨(Decoder.grows_bump pass hs).accounted _ h.1, hl.balanced h.2.1, hl.pooled hpools h.2.2⟩
  have hstep : ∀ m ∈ d.moments pass,
      ((m.decoder.bump m.pass m.ref m.slot).1 = .error .outOfMemory ↔
        m.Starved (s.others i) budget) := by
    intro m hm
    obtain ⟨haccounted, hbalanced, hpooled⟩ := hmoments m hm
    rw [m.bump_outOfMemory_iff]
    simp only [Shared.emit_outOfMemory_iff, Shared.nothing_to_weave_into_iff haccounted hbalanced
      hpooled (fun _ => rfl) rfl]
    constructor
    · rintro ⟨victim, hh, first, hc, hnone⟩
      exact ⟨victim, first, hh, hc, hnone⟩
    · rintro ⟨victim, first, hh, hc, hnone⟩
      exact ⟨victim, hh, first, hc, hnone⟩
  refine ⟨?_, hstep⟩
  rw [Decoder.output_error_iff]
  exact exists_congr fun m => and_congr_right fun hm => hstep m hm

/-- A pair of small fields was woven, and the client has dropped the picture. The scratch frame is
all that is left. Then two larger fields are decoded. -/
def grownFields : List Event :=
  twoFields .topField .bottomField ++
    [drainBase, .take 0 true false, .run 0 (.unmarkAll 0),
      .run 0 (.setSps 0 { width := 2, height := 4 }), .run 0 (.setSei { picStruct := .topField }),
      startBase 12, .run 0 .finishPicture, .run 0 (.setSei { picStruct := .bottomField }),
      startBase 13, .run 0 .finishPicture]

/-- There is room for three frames. -/
def fieldsGrown : Session := (start {} threeFrames).afterAll grownFields

theorem fieldsGrown_fails {d : Decoder} (hd : fieldsGrown.decoder? 0 = some d) :
    (d.output basePass).1 = .error .outOfMemory ∧
      ∀ m ∈ d.moments basePass, (m.elsewhere (fieldsGrown.others 0)).card ≤ 2 := by
  cases hd
  decide +kernel

/-- The larger fields take two of three places, and the scratch frame, which is of no use for them,
takes the third. -/
theorem fieldsGrown_runs_out : ∃ log d, Run {} threeFrames log fieldsGrown ∧
    fieldsGrown.decoder? 0 = some d ∧ (d.output basePass).1 = .error .outOfMemory ∧
    ∃ m ∈ d.moments basePass, m.Starved (fieldsGrown.others 0) 3 ∧
      (m.elsewhere (fieldsGrown.others 0)).card ≤ 2 := by
  have run : Run {} threeFrames _ fieldsGrown := run_all grownFields .start
  obtain ⟨d, hd⟩ : ∃ d, fieldsGrown.decoder? 0 = some d := ⟨_, rfl⟩
  obtain ⟨hfails, hcard⟩ := fieldsGrown_fails hd
  obtain ⟨m, hm, hstarved⟩ := (runs_out_iff run hd basePass).1.mp hfails
  exact ⟨_, d, run, hd, hfails, m, hm, hstarved, hcard m hm⟩

/-- **The budget is not always taken elsewhere** when an output pass runs out of memory. -/
theorem not_always_taken_elsewhere : ¬∀ (config : Config) (attaches : Nat → Bool) (budget : Nat)
    (log : List Moment) (s : Session) (i : Nat) (d : Decoder) (pass : OutputPass) (m : Moment),
    Run config { budget := some budget, attaches } log s → s.decoder? i = some d →
    m ∈ d.moments pass → (m.decoder.bump m.pass m.ref m.slot).1 = .error .outOfMemory →
    (m.elsewhere (s.others i)).card = budget := by
  intro h
  have run : Run {} threeFrames _ fieldsGrown := run_all grownFields .start
  obtain ⟨d, hd⟩ : ∃ d, fieldsGrown.decoder? 0 = some d := ⟨_, rfl⟩
  obtain ⟨hfails, hcard⟩ := fieldsGrown_fails hd
  obtain ⟨m, hm, hbump⟩ := Decoder.output_error_iff.mp hfails
  have hfull := h {} (fun _ => true) 3 _ _ 0 d basePass m run hd hm hbump
  have hleft := hcard m hm
  omega

end Session

end PictureBuffer
