import PictureBuffer.Proofs.Budget
import PictureBuffer.Proofs.Entries

/-!
# A buffer on its own

A buffer that is used without a decoder shares its frames with nobody: each frame of the store is
held by one slot, through one handle. So the frames outstanding are as many as the slots that hold
one, after any operations (`Sole.operate`).

A slot that has flags holds a frame, but not the other way round: `Dpb.mark` can take the last flag
off a picture, and the picture keeps its frame. Such a slot is not free, so no picture can enter it,
and it is not counted as in use; any operation by which pictures leave (`Dpb.strip`,
`Dpb.stripWhere`) lets go of it. This is the only way in which the two come apart, and a sweep
brings them together again.
-/

namespace PictureBuffer

/-! ## Slots -/

namespace Slot

/-- The picture of a slot that has flags has a frame. -/
def Framed (slot : Slot) : Prop := slot.InUse → slot.isFree = false

variable {slot : Slot}

theorem framed_strip (h : slot.Framed) (mask : Flags) : (slot.strip mask).Framed := by
  intro huse
  rw [InUse, flags_strip] at huse
  have hold : slot.InUse := by
    revert huse
    unfold InUse Flags.isEmpty Flags.without
    cases slot.flags.output <;> cases slot.flags.shortTerm <;> cases slot.flags.longTerm <;>
      cases slot.flags.placeholder <;> simp
  rw [isFree, frame_strip, huse, if_neg Bool.false_ne_true]
  exact h hold

theorem framed_mark (h : slot.Framed) (marking : Marking) : (slot.mark marking).Framed := by
  intro huse
  rw [isFree_mark]
  cases hf : slot.isFree with
  | false => rfl
  | true =>
    rw [InUse, flags_mark, if_pos hf] at huse
    exact hf.symm.trans (h huse)

/-- A sweep leaves a frame to a picture if and only if it has flags. -/
theorem isFree_strip_empty (h : slot.Framed) :
    (slot.strip .empty).isFree = (slot.strip .empty).flags.isEmpty := by
  cases hu : (slot.strip .empty).flags.isEmpty with
  | false => exact framed_strip h .empty hu
  | true =>
    rw [flags_strip] at hu
    rw [isFree, frame_strip, if_pos hu]
    rfl

end Slot

namespace Dpb

variable {provider : Provider} {dpb dpb' : Dpb} {store store' : Store}

/-! ## The operations -/

/-- What can be done to a buffer. -/
inductive Operation
  | insert (sps : Sps) (new : NewPicture)
  | insertStandIn (sps : Sps) (new : NewPicture) (fill : Bool)
  | mark (index : Nat) (marking : Marking)
  | strip (index : Nat) (mask : Flags)
  | unmarkAll
  | removeStandIns
  | sweep
  | clear

namespace Operation

def apply (dpb : Dpb) (store : Store) : Operation → Dpb × Store
  | insert sps new => (dpb.insert store sps new).2
  | insertStandIn sps new fill => (dpb.insertStandIn store sps new fill).2
  | mark index marking => (dpb.mark index marking, store)
  | strip index mask => dpb.strip store index mask
  | unmarkAll => dpb.unmarkAll store
  | removeStandIns => dpb.removeStandIns store
  | sweep => dpb.sweep store
  | clear => dpb.clear store

end Operation

/-- A buffer and its store after some operations. -/
def operate (state : Dpb × Store) (operations : List Operation) : Dpb × Store :=
  operations.foldl (fun state operation => operation.apply state.1 state.2) state

/-! ## What the operations keep -/

/-- One slot has changed. -/
theorem slots_eq_set {index : Nat} {old new : Slot} (hold : dpb.slot? index = some old)
    (hnew : dpb'.slot? index = some new)
    (hothers : ∀ i, i ≠ index → dpb'.slot? i = dpb.slot? i) :
    dpb'.slots = dpb.slots.set index new := by
  obtain ⟨hlt, -⟩ := List.getElem?_eq_some_iff.mp hold
  refine List.ext_getElem? fun i => ?_
  by_cases hi : i = index
  · subst hi
    rw [List.getElem?_set_self hlt]
    exact hnew
  · rw [List.getElem?_set_ne (Ne.symm hi)]
    exact hothers i hi

/-- **A buffer that shares its frames with nobody**, and holds frames of the pool only. -/
structure Sole (provider : Provider) (dpb : Dpb) (store : Store) : Prop where
  framed : ∀ slot ∈ dpb.slots, slot.Framed
  /-- Every handle is that of a slot. -/
  owned : ∀ x, store.handles x = dpb.frames.count x
  single : ∀ x, store.handles x ≤ 1
  balanced : store.Balanced provider
  pooled : store.Pooled provider

theorem sole_new (provider : Provider) (layer capacity : Nat) :
    Sole provider (.empty layer capacity) { provider } where
  framed slot hslot huse := by
    rw [List.eq_of_mem_replicate hslot] at huse
    cases huse
  owned x := by
    have hnone : (Dpb.empty layer capacity).frames = [] :=
      List.filterMap_eq_nil_iff.mpr fun slot hslot => by rw [List.eq_of_mem_replicate hslot]
    rw [hnone]
    rfl
  single x := Nat.zero_le 1
  balanced := Store.balanced_new provider
  pooled := Store.pooled_new provider

/-- The slots change, and handles with them. -/
theorem Sole.step (h : Sole provider dpb store) (hpools : provider.Pools)
    (hleads : store.Leads store') (hframed : ∀ slot ∈ dpb'.slots, slot.Framed)
    (hexchange : Store.Exchange dpb.frames dpb'.frames store store')
    (hsingle : ∀ x, store'.handles x ≤ 1) : Sole provider dpb' store' where
  framed := hframed
  owned x := by
    have hx := hexchange x (Nat.le_of_eq (h.owned x).symm)
    have hold := h.owned x
    omega
  single := hsingle
  balanced := hleads.balanced h.balanced
  pooled := hleads.pooled hpools h.pooled

/-- Marking gives up no frame, even where it takes the last flag. -/
theorem Sole.mark (h : Sole provider dpb store) (index : Nat) (marking : Marking) :
    Sole provider (dpb.mark index marking) store where
  framed slot hslot := by
    obtain ⟨i, hi⟩ := List.getElem?_of_mem hslot
    rw [Dpb.mark, modify, List.getElem?_modify] at hi
    obtain ⟨old, hold, rfl⟩ := Option.map_eq_some_iff.mp hi
    have hframed := h.framed old (List.mem_of_getElem? hold)
    split
    · exact Slot.framed_mark hframed marking
    · exact hframed
  owned x := by
    rw [(dpb.same_mark index marking).frames_eq]
    exact h.owned x
  single := h.single
  balanced := h.balanced
  pooled := h.pooled

/-- One handle is given up with each picture that leaves. -/
theorem Sole.releaseAll (h : Sole provider dpb store) (hpools : provider.Pools)
    (gone : List FrameId) (hframed : ∀ slot ∈ dpb'.slots, slot.Framed)
    (hexchange : Store.Exchange dpb.frames dpb'.frames store (store.releaseAll gone)) :
    Sole provider dpb' (store.releaseAll gone) := by
  refine h.step hpools (.releaseAll gone .refl) hframed hexchange fun x => ?_
  have hx := h.single x
  rw [Store.handles_releaseAll]
  omega

theorem Sole.strip (h : Sole provider dpb store) (hpools : provider.Pools) (index : Nat)
    (mask : Flags) :
    Sole provider (dpb.strip store index mask).1 (dpb.strip store index mask).2 := by
  refine h.releaseAll hpools _ (fun slot hslot => ?_) (exchange_strip dpb store index mask)
  obtain ⟨i, hi⟩ := List.getElem?_of_mem hslot
  rw [Dpb.strip, modify, List.getElem?_modify] at hi
  obtain ⟨old, hold, rfl⟩ := Option.map_eq_some_iff.mp hi
  have hframed := h.framed old (List.mem_of_getElem? hold)
  split
  · exact Slot.framed_strip hframed mask
  · exact hframed

theorem Sole.stripWhere (h : Sole provider dpb store) (hpools : provider.Pools)
    (p : Slot → Bool) (mask : Flags) :
    Sole provider (dpb.stripWhere store p mask).1 (dpb.stripWhere store p mask).2 := by
  refine h.releaseAll hpools _ (fun slot hslot => ?_) (exchange_stripWhere dpb store p mask)
  obtain ⟨old, hold, rfl⟩ := List.mem_map.mp hslot
  split
  · exact Slot.framed_strip (h.framed old hold) mask
  · exact h.framed old hold

/-- A handle to a new frame comes with each picture that enters, and none with one that does not. -/
theorem Sole.entry {sps : Sps} {new : NewPicture} {progress : Progress}
    {result : Except Fault Nat} (h : Sole provider dpb store) (hpools : provider.Pools)
    (hleads : store.Leads store')
    (hentry : dpb.Entry store sps new progress result dpb' store') : Sole provider dpb' store' := by
  cases result with
  | error fault =>
    obtain ⟨-, rfl, hundone⟩ := hentry.error fault rfl
    have hhandles : ∀ x, store'.handles x = store.handles x := fun x => by
      rw [Store.handles, hundone.cells, Store.handles]
    refine h.step hpools hleads h.framed (Store.exchange_of_eq _ hhandles) fun x => ?_
    rw [hhandles]
    exact h.single x
  | ok index =>
    obtain ⟨⟨⟨old, hold, hfree⟩, -⟩, -, hothers, id, frame, hgained, -, -, -, -, -, hentered⟩ :=
      hentry.entered index rfl
    obtain ⟨entered, hslot, hframe⟩ : ∃ slot, dpb'.slot? index = some slot ∧
      slot.frame = some id := ⟨_, hentered, rfl⟩
    refine h.step hpools hleads (fun slot hm => ?_) (fun x _ => ?_) fun x => ?_
    · obtain ⟨i, hi⟩ := List.getElem?_of_mem hm
      by_cases hindex : i = index
      · subst hindex
        obtain rfl := Option.some.inj (hslot.symm.trans hi)
        intro _
        rw [Slot.isFree, hframe]
        rfl
      · exact h.framed slot (List.mem_of_getElem? ((hothers i hindex).symm.trans hi))
    · have hset := slots_eq_set hold hslot hothers
      have hcount := count_frames_set hframe x hold (Option.isNone_iff_eq_none.mp hfree)
      have hfresh : store.handles id = 0 := by
        rw [Store.handles, hgained.fresh]
        rfl
      rw [hgained.handles, frames, frames, hset, hcount]
      by_cases hx : x = id
      · subst hx
        rw [if_pos rfl, if_pos rfl]
        omega
      · rw [if_neg hx, if_neg (Ne.symm hx)]
        omega
    · have hx := h.single x
      rw [hgained.handles]
      split <;> omega

theorem Sole.apply (h : Sole provider dpb store) (hpools : provider.Pools)
    (operation : Operation) :
    Sole provider (operation.apply dpb store).1 (operation.apply dpb store).2 := by
  cases operation with
  | insert sps new =>
    exact h.entry hpools (leads_insert dpb store sps new) (dpb.entry_insert store sps new)
  | insertStandIn sps new fill =>
    exact h.entry hpools (leads_insertStandIn dpb store sps new fill)
      (dpb.entry_insertStandIn store sps new fill)
  | mark index marking => exact h.mark index marking
  | strip index mask => exact h.strip hpools index mask
  | unmarkAll => exact h.stripWhere hpools _ _
  | removeStandIns => exact h.stripWhere hpools _ _
  | sweep => exact h.stripWhere hpools _ _
  | clear => exact h.stripWhere hpools _ _

/-- **The buffer shares its frames with nobody, whatever is done to it.** -/
theorem Sole.operate (hpools : provider.Pools) (operations : List Operation) :
    ∀ {state : Dpb × Store}, Sole provider state.1 state.2 →
      Sole provider (operate state operations).1 (operate state operations).2 := by
  induction operations with
  | nil => exact fun h => h
  | cons operation operations ih => exact fun h => ih (h.apply hpools operation)

/-! ## What it means for the pool -/

/-- No two slots hold the same frame. -/
theorem Sole.eq_of_frame (h : Sole provider dpb store) {i j : Nat} {a b : Slot} {id : FrameId}
    (hi : dpb.slot? i = some a) (hj : dpb.slot? j = some b) (ha : a.frame = some id)
    (hb : b.frame = some id) : i = j := by
  have hnodup : dpb.frames.Nodup := List.nodup_iff_count_le_one.mpr fun x => by
    rw [← h.owned]
    exact h.single x
  have hpairwise := List.pairwise_iff_getElem.mp (List.pairwise_filterMap.mp hnodup)
  obtain ⟨hlti, rfl⟩ := List.getElem?_eq_some_iff.mp hi
  obtain ⟨hltj, rfl⟩ := List.getElem?_eq_some_iff.mp hj
  obtain hlt | heq | hgt := Nat.lt_trichotomy i j
  · exact absurd rfl (hpairwise i j hlti hltj hlt id ha id hb)
  · exact heq
  · exact absurd rfl (hpairwise j i hltj hlti hgt id hb id ha)

/-- The frames outstanding are those that the slots hold. -/
theorem Sole.outstanding (h : Sole provider dpb store) :
    store.outstanding = dpb.slots.countP (!·.isFree) := by
  have hmem : store.pooledIds = dpb.frames.toFinset := by
    ext x
    rw [h.pooled.mem_pooledIds, List.mem_toFinset, ← List.count_pos_iff, ← h.owned]
    constructor
    · rintro ⟨cell, hc⟩
      rw [Store.handles, hc]
      exact h.balanced.held x cell hc
    · exact Store.cell?_of_handles_pos
  have hnodup : dpb.frames.Nodup := List.nodup_iff_count_le_one.mpr fun x => by
    rw [← h.owned]
    exact h.single x
  rw [h.balanced.outstanding, hmem, List.toFinset_card_of_nodup hnodup, frames,
    List.length_filterMap_eq_countP]
  refine List.countP_congr fun slot _ => ?_
  rw [Slot.isFree]
  cases slot.frame <;> simp

/-- After a sweep the slots that hold a frame are those in use. -/
theorem Sole.isFree_sweep (h : Sole provider dpb store) :
    ∀ slot ∈ (dpb.sweep store).1.slots, slot.isFree = slot.flags.isEmpty := by
  intro slot hslot
  obtain ⟨old, hold, rfl⟩ := List.mem_map.mp hslot
  exact Slot.isFree_strip_empty (h.framed old hold)

/-- **A buffer on its own holds every frame of its pool that is outstanding**, each in one slot,
after any operations on a new buffer. Its pictures have frames as long as they have flags, and after
a sweep no longer. -/
theorem operate_alone (hpools : provider.Pools) (layer capacity : Nat)
    (operations : List Operation) :
    let state := operate (.empty layer capacity, { provider }) operations
    let swept := state.1.sweep state.2
    (∀ slot ∈ state.1.slots, slot.flags.isEmpty = false → slot.isFree = false) ∧
      state.2.outstanding = state.1.slots.countP (!·.isFree) ∧
      (∀ i j a b id, state.1.slot? i = some a → state.1.slot? j = some b → a.frame = some id →
        b.frame = some id → i = j) ∧
      (∀ slot ∈ swept.1.slots, slot.isFree = slot.flags.isEmpty) ∧
      swept.1.numInUse = swept.2.outstanding := by
  intro state swept
  have h : Sole provider state.1 state.2 :=
    Sole.operate hpools operations (sole_new provider layer capacity)
  have hswept : Sole provider swept.1 swept.2 := h.stripWhere hpools _ _
  have hcounted := h.isFree_sweep
  refine ⟨h.framed, h.outstanding, fun i j a b id => h.eq_of_frame, hcounted, ?_⟩
  rw [hswept.outstanding, numInUse]
  refine List.countP_congr fun slot hslot => ?_
  rw [hcounted slot hslot]

/-- A reference, and the stand-in for a missing one; then the reference loses its marking. -/
def markedAway : List Operation :=
  [.insert {} { poc := 1, flags := { shortTerm := true } }, .insertStandIn {} { poc := 2 } true,
    .mark 0 .none]

/-- Two frames are outstanding and one picture is in use, until the buffer is swept. -/
theorem operate_alone_markedAway :
    let state := operate (.empty 0 2, { provider := Session.threeFrames }) markedAway
    let swept := state.1.sweep state.2
    Session.threeFrames.Pools ∧ state.2.outstanding = 2 ∧ state.1.numInUse = 1 ∧
      state.1.slots.countP (!·.isFree) = 2 ∧ swept.1.numInUse = 1 ∧ swept.2.outstanding = 1 := by
  intro state swept
  have hpools : Session.threeFrames.Pools := fun _ _ hown => by cases hown
  obtain ⟨-, houtstanding, -, -, hcount⟩ := operate_alone hpools 0 2 markedAway
  have hheld : state.1.slots.countP (!·.isFree) = 2 := by decide +kernel
  have hused : swept.1.numInUse = 1 := by decide +kernel
  exact ⟨hpools, houtstanding.trans hheld, by decide +kernel, hheld, hused, hcount.symm.trans hused⟩

end Dpb

end PictureBuffer
