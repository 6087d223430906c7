import PictureBuffer.Proofs.Budget
import PictureBuffer.Proofs.Entries
import PictureBuffer.Proofs.Untouched

/-!
# A frame that is given back earlier

Whoever holds a frame that the output process has no use for may give it back before a picture is
emitted, or after it: the picture is emitted in the same way, and everything is the same afterwards
(`Shared.emit_releaseAll`).

This is so because giving back a handle commutes with every operation of a store. It commutes with
another release, and with a change in place, without any condition. It commutes with taking a handle
to the same frame as long as somebody else holds the frame, so that it is not freed in between
(`release_retain`), and with a request to the provider as long as that is granted
(`acquire_release`): the pool has more room after the release, so a request that is granted is
granted the earlier the better, but one that is refused may not be.

What the output process does to the store depends on the scratch frame being held by nobody else
besides, so the frame that is given back must be another one (`Shared.Surplus`).
-/

namespace PictureBuffer

/-! ## Stores -/

namespace Store

variable {a b store : Store} {id x : FrameId} {provider : Provider}

/-- Two stores are the same if they show the same, and their counters agree. -/
theorem eq_of_cells (hp : a.provider = b.provider) (ho : a.outstanding = b.outstanding)
    (hq : a.acquisitions = b.acquisitions) (ht : a.attachments = b.attachments)
    (hs : a.cells.size = b.cells.size) (hc : ∀ x, a.cell? x = b.cell? x) : a = b := by
  have hcells : a.cells = b.cells := by
    refine Array.ext hs fun i hi hi' => ?_
    have hx := hc i
    rwa [cell?, cell?, Array.getElem?_eq_getElem hi, Array.getElem?_eq_getElem hi'] at hx
  obtain ⟨p, cells, o, q, t⟩ := a
  obtain ⟨p', cells', o', q', t'⟩ := b
  simp only at hp ho hq ht hcells
  rw [hp, ho, hq, ht, hcells]

/-- The places in the pool that giving back a handle gives back. -/
def returned (store : Store) (id : FrameId) : Nat :=
  (store.cell? id).elim 0 fun cell => if cell.handles ≤ 1 then cell.pooled.toNat else 0

/-- What giving back a handle does, besides to the frame. -/
theorem counters_release (store : Store) (id : FrameId) :
    (store.release id).outstanding = store.outstanding - store.returned id ∧
      (store.release id).acquisitions = store.acquisitions ∧
      (store.release id).attachments = store.attachments := by
  unfold release returned
  cases store.cell? id with
  | none => exact ⟨rfl, rfl, rfl⟩
  | some cell =>
    dsimp only [Option.elim_some]
    split <;> exact ⟨rfl, rfl, rfl⟩

theorem returned_congr (h : a.cell? id = b.cell? id) : a.returned id = b.returned id := by
  rw [returned, h, returned]

/-- Two handles may be given back in either order. -/
theorem release_release (store : Store) (id x : FrameId) :
    (store.release x).release id = (store.release id).release x := by
  by_cases hne : id = x
  · rw [hne]
  obtain ⟨ho, hq, ht⟩ := counters_release store x
  obtain ⟨ho', hq', ht'⟩ := counters_release store id
  obtain ⟨hoid, hqid, htid⟩ := counters_release (store.release x) id
  obtain ⟨hox, hqx, htx⟩ := counters_release (store.release id) x
  have hid : (store.release x).returned id = store.returned id :=
    returned_congr (by rw [cell?_release, if_neg hne])
  have hx : (store.release id).returned x = store.returned x :=
    returned_congr (by rw [cell?_release, if_neg (Ne.symm hne)])
  refine eq_of_cells ?_ ?_ ?_ ?_ ?_ fun y => ?_
  · simp only [provider_release]
  · rw [hoid, hox, ho, ho', hid, hx]
    omega
  · rw [hqid, hqx, hq, hq']
  · rw [htid, htx, ht, ht']
  · simp only [size_release]
  · simp only [cell?_release]
    by_cases hy : y = id
    · subst hy
      rw [if_pos rfl, if_neg hne, if_neg hne, if_pos rfl]
    · rw [if_neg hy, if_neg hy]

/-- Handles may be given back in any order. -/
theorem releaseAll_perm {ids ids' : List FrameId} (h : ids.Perm ids') (store : Store) :
    store.releaseAll ids = store.releaseAll ids' :=
  h.foldl_eq' (fun _ _ _ _ store => (release_release store _ _)) store

theorem release_releaseAll (store : Store) (id : FrameId) (ids : List FrameId) :
    (store.release id).releaseAll ids = (store.releaseAll ids).release id := by
  have hperm : (id :: ids).Perm (ids ++ [id]) := (List.perm_append_singleton id ids).symm
  have hsame := releaseAll_perm hperm store
  rwa [releaseAll, releaseAll, List.foldl_cons, List.foldl_append] at hsame

theorem releaseAll_append (store : Store) (ids ids' : List FrameId) :
    store.releaseAll (ids ++ ids') = (store.releaseAll ids).releaseAll ids' :=
  List.foldl_append

/-- What leaves the counters alone commutes with a release if the frames show nothing else. -/
theorem release_comm {f : Store → Store}
    (hf : ∀ store, (f store).provider = store.provider ∧
      (f store).outstanding = store.outstanding ∧ (f store).acquisitions = store.acquisitions ∧
      (f store).attachments = store.attachments ∧ (f store).cells.size = store.cells.size)
    (hreturned : (f store).returned id = store.returned id)
    (hc : ∀ y, ((f store).release id).cell? y = (f (store.release id)).cell? y) :
    (f store).release id = f (store.release id) := by
  obtain ⟨hp, ho, hq, ht, hs⟩ := hf store
  obtain ⟨hp', ho', hq', ht', hs'⟩ := hf (store.release id)
  obtain ⟨hor, hqr, htr⟩ := counters_release (f store) id
  obtain ⟨hor', hqr', htr'⟩ := counters_release store id
  refine eq_of_cells ?_ ?_ ?_ ?_ ?_ hc
  · rw [provider_release, hp, hp', provider_release]
  · rw [hor, hreturned, ho, ho', hor']
  · rw [hqr, hq, hq', hqr']
  · rw [htr, ht, ht', htr']
  · rw [size_release, hs, hs', size_release]

/-- A change in place does not matter to the handles. -/
theorem release_update (store : Store) (id x : FrameId) (f : Frame → Frame) :
    (store.update x f).release id = (store.release id).update x f := by
  have hreturned : (store.update x f).returned id = store.returned id := by
    unfold returned
    rw [cell?_update]
    split
    · cases store.cell? id <;> rfl
    · rfl
  refine release_comm (f := fun store => store.update x f)
    (fun store => ⟨rfl, rfl, rfl, rfl, size_update store x f⟩) hreturned fun y => ?_
  simp only [cell?_release, cell?_update]
  cases store.cell? y with
  | none => split <;> split <;> rfl
  | some cell =>
    by_cases hy : y = id
    · subst hy
      rw [if_pos rfl, if_pos rfl]
      split
      · simp only [Option.map_some, Option.bind_some]
        split <;> rfl
      · rfl
    · rw [if_neg hy, if_neg hy]

theorem releaseAll_update (ids : List FrameId) (x : FrameId) (f : Frame → Frame) :
    ∀ store : Store, (store.update x f).releaseAll ids = (store.releaseAll ids).update x f := by
  induction ids with
  | nil => exact fun _ => rfl
  | cons id ids ih =>
    intro store
    have hrest := ih (store.release id)
    rw [← release_update] at hrest
    exact hrest

/-- A handle to a frame that stays in use may be taken before or after one is given back. -/
theorem release_retain (h : x = id → 1 < store.handles id) :
    (store.retain x).release id = (store.release id).retain x := by
  have hreturned : (store.retain x).returned id = store.returned id := by
    unfold returned
    rw [cell?_retain]
    by_cases hx : id = x
    · have hmore := h hx.symm
      rw [if_pos hx]
      unfold handles at hmore
      cases hc : store.cell? id with
      | none => rfl
      | some cell =>
        rw [hc, Option.elim_some] at hmore
        simp only [Option.map_some, Option.elim_some]
        rw [if_neg (by omega), if_neg (by omega)]
    · rw [if_neg hx]
  refine release_comm (f := fun store => store.retain x)
    (fun store => ⟨rfl, rfl, rfl, rfl, size_retain store x⟩) hreturned fun y => ?_
  simp only [cell?_release, cell?_retain]
  by_cases hy : y = id
  · subst hy
    rw [if_pos rfl, if_pos rfl]
    by_cases hx : y = x
    · have hmore := h hx.symm
      unfold handles at hmore
      rw [if_pos hx, if_pos hx]
      cases hc : store.cell? y with
      | none => rfl
      | some cell =>
        rw [hc, Option.elim_some] at hmore
        simp only [Option.map_some, Option.bind_some]
        have hsame : cell.handles + 1 - 1 = cell.handles - 1 + 1 := by omega
        rw [if_neg (by omega), if_neg (by omega), Option.map_some, hsame]
    · rw [if_neg hx, if_neg hx]
  · rw [if_neg hy, if_neg hy]

/-- A known frame may be given back before or after another one comes in. -/
theorem insert_release (hid : id < store.cells.size)
    (hreturned : store.returned id ≤ store.outstanding) (frame : Frame) (pooled : Bool) :
    (store.release id).insert frame pooled =
      ((store.insert frame pooled).1, (store.insert frame pooled).2.release id) := by
  have hkept : (store.insert frame pooled).2.returned id = store.returned id :=
    returned_congr (by rw [cell?_insert, if_neg (Nat.ne_of_lt hid)])
  obtain ⟨ho, hq, ht⟩ := counters_release (store.insert frame pooled).2 id
  obtain ⟨ho', hq', ht'⟩ := counters_release store id
  have hout : ((store.release id).insert frame pooled).2.outstanding =
      (store.release id).outstanding + pooled.toNat := rfl
  have hout' : (store.insert frame pooled).2.outstanding =
      store.outstanding + pooled.toNat := rfl
  refine Prod.ext (size_release store id) (eq_of_cells ?_ ?_ ?_ ?_ ?_ fun y => ?_)
  · rw [provider_release]
    exact provider_release store id
  · rw [ho, hout, ho', hkept, hout']
    omega
  · exact hq'.trans hq.symm
  · exact ht'.trans ht.symm
  · simp [insert, size_release]
  · simp only [cell?_insert, cell?_release, size_release]
    by_cases hy : y = id
    · subst hy
      rw [if_neg (Nat.ne_of_lt hid), if_neg (Nat.ne_of_lt hid)]
    · rw [if_neg hy, if_neg hy]

theorem asked_release (store : Store) (id : FrameId) :
    (store.release id).asked = store.asked.release id := by
  obtain ⟨ho, hq, ht⟩ := counters_release store.asked id
  obtain ⟨ho', hq', ht'⟩ := counters_release store id
  refine eq_of_cells ?_ ?_ ?_ ?_ ?_ fun y => ?_
  · rw [provider_release]
    exact provider_release store id
  · exact ho'.trans ho.symm
  · exact (congrArg (· + 1) hq').trans hq.symm
  · exact ht'.trans ht.symm
  · rw [size_release]
    exact size_release store id
  · rw [cell?_release]
    exact cell?_release store id y

/-- What is offered is offered after a release, too. -/
theorem offer?_release (hsupplied : store.Supplies) (id : FrameId) (format : Format)
    (width height : Nat) :
    (store.release id).offer? format width height = store.offer? format width height := by
  obtain ⟨ho, hq, -⟩ := counters_release store id
  unfold Supplies at hsupplied
  unfold offer?
  rw [provider_release, hq]
  cases hs : store.provider.supply store.acquisitions with
  | refused => rfl
  | own planes => rfl
  | pooled =>
    rw [hs] at hsupplied
    have hroom : store.provider.budget.all ((store.release id).outstanding < ·) = true := by
      rw [ho]
      dsimp only at hsupplied
      cases hb : store.provider.budget with
      | none => rfl
      | some budget =>
        rw [hb] at hsupplied
        simp only [Option.all_some, decide_eq_true_eq] at hsupplied ⊢
        omega
    dsimp only at hsupplied ⊢
    rw [if_pos hsupplied, if_pos hroom]

/-- **A request that is granted is granted after a release, too**, and with the same frame. -/
theorem acquire_release (hsupplied : store.Supplies) (hid : id < store.cells.size)
    (hreturned : store.returned id ≤ store.outstanding) (format : Format) (width height : Nat) :
    (store.release id).acquire format width height =
      ((store.acquire format width height).1,
        (store.acquire format width height).2.release id) := by
  rw [acquire_eq, acquire_eq, offer?_release hsupplied]
  cases hoffer : store.offer? format width height with
  | none =>
    rw [asked_release]
  | some offer =>
    obtain ⟨frame, pooled⟩ := offer
    have hasked : store.asked.returned id ≤ store.asked.outstanding := hreturned
    have hinsert := @insert_release store.asked id hid hasked frame pooled
    dsimp only
    rw [asked_release, hinsert]

/-- A frame of the pool that goes back to it was outstanding. -/
theorem Balanced.returned_le (h : Balanced provider store) (id : FrameId) :
    store.returned id ≤ store.outstanding := by
  unfold returned
  cases hc : store.cell? id with
  | none => exact Nat.zero_le _
  | some cell =>
    rw [Option.elim_some, h.outstanding]
    cases hp : cell.pooled with
    | false => split <;> exact Nat.zero_le _
    | true =>
      have hmem : id ∈ store.pooledIds := mem_pooledIds.mpr ⟨cell, hc, hp⟩
      have hpos : 0 < store.pooledIds.card := Finset.card_pos.mpr ⟨id, hmem⟩
      split
      · exact hpos
      · exact Nat.zero_le _

end Store

/-! ## The output process -/

namespace Shared

variable {sh : Shared} {id x : FrameId} {others : List FrameId} {provider : Provider}

/-- Somebody gives back a handle. -/
def release (sh : Shared) (id : FrameId) : Shared := { sh with store := sh.store.release id }

/-- Several holders give back their handles. -/
def releaseAll (sh : Shared) (ids : List FrameId) : Shared :=
  { sh with store := sh.store.releaseAll ids }

theorem accounted_releaseAll {ids : List FrameId} (h : sh.Accounted (ids ++ others)) :
    (sh.releaseAll ids).Accounted others := by
  intro x
  have hx := h x
  have hreleased := Store.handles_releaseAll x ids sh.store
  simp only [releaseAll, frames, List.count_append] at hx hreleased ⊢
  omega

/-- Whoever else holds a frame sees the same after the handles are given back. -/
theorem frame_releaseAll {ids : List FrameId} (h : sh.Accounted (ids ++ others))
    (hx : x ∈ sh.frames ∨ x ∈ others) : (sh.releaseAll ids).store.frame x = sh.store.frame x := by
  have hreleased := accounted_releaseAll h
  have hpos : 0 < (sh.releaseAll ids).store.handles x := by
    rcases hx with hx | hx
    · exact hreleased.pos_own hx
    · exact hreleased.pos hx
  exact congrArg (·.getD .empty) ((Store.spares_releaseAll ids x sh.store).frame?_eq hpos)

/-- **Somebody besides `others` holds a handle** to the frame `id`, which is not the scratch
frame. -/
structure Surplus (provider : Provider) (sh : Shared) (id : FrameId) (others : List FrameId) :
    Prop where
  accounted : sh.Accounted (id :: others)
  scratch : sh.scheduler.scratch ≠ some id
  balanced : sh.store.Balanced provider

theorem Surplus.known (h : sh.Surplus provider id others) : id < sh.store.cells.size :=
  Store.lt_size_of_handles_pos (h.accounted.pos List.mem_cons_self)

theorem Surplus.frame (h : sh.Surplus provider id others) (hx : x ∈ sh.frames ∨ x ∈ others) :
    (sh.release id).store.frame x = sh.store.frame x :=
  @frame_releaseAll sh x others [id] h.accounted hx

theorem dropStash_release (sh : Shared) (id : FrameId) :
    (sh.release id).dropStash = sh.dropStash.release id := by
  unfold release dropStash
  dsimp only
  cases sh.scheduler.stash with
  | none => rfl
  | some field =>
    dsimp only
    rw [Store.release_release]

/-- A frame may be given back before or after another handle to it is taken, if somebody else holds
it. -/
theorem Surplus.retain (h : sh.Surplus provider id others) (hx : x ∈ others) :
    (sh.store.release id).retain x = (sh.store.retain x).release id := by
  refine (Store.release_retain fun hid => ?_).symm
  subst hid
  have hcount := h.accounted x
  have hpos := List.count_pos_iff.mpr hx
  rw [List.count_append, List.count_cons_self] at hcount
  omega

theorem Surplus.dropStash (h : sh.Surplus provider id others) :
    sh.dropStash.Surplus provider id others where
  accounted := accounted_dropStash h.accounted
  scratch := by
    rw [scratch_dropStash]
    exact h.scratch
  balanced := (leads_dropStash sh).balanced h.balanced

theorem Surplus.putStash (h : sh.Surplus provider id others) {field : Field}
    (hf : field.frame ∈ others) :
    (sh.release id).putStash field = (sh.putStash field).release id := by
  unfold Shared.putStash
  dsimp only
  rw [dropStash_release]
  unfold release
  dsimp only
  rw [h.dropStash.retain hf]

/-- The scratch frame can be used again or not, whoever else gives back a handle. -/
theorem Surplus.reusable_iff (h : sh.Surplus provider id others) {layout : Layout}
    {scratch : FrameId} :
    (sh.release id).Reusable layout scratch ↔ sh.Reusable layout scratch := by
  refine and_congr_right fun hs => ?_
  have hscratch : sh.scheduler.scratch = some scratch := hs
  have hne : scratch ≠ id := by
    rintro rfl
    exact h.scratch hscratch
  have hunique : (sh.release id).store.isUnique scratch = sh.store.isUnique scratch := by
    unfold release Store.isUnique
    rw [Store.handles_release, if_neg hne, Nat.sub_zero]
  rw [hunique, h.frame (.inl (by simp [frames, hscratch]))]

/-- **The same frame is found to weave into**, if one is found while the handle is held. -/
theorem Surplus.weavingFrame (h : sh.Surplus provider id others) {layout : Layout}
    (hok : (sh.weavingFrame layout).1 ≠ none) :
    (sh.release id).weavingFrame layout =
      ((sh.weavingFrame layout).1, (sh.weavingFrame layout).2.release id) := by
  by_cases hr : ∃ scratch, sh.Reusable layout scratch
  · obtain ⟨scratch, hr⟩ := hr
    rw [weavingFrame_of_reusable hr, weavingFrame_of_reusable (h.reusable_iff.mpr hr)]
    rfl
  · rw [not_exists] at hr
    rw [weavingFrame_of_not_reusable hr] at hok ⊢
    rw [weavingFrame_of_not_reusable fun scratch hs => hr scratch (h.reusable_iff.mp hs)]
    have hsupplied : sh.store.Supplies := by
      rw [← Store.isSome_acquire_iff sh.store layout.format layout.width layout.height]
      exact Option.isSome_iff_ne_none.mpr hok
    have hacquire := Store.acquire_release hsupplied h.known (h.balanced.returned_le id)
      layout.format layout.width layout.height
    unfold release
    dsimp only
    rw [hacquire, Store.release_releaseAll]

/-- **Fields are woven in the same way.** -/
theorem Surplus.weave (h : sh.Surplus provider id others) {top bottom : FrameId}
    (ht : top ∈ sh.frames ∨ top ∈ others) (hb : bottom ∈ sh.frames ∨ bottom ∈ others)
    (hok : (sh.weave top bottom).1 ≠ .error .outOfMemory) :
    (sh.release id).weave top bottom =
      ((sh.weave top bottom).1, (sh.weave top bottom).2.release id) := by
  obtain ⟨sh', -, he⟩ | ⟨woven, sh', hw, he⟩ := weave_cases sh top bottom
  · rw [he] at hok
    exact absurd rfl hok
  · have hne : woven ≠ id := by
      rintro rfl
      rcases fst_weavingFrame (congrArg Prod.fst hw) with ⟨hs, -⟩ | hfresh
      · exact h.scratch hs
      · exact absurd h.known (Nat.not_lt.mpr hfresh)
    have hframe := @Surplus.weavingFrame _ _ _ _ h (sh.store.frame top).wovenLayout
      (by rw [hw]; simp)
    rw [he]
    unfold Shared.weave
    dsimp only
    rw [h.frame ht, h.frame hb, hframe, hw]
    dsimp only
    unfold fillScratch release
    dsimp only
    rw [← Store.release_update, Store.release_retain fun hx => absurd hx hne]

theorem Surplus.complete (h : sh.Surplus provider id others) {first second : Field}
    (hf : first.frame ∈ others) (hs : second.frame ∈ others) {layer : Nat}
    (hok : (sh.complete layer first second).1 ≠ .error .outOfMemory) :
    (sh.release id).complete layer first second =
      ((sh.complete layer first second).1, (sh.complete layer first second).2.release id) := by
  have hlines : (evenLines first second).frame ∈ others ∧
      (oddLines first second).frame ∈ others := by
    unfold evenLines oddLines
    split
    · exact ⟨hs, hf⟩
    · exact ⟨hf, hs⟩
  obtain ⟨sh', hw, he⟩ | ⟨woven, sh', hw, he⟩ := complete_cases sh layer first second
  · rw [he] at hok
    exact absurd rfl hok
  · have hweave := h.weave (.inr hlines.1) (.inr hlines.2) (by rw [hw]; simp)
    rw [he]
    unfold Shared.complete
    rw [hweave, hw]
    unfold release
    dsimp only
    rw [Store.release_release]

/-- **A field is paired in the same way.** -/
theorem Surplus.pair (h : sh.Surplus provider id others) {victim : Victim}
    (hv : victim.frame ∈ others) (hok : (sh.pair victim).1 ≠ .error .outOfMemory) :
    (sh.release id).pair victim = ((sh.pair victim).1, (sh.pair victim).2.release id) := by
  have hstash : ∀ {first : Field}, sh.scheduler.stash = some first →
      (sh.release id).store.frame first.frame = sh.store.frame first.frame :=
    fun hs => h.frame (.inl (by simp [frames, hs]))
  have hvictim : (sh.release id).store.frame victim.frame = sh.store.frame victim.frame :=
    h.frame (.inr hv)
  obtain ⟨hy, he⟩ | ⟨hn, hs, he⟩ | ⟨first, hn, hs, hl, he⟩ | ⟨first, hn, hs, hl, he⟩ :=
    pair_cases sh victim
  · rw [he]
    unfold Shared.pair
    rw [show (sh.release id).scheduler.startsPair victim.poc victim.picStruct = true from hy,
      if_pos rfl, h.putStash hv]
  · rw [he]
    unfold Shared.pair
    rw [show (sh.release id).scheduler.startsPair victim.poc victim.picStruct = false from hn,
      show (sh.release id).scheduler.stash = none from hs]
    rfl
  · rw [he] at hok ⊢
    have htaken : sh.takeStash.Surplus provider id (first.frame :: others) := by
      refine ⟨?_, h.scratch, h.balanced⟩
      have ht : sh.takeStash.Accounted (first.frame :: id :: others) :=
        accounted_takeStash h.accounted hs rfl rfl
      exact ht.congr fun x => (List.Perm.swap _ _ _).count_eq x
    have hcomplete := htaken.complete List.mem_cons_self (List.mem_cons_of_mem _ hv) hok
    unfold Shared.pair
    rw [show (sh.release id).scheduler.startsPair victim.poc victim.picStruct = false from hn,
      show (sh.release id).scheduler.stash = some first from hs]
    dsimp only
    rw [hstash hs, hvictim, if_pos hl]
    exact hcomplete
  · rw [he]
    unfold Shared.pair
    rw [show (sh.release id).scheduler.startsPair victim.poc victim.picStruct = false from hn,
      show (sh.release id).scheduler.stash = some first from hs]
    dsimp only
    rw [hstash hs, hvictim, if_neg hl, dropStash_release]
    rfl

theorem send_release (sh : Shared) (id : FrameId) (picture : Picture) :
    (sh.release id).send picture = ((sh.send picture).1, (sh.send picture).2.release id) := by
  unfold send release
  dsimp only
  cases sh.queue.push picture with
  | ok queue => rfl
  | error fault =>
    dsimp only
    rw [Store.release_release]

/-- **A picture is emitted in the same way** before and after a handle that it does not need is
given back, unless there is no memory for it before. -/
theorem Surplus.emit (h : sh.Surplus provider id others) {victim : Victim} {dts : Option Int}
    (hv : victim.frame ∈ others) (hok : (sh.emit victim dts).1 ≠ .error .outOfMemory) :
    (sh.release id).emit victim dts =
      ((sh.emit victim dts).1, (sh.emit victim dts).2.release id) := by
  have hpop : (sh.pop victim.poc).Surplus provider id others :=
    ⟨h.accounted.of_eq rfl rfl rfl rfl, h.scratch, h.balanced⟩
  unfold Shared.emit at hok ⊢
  dsimp only at hok ⊢
  by_cases hf : victim.picStruct.isField = true
  · rw [if_pos hf] at hok
    rw [if_pos hf, if_pos hf]
    have hpair := @Surplus.pair _ _ _ _ hpop victim hv
    change _ → ((sh.release id).pop victim.poc).pair victim = _ at hpair
    rcases hp : (sh.pop victim.poc).pair victim with ⟨fault | _ | _ | _ | picture, sh'⟩
    · rw [hp] at hok hpair
      have hne : fault ≠ .outOfMemory := fun h => hok (congrArg Except.error h)
      rw [hpair fun h => hne (Except.error.inj h)]
    · rw [hp] at hpair
      rw [hpair (by simp)]
    · rw [hp] at hpair
      rw [hpair (by simp)]
    · rw [hp] at hpair
      rw [hpair (by simp)]
    · rw [hp] at hpair
      rw [hpair (by simp)]
      exact send_release sh' id _
  · rw [if_neg hf, if_neg hf]
    have hdropped : ((sh.release id).pop victim.poc).dropStash =
        (sh.pop victim.poc).dropStash.release id := dropStash_release (sh.pop victim.poc) id
    have hsend := send_release
      { (sh.pop victim.poc).dropStash with
        store := (sh.pop victim.poc).dropStash.store.retain victim.frame }
      id (victim.picture dts)
    have hretain := hpop.dropStash.retain hv
    rw [hdropped]
    unfold release at hsend ⊢
    dsimp only at hsend ⊢
    rw [hretain]
    exact hsend

/-- **A picture is emitted in the same way** before and after handles that it does not need are
given back, unless there is no memory for it before. -/
theorem emit_releaseAll {victim : Victim} {dts : Option Int} (hv : victim.frame ∈ others)
    (ids : List FrameId) : ∀ {sh : Shared}, sh.Accounted (ids ++ others) →
      (∀ id ∈ ids, sh.scheduler.scratch ≠ some id) → sh.store.Balanced provider →
      (sh.emit victim dts).1 ≠ .error .outOfMemory →
      (sh.releaseAll ids).emit victim dts =
        ((sh.emit victim dts).1, (sh.emit victim dts).2.releaseAll ids) := by
  induction ids with
  | nil => exact fun _ _ _ _ => rfl
  | cons id ids ih =>
    intro sh ha hs hb hok
    have hsurplus : sh.Surplus provider id (ids ++ others) := ⟨ha, hs id List.mem_cons_self, hb⟩
    have hfirst := hsurplus.emit (List.mem_append_right ids hv) hok
    have hrest := @ih (sh.release id) (accounted_release ha)
      (fun x hx => hs x (List.mem_cons_of_mem id hx)) (hb.release id) (by rw [hfirst]; exact hok)
    rw [hfirst] at hrest
    exact hrest

end Shared

end PictureBuffer
