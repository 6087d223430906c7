import Mathlib.Logic.Function.Basic
import PictureBuffer.Dpb
import PictureBuffer.Proofs.Emission

/-!
# Other names for frames

Frames are numbered in the order in which they were acquired. A frame that was acquired and given
back at once leaves its number behind, so the frames after it have other numbers than they would
have without it. Nothing depends on them: when every frame is known by another name
(`Store.Renamed`), every operation does the same, under the other names.

Each operation has one lemma that says so, named after it: of the store (`Store.Renamed.acquire`),
of a picture buffer (`Dpb.insert_rename`) and of the output process (`Shared.Renamed.emit`).
-/

namespace PictureBuffer

variable {ρ : FrameId → FrameId}

/-- **Two outcomes match**: the second result is the first one as `f` renames it, and the states
that come with them are related. -/
def Matches {α β σ : Type} (f : α → β) (R : σ → σ → Prop) (p : α × σ) (p' : β × σ) : Prop :=
  ∃ a s s', p = (a, s) ∧ p' = (f a, s') ∧ R s s'

theorem Matches.of_rel {α β σ : Type} {f : α → β} {R : σ → σ → Prop} {a : α} {s s' : σ}
    (h : R s s') : Matches f R (a, s) (f a, s') := ⟨a, s, s', rfl, rfl, h⟩

/-! ## The store -/

/-- **A store under other names**: frame `id` of `store` is frame `ρ id` of `store'`, also of those
that are yet to come. -/
structure Store.Renamed (ρ : FrameId → FrameId) (store store' : Store) : Prop where
  injective : Function.Injective ρ
  provider : store'.provider = store.provider
  outstanding : store'.outstanding = store.outstanding
  acquisitions : store'.acquisitions = store.acquisitions
  attachments : store'.attachments = store.attachments
  cell : ∀ id, store'.cell? (ρ id) = store.cell? id
  fresh : ∀ k, ρ (store.cells.size + k) = store'.cells.size + k

namespace Store.Renamed

variable {store store' : Store}

theorem frame (h : store.Renamed ρ store') (id : FrameId) :
    store'.frame (ρ id) = store.frame id := by
  rw [Store.frame, Store.frame, frame?, frame?, h.cell]

theorem isUnique (h : store.Renamed ρ store') (id : FrameId) :
    store'.isUnique (ρ id) = store.isUnique id := by
  rw [Store.isUnique, Store.isUnique, handles, handles, h.cell]

theorem retain (h : store.Renamed ρ store') (id : FrameId) :
    (store.retain id).Renamed ρ (store'.retain (ρ id)) := by
  refine ⟨h.injective, h.provider, h.outstanding, h.acquisitions, h.attachments, fun x => ?_,
    fun k => ?_⟩
  · rw [cell?_retain, cell?_retain, h.cell]
    simp only [h.injective.eq_iff]
  · rw [size_retain, size_retain]
    exact h.fresh k

theorem update (h : store.Renamed ρ store') (id : FrameId) (f : Frame → Frame) :
    (store.update id f).Renamed ρ (store'.update (ρ id) f) := by
  refine ⟨h.injective, h.provider, h.outstanding, h.acquisitions, h.attachments, fun x => ?_,
    fun k => ?_⟩
  · rw [cell?_update, cell?_update, h.cell]
    simp only [h.injective.eq_iff]
  · rw [size_update, size_update]
    exact h.fresh k

theorem release (h : store.Renamed ρ store') (id : FrameId) :
    (store.release id).Renamed ρ (store'.release (ρ id)) := by
  have hcells : ∀ x, (store'.release (ρ id)).cell? (ρ x) = (store.release id).cell? x := by
    intro x
    rw [cell?_release, cell?_release, h.cell]
    simp only [h.injective.eq_iff]
  have hfresh : ∀ k, ρ ((store.release id).cells.size + k) =
      (store'.release (ρ id)).cells.size + k := by
    intro k
    rw [size_release, size_release]
    exact h.fresh k
  have hcell := h.cell id
  revert hcells hfresh
  unfold Store.release
  rw [hcell]
  cases store.cell? id with
  | none => exact fun hc hf => ⟨h.injective, h.provider, h.outstanding, h.acquisitions,
      h.attachments, hc, hf⟩
  | some cell =>
    dsimp only
    split
    · exact fun hc hf => ⟨h.injective, h.provider, congrArg (· - cell.pooled.toNat) h.outstanding,
        h.acquisitions, h.attachments, hc, hf⟩
    · exact fun hc hf => ⟨h.injective, h.provider, h.outstanding, h.acquisitions, h.attachments,
        hc, hf⟩

theorem retainAll (ids : List FrameId) : ∀ {store store' : Store}, store.Renamed ρ store' →
    (store.retainAll ids).Renamed ρ (store'.retainAll (ids.map ρ)) := by
  induction ids with
  | nil => exact fun h => h
  | cons id ids ih => exact fun h => ih (h.retain id)

theorem releaseAll (ids : List FrameId) : ∀ {store store' : Store}, store.Renamed ρ store' →
    (store.releaseAll ids).Renamed ρ (store'.releaseAll (ids.map ρ)) := by
  induction ids with
  | nil => exact fun h => h
  | cons id ids ih => exact fun h => ih (h.release id)

theorem insert (h : store.Renamed ρ store') (frame : Frame) (pooled : Bool) :
    Matches ρ (Renamed ρ) (store.insert frame pooled) (store'.insert frame pooled) := by
  have hnew : ρ store.cells.size = store'.cells.size := h.fresh 0
  refine ⟨_, _, _, rfl, Prod.ext hnew.symm rfl, h.injective, h.provider,
    congrArg (· + pooled.toNat) h.outstanding, h.acquisitions, h.attachments, fun x => ?_,
    fun k => ?_⟩
  · refine (cell?_insert store' frame pooled (ρ x)).trans
      (Eq.trans ?_ (cell?_insert store frame pooled x).symm)
    rw [h.cell, ← hnew]
    simp only [h.injective.eq_iff]
  · have hsize : ∀ s : Store, (s.insert frame pooled).2.cells.size = s.cells.size + 1 :=
      fun s => Array.size_push _
    refine (congrArg (fun n => ρ (n + k)) (hsize store)).trans
      (Eq.trans ?_ (congrArg (· + k) (hsize store').symm))
    rw [Nat.add_assoc, Nat.add_assoc]
    exact h.fresh (1 + k)

/-- The provider is asked once more. -/
theorem asked (h : store.Renamed ρ store') :
    ({ store with acquisitions := store.acquisitions + 1 } : Store).Renamed ρ
      { store' with acquisitions := store'.acquisitions + 1 } :=
  ⟨h.injective, h.provider, h.outstanding, congrArg (· + 1) h.acquisitions, h.attachments, h.cell,
    h.fresh⟩

/-- But for the cells, the stores are the same. -/
theorem eq (h : store.Renamed ρ store') : ∃ cells, store' = { store with cells } := by
  obtain ⟨_, cells, _, _, _⟩ := store'
  obtain ⟨-, rfl, rfl, rfl, rfl, -, -⟩ := h
  exact ⟨cells, rfl⟩

theorem acquire (h : store.Renamed ρ store') (format : Format) (width height : Nat) :
    Matches (Option.map ρ) (Renamed ρ) (store.acquire format width height)
      (store'.acquire format width height) := by
  have hasked := h.asked
  have given : ∀ frame pooled, _ := fun frame pooled => hasked.insert frame pooled
  obtain ⟨cells, rfl⟩ := h.eq
  unfold Store.acquire
  dsimp only at given ⊢
  cases store.provider.supply store.acquisitions with
  | refused => exact ⟨none, _, _, rfl, rfl, hasked⟩
  | own planes =>
    obtain ⟨id, given₁, given₁', he, he', hg⟩ :=
      given (.blank ⟨format, width, height, planes⟩) false
    dsimp only
    rw [he, he']
    exact ⟨some id, _, _, rfl, rfl, hg⟩
  | pooled =>
    obtain ⟨id, given₁, given₁', he, he', hg⟩ :=
      given (.blank (.unpadded format width height)) true
    dsimp only
    rw [he, he']
    split
    · exact ⟨some id, _, _, rfl, rfl, hg⟩
    · exact ⟨none, _, _, rfl, rfl, hasked⟩

theorem attach (h : store.Renamed ρ store') (frame : FrameId) (data : SideData) :
    Matches id (Renamed ρ) (store.attach frame data) (store'.attach (ρ frame) data) := by
  have hasked : ({ store with attachments := store.attachments + 1 } : Store).Renamed ρ
      { store' with attachments := store'.attachments + 1 } :=
    ⟨h.injective, h.provider, h.outstanding, h.acquisitions, congrArg (· + 1) h.attachments, h.cell,
      h.fresh⟩
  have hupdate := hasked.update frame (·.addSideData data)
  obtain ⟨cells, rfl⟩ := h.eq
  unfold Store.attach
  dsimp only at hupdate ⊢
  split
  · exact .of_rel hupdate
  · exact .of_rel hasked

theorem attachAll (frame : FrameId) (sideData : List SideData) : ∀ {store store' : Store},
    store.Renamed ρ store' → Matches id (Renamed ρ) (store.attachAll frame sideData)
      (store'.attachAll (ρ frame) sideData) := by
  induction sideData with
  | nil => exact fun h => .of_rel h
  | cons data rest ih =>
    intro store store' h
    obtain ⟨attached, store₁, store₁', he, he', hs⟩ := h.attach frame data
    unfold Store.attachAll
    rw [he, he']
    cases attached with
    | false => exact .of_rel hs
    | true => exact ih hs

end Store.Renamed

/-! ## Slots and buffers -/

namespace Slot

/-- The slot with its frame under another name. -/
def rename (ρ : FrameId → FrameId) (slot : Slot) : Slot := { slot with frame := slot.frame.map ρ }

variable (ρ : FrameId → FrameId) (slot : Slot)

@[simp] theorem isFree_rename : (slot.rename ρ).isFree = slot.isFree := by
  simp [isFree, rename]

@[simp] theorem strip_rename (mask : Flags) :
    (slot.rename ρ).strip mask = (slot.strip mask).rename ρ := by
  unfold strip
  rw [isFree_rename]
  dsimp only [rename]
  split <;> rfl

@[simp] theorem freed_rename (mask : Flags) :
    (slot.rename ρ).freed mask = (slot.freed mask).map ρ := by
  have hflags : (slot.rename ρ).flags = slot.flags := rfl
  unfold freed
  rw [hflags]
  split <;> rfl

@[simp] theorem mark_rename (marking : Marking) :
    (slot.rename ρ).mark marking = (slot.mark marking).rename ρ := by
  unfold mark
  rw [isFree_rename]
  split <;> rfl

theorem selectLists_rename (slice first : Nat) : (slot.rename ρ).selectLists slice first =
    (slot.selectLists slice first).map (·.rename ρ) := by
  have htable : (slot.rename ρ).table = slot.table := rfl
  unfold selectLists
  rw [htable]
  split <;> rfl

end Slot

namespace Dpb

/-- The buffer with its frames under other names. -/
def rename (ρ : FrameId → FrameId) (dpb : Dpb) : Dpb :=
  { dpb with slots := dpb.slots.map (·.rename ρ) }

variable (ρ : FrameId → FrameId) (dpb : Dpb)

theorem slot?_rename (index : Nat) : (dpb.rename ρ).slot? index =
    (dpb.slot? index).map (·.rename ρ) := List.getElem?_map

theorem frames_rename : (dpb.rename ρ).frames = dpb.frames.map ρ := by
  unfold frames
  rw [List.map_filterMap]
  exact List.filterMap_map

theorem numInUse_rename : (dpb.rename ρ).numInUse = dpb.numInUse := List.countP_map

theorem holds_rename (poc : Int) : (dpb.rename ρ).holds poc = dpb.holds poc := by
  simp [holds, rename, Function.comp_def, Slot.rename, Slot.isFree]

theorem find?_rename (lookup : Lookup) (target : Int) :
    (dpb.rename ρ).find? lookup target = dpb.find? lookup target := by
  simp [find?, rename, Function.comp_def, Slot.rename, Slot.isFree]

/-- One slot changes. -/
theorem modify_rename {f f' : Slot → Slot} (hf : ∀ slot, f' (slot.rename ρ) = (f slot).rename ρ)
    (index : Nat) : (dpb.rename ρ).modify index f' = (dpb.modify index f).rename ρ := by
  have hslots : (dpb.slots.map (·.rename ρ)).modify index f' =
      (dpb.slots.modify index f).map (·.rename ρ) := by
    refine List.ext_getElem? fun i => ?_
    rw [List.getElem?_modify, List.getElem?_map, List.getElem?_map, List.getElem?_modify]
    cases dpb.slots[i]? with
    | none => rfl
    | some slot =>
      by_cases hi : index = i
      · simp [hi, hf]
      · simp [hi]
  exact congrArg (Dpb.mk dpb.layer) hslots

theorem mark_rename (index : Nat) (marking : Marking) :
    (dpb.rename ρ).mark index marking = (dpb.mark index marking).rename ρ :=
  dpb.modify_rename ρ (fun slot => slot.mark_rename ρ marking) index

theorem unmarkExcept_rename (kept : Option Nat) :
    (dpb.rename ρ).unmarkExcept kept = (dpb.unmarkExcept kept).rename ρ := by
  have hslots : (dpb.slots.map (·.rename ρ)).mapIdx
      (fun index slot => if kept = some index then slot else slot.mark .none) =
        (dpb.slots.mapIdx fun index slot => if kept = some index then slot
          else slot.mark .none).map (·.rename ρ) := by
    refine List.ext_getElem? fun i => ?_
    rw [List.getElem?_mapIdx, List.getElem?_map, List.getElem?_map, List.getElem?_mapIdx]
    cases dpb.slots[i]? with
    | none => rfl
    | some slot =>
      by_cases hi : kept = some i
      · simp [hi]
      · simp [hi]
  exact congrArg (Dpb.mk dpb.layer) hslots

/-- The buffer and the store under other names. -/
def Renamed (ρ : FrameId → FrameId) (p p' : Dpb × Store) : Prop :=
  p'.1 = p.1.rename ρ ∧ p.2.Renamed ρ p'.2

variable {ρ} {store store' : Store}

/-- Flags are taken off a slot, and its frame may go. -/
theorem strip_rename (h : store.Renamed ρ store') (index : Nat) (mask : Flags) :
    Renamed ρ (dpb.strip store index mask) ((dpb.rename ρ).strip store' index mask) := by
  refine ⟨dpb.modify_rename ρ (fun slot => slot.strip_rename ρ mask) index, ?_⟩
  have hfreed : (((dpb.rename ρ).slot? index).bind (·.freed mask)).toList =
      ((dpb.slot? index).bind (·.freed mask)).toList.map ρ := by
    rw [slot?_rename]
    cases dpb.slot? index with
    | none => rfl
    | some slot =>
      rw [Option.map_some, Option.bind_some, Option.bind_some, Slot.freed_rename]
      cases slot.freed mask <;> rfl
  unfold strip
  rw [hfreed]
  exact h.releaseAll _

/-- Flags are taken off many slots. -/
theorem stripWhere_rename (h : store.Renamed ρ store') {p : Slot → Bool}
    (hp : ∀ slot, p (slot.rename ρ) = p slot) (mask : Flags) :
    Renamed ρ (dpb.stripWhere store p mask) ((dpb.rename ρ).stripWhere store' p mask) := by
  constructor
  · have hslots : (dpb.slots.map (·.rename ρ)).map
        (fun slot => if p slot then slot.strip mask else slot) =
          (dpb.slots.map fun slot => if p slot then slot.strip mask else slot).map
            (·.rename ρ) := by
      rw [List.map_map, List.map_map]
      refine List.map_congr_left fun slot _ => ?_
      by_cases h : p slot
      · simp [hp, h]
      · simp [hp, h]
    exact congrArg (Dpb.mk dpb.layer) hslots
  · have hfreed : (dpb.rename ρ).slots.filterMap
        (fun slot => if p slot then slot.freed mask else none) =
          (dpb.slots.filterMap fun slot => if p slot then slot.freed mask else none).map ρ := by
      rw [List.map_filterMap]
      refine List.filterMap_map.trans ?_
      congr 1
      funext slot
      by_cases h : p slot
      · simp [hp, h]
      · simp [hp, h]
    unfold stripWhere
    rw [hfreed]
    exact h.releaseAll _

theorem insert_rename (h : store.Renamed ρ store') (sps : Sps) (new : NewPicture) :
    Matches id (Renamed ρ) (dpb.insert store sps new) ((dpb.rename ρ).insert store' sps new) := by
  have hfree : (dpb.rename ρ).slots.findIdx? (·.isFree) = dpb.slots.findIdx? (·.isFree) := by
    simp [rename, Function.comp_def]
  unfold insert
  rw [hfree]
  cases dpb.slots.findIdx? (·.isFree) with
  | none => exact .of_rel ⟨rfl, h⟩
  | some index =>
    obtain ⟨frame, store₁, store₁', ha, ha', h₁⟩ := h.acquire sps.format sps.width sps.height
    dsimp only
    rw [ha, ha']
    cases frame with
    | none => exact .of_rel ⟨rfl, h₁⟩
    | some frame =>
      obtain ⟨attached, store₂, store₂', hs, hs', h₂⟩ := h₁.attachAll frame new.sideData
      dsimp only [Option.map_some]
      rw [hs, hs']
      cases attached with
      | false => exact .of_rel ⟨rfl, h₂.release frame⟩
      | true =>
        have hset : (dpb.slots.map (·.rename ρ)).set index (new.slot sps (ρ frame)) =
            (dpb.slots.set index (new.slot sps frame)).map (·.rename ρ) := by
          rw [List.map_set]
          rfl
        exact .of_rel ⟨congrArg (Dpb.mk dpb.layer) hset, h₂⟩

theorem insertStandIn_rename (h : store.Renamed ρ store') (sps : Sps) (new : NewPicture)
    (fill : Bool) : Matches id (Renamed ρ) (dpb.insertStandIn store sps new fill)
      ((dpb.rename ρ).insertStandIn store' sps new fill) := by
  obtain ⟨result, ⟨dpb₁, store₁⟩, ⟨dpb₁', store₁'⟩, he, he', hdpb, hs⟩ :=
    dpb.insert_rename h sps { new with flags := .standIn, picStruct := .frame }
  obtain rfl : dpb₁' = dpb₁.rename ρ := hdpb
  unfold insertStandIn
  rw [he, he']
  cases result with
  | error fault => exact .of_rel ⟨rfl, hs⟩
  | ok index =>
    have hframe : ((dpb₁.rename ρ).slot? index).bind (·.frame) =
        ((dpb₁.slot? index).bind (·.frame)).map ρ := by
      rw [slot?_rename]
      cases dpb₁.slot? index <;> rfl
    dsimp only [id]
    rw [hframe]
    cases (dpb₁.slot? index).bind (·.frame) with
    | none => exact .of_rel ⟨rfl, hs⟩
    | some frame =>
      have hpaint := Store.Renamed.update hs frame fun f =>
        (if fill then f.fillNeutral sps.bitDepth else f).produce
      exact .of_rel ⟨rfl, hpaint⟩

end Dpb

/-! ## The output process -/

def Field.rename (ρ : FrameId → FrameId) (field : Field) : Field :=
  { field with frame := ρ field.frame }

def Victim.rename (ρ : FrameId → FrameId) (victim : Victim) : Victim :=
  { victim with frame := ρ victim.frame }

def Picture.rename (ρ : FrameId → FrameId) (picture : Picture) : Picture :=
  { picture with frame := ρ picture.frame }

def Pairing.rename (ρ : FrameId → FrameId) : Pairing → Pairing
  | paired picture => paired (picture.rename ρ)
  | pairing => pairing

def Scheduler.rename (ρ : FrameId → FrameId) (s : Scheduler) : Scheduler :=
  { s with stash := s.stash.map (·.rename ρ), scratch := s.scratch.map ρ }

def Queue.rename (ρ : FrameId → FrameId) (queue : Queue) : Queue :=
  { queue with pictures := queue.pictures.map (·.rename ρ) }

theorem Scheduler.startsPair_rename (s : Scheduler) (poc : Int) (picStruct : PicStruct) :
    (s.rename ρ).startsPair poc picStruct = s.startsPair poc picStruct := by
  unfold startsPair
  dsimp only [rename]
  cases s.stash <;> rfl

/-- The queue is full under other names if it is. -/
theorem Queue.push_rename (queue : Queue) (picture : Picture) :
    (queue.rename ρ).push (picture.rename ρ) = (queue.push picture).map (·.rename ρ) := by
  have hlen : (queue.rename ρ).length = queue.length := List.length_map _
  have hcap : (queue.rename ρ).capacity = queue.capacity := rfl
  unfold push
  rw [hlen, hcap]
  split
  · simp [rename, Except.map]
  · rfl

namespace Shared

/-- What is shared, with another store and other names for its frames. -/
def recast (ρ : FrameId → FrameId) (store : Store) (sh : Shared) : Shared where
  store
  scheduler := sh.scheduler.rename ρ
  queue := sh.queue.rename ρ

/-- **What is shared, under other names.** -/
inductive Renamed (ρ : FrameId → FrameId) (sh : Shared) : Shared → Prop
  | intro {store : Store} (h : sh.store.Renamed ρ store) : Renamed ρ sh (sh.recast ρ store)

namespace Renamed

variable {sh sh' : Shared}

/-- The store goes on, and the rest stays. -/
theorem withStore {store store' : Store} (h : store.Renamed ρ store') (scheduler : Scheduler)
    (queue : Queue) : Renamed ρ ⟨store, scheduler, queue⟩
      ⟨store', scheduler.rename ρ, queue.rename ρ⟩ :=
  @Renamed.intro ρ ⟨store, scheduler, queue⟩ store' h

theorem stash_recast (store : Store) (sh : Shared) : (sh.recast ρ store).scheduler.stash =
    sh.scheduler.stash.map (·.rename ρ) := rfl

theorem dropStash (h : sh.Renamed ρ sh') : sh.dropStash.Renamed ρ sh'.dropStash := by
  obtain ⟨h⟩ := h
  unfold Shared.dropStash
  rw [stash_recast]
  cases sh.scheduler.stash with
  | none => exact .intro h
  | some field =>
    exact withStore (h.release field.frame) { sh.scheduler.recordOrphans 1 with stash := none }
      sh.queue

theorem putStash (h : sh.Renamed ρ sh') (field : Field) :
    (sh.putStash field).Renamed ρ (sh'.putStash (field.rename ρ)) := by
  have hd := h.dropStash
  unfold Shared.putStash
  generalize sh.dropStash = dropped at hd
  generalize sh'.dropStash = dropped' at hd
  obtain ⟨hd⟩ := hd
  exact withStore (hd.retain field.frame) { dropped.scheduler with stash := some field }
    dropped.queue

theorem takeStash (h : sh.Renamed ρ sh') : sh.takeStash.Renamed ρ sh'.takeStash := by
  obtain ⟨h⟩ := h
  exact withStore h { sh.scheduler with stash := none } sh.queue

theorem weavingFrame (h : sh.Renamed ρ sh') (layout : Layout) :
    Matches (Option.map ρ) (Renamed ρ) (sh.weavingFrame layout) (sh'.weavingFrame layout) := by
  obtain ⟨h⟩ := h
  rename_i store'
  have hscratch : (sh.recast ρ store').scheduler.scratch = sh.scheduler.scratch.map ρ := rfl
  obtain ⟨frame, store₁, store₁', he, he', h₁⟩ :=
    h.acquire layout.format layout.width layout.height
  have hacquire : (sh.recast ρ store').store.acquire layout.format layout.width layout.height =
      (frame.map ρ, store₁') := he'
  unfold Shared.weavingFrame
  rw [hscratch, he, hacquire]
  cases sh.scheduler.scratch with
  | none => exact .of_rel (withStore h₁ { sh.scheduler with scratch := none } sh.queue)
  | some scratch =>
    have hfits : (sh.recast ρ store').store.isUnique (ρ scratch) ∧
        ((sh.recast ρ store').store.frame (ρ scratch)).layout = layout ↔
        sh.store.isUnique scratch ∧ (sh.store.frame scratch).layout = layout := by
      have hu : (sh.recast ρ store').store.isUnique (ρ scratch) = sh.store.isUnique scratch :=
        h.isUnique scratch
      have hf : (sh.recast ρ store').store.frame (ρ scratch) = sh.store.frame scratch :=
        h.frame scratch
      rw [hu, hf]
    dsimp only [Option.map_some]
    simp only [hfits]
    split
    · exact ⟨some scratch, _, _, rfl, rfl,
        withStore h { sh.scheduler with scratch := none } sh.queue⟩
    · exact .of_rel (withStore (h₁.release scratch) { sh.scheduler with scratch := none } sh.queue)

theorem fillScratch (h : sh.Renamed ρ sh') (woven : FrameId) (top bottom : Frame) :
    (sh.fillScratch woven top bottom).Renamed ρ (sh'.fillScratch (ρ woven) top bottom) := by
  obtain ⟨h⟩ := h
  exact withStore ((h.update woven (·.weave top bottom)).retain woven)
    { sh.scheduler with scratch := some woven } sh.queue

theorem store (h : sh.Renamed ρ sh') : sh.store.Renamed ρ sh'.store := by
  obtain ⟨h⟩ := h
  exact h

theorem frame (h : sh.Renamed ρ sh') (id : FrameId) :
    sh'.store.frame (ρ id) = sh.store.frame id := h.store.frame id

theorem weave (h : sh.Renamed ρ sh') (top bottom : FrameId) :
    Matches (Except.map ρ) (Renamed ρ) (sh.weave top bottom) (sh'.weave (ρ top) (ρ bottom)) := by
  unfold Shared.weave
  rw [h.frame, h.frame]
  obtain ⟨woven, sh₁, sh₁', he, he', h₁⟩ := h.weavingFrame (sh.store.frame top).wovenLayout
  dsimp only
  rw [he, he']
  cases woven with
  | none => exact ⟨.error .outOfMemory, _, _, rfl, rfl, h₁⟩
  | some woven => exact ⟨.ok woven, _, _, rfl, rfl, h₁.fillScratch woven _ _⟩

/-- A handle is given back. -/
theorem release (h : sh.Renamed ρ sh') (id : FrameId) :
    ({ sh with store := sh.store.release id } : Shared).Renamed ρ
      { sh' with store := sh'.store.release (ρ id) } := by
  obtain ⟨h⟩ := h
  exact withStore (h.release id) sh.scheduler sh.queue

/-- The scheduler goes on, without regard to names. -/
theorem schedule (h : sh.Renamed ρ sh') {f : Scheduler → Scheduler}
    (hf : ∀ s, f (s.rename ρ) = (f s).rename ρ) :
    ({ sh with scheduler := f sh.scheduler } : Shared).Renamed ρ
      { sh' with scheduler := f sh'.scheduler } := by
  obtain ⟨h⟩ := h
  have hs := withStore h (f sh.scheduler) sh.queue
  rw [← hf] at hs
  exact hs

theorem recordOrphans (h : sh.Renamed ρ sh') (count : Nat) :
    ({ sh with scheduler := sh.scheduler.recordOrphans count } : Shared).Renamed ρ
      { sh' with scheduler := sh'.scheduler.recordOrphans count } :=
  h.schedule (f := (·.recordOrphans count)) fun _ => rfl

theorem complete (h : sh.Renamed ρ sh') (layer : Nat) (first second : Field) :
    Matches (Except.map (·.rename ρ)) (Renamed ρ) (sh.complete layer first second)
      (sh'.complete layer (first.rename ρ) (second.rename ρ)) := by
  have heven : evenLines (first.rename ρ) (second.rename ρ) =
      (evenLines first second).rename ρ := by
    have hp : (second.rename ρ).picStruct = second.picStruct := rfl
    unfold evenLines
    rw [hp]
    split <;> rfl
  have hodd : oddLines (first.rename ρ) (second.rename ρ) = (oddLines first second).rename ρ := by
    have hp : (second.rename ρ).picStruct = second.picStruct := rfl
    unfold oddLines
    rw [hp]
    split <;> rfl
  have hpicture : ∀ woven, wovenPicture layer (ρ woven) (first.rename ρ) (second.rename ρ) =
      (wovenPicture layer woven first second).rename ρ := by
    intro woven
    unfold wovenPicture
    rw [heven]
    rfl
  obtain ⟨woven, sh₁, sh₁', he, he', h₁⟩ :=
    h.weave (evenLines first second).frame (oddLines first second).frame
  have he' : sh'.weave ((evenLines first second).rename ρ).frame
    ((oddLines first second).rename ρ).frame = (woven.map ρ, sh₁') := he'
  unfold Shared.complete
  rw [heven, hodd, he, he']
  cases woven with
  | error fault => exact ⟨.error fault, _, _, rfl, rfl, (h₁.release first.frame).recordOrphans 2⟩
  | ok woven =>
    dsimp only [Except.map]
    rw [hpicture]
    exact ⟨.ok (.paired (wovenPicture layer woven first second)), _, _, rfl, rfl,
      h₁.release first.frame⟩

theorem startsPair (h : sh.Renamed ρ sh') (poc : Int) (picStruct : PicStruct) :
    sh'.scheduler.startsPair poc picStruct = sh.scheduler.startsPair poc picStruct := by
  obtain ⟨h⟩ := h
  exact sh.scheduler.startsPair_rename poc picStruct

theorem stash (h : sh.Renamed ρ sh') :
    sh'.scheduler.stash = sh.scheduler.stash.map (·.rename ρ) := by
  obtain ⟨h⟩ := h
  rfl

theorem pair (h : sh.Renamed ρ sh') (victim : Victim) :
    Matches (Except.map (·.rename ρ)) (Renamed ρ) (sh.pair victim)
      (sh'.pair (victim.rename ρ)) := by
  have hstarts : sh'.scheduler.startsPair (victim.rename ρ).poc (victim.rename ρ).picStruct =
    sh.scheduler.startsPair victim.poc victim.picStruct := h.startsPair _ _
  unfold Shared.pair
  rw [hstarts, h.stash]
  split
  · exact ⟨.ok .stashed, _, _, rfl, rfl, h.putStash victim.field⟩
  · cases sh.scheduler.stash with
    | none => exact ⟨.ok .dropped, _, _, rfl, rfl, h.recordOrphans 1⟩
    | some first =>
      have hfirst : sh'.store.frame (first.rename ρ).frame = sh.store.frame first.frame :=
        h.frame first.frame
      have hvictim : sh'.store.frame (victim.rename ρ).frame = sh.store.frame victim.frame :=
        h.frame victim.frame
      dsimp only [Option.map_some]
      rw [hfirst, hvictim]
      split
      · exact h.takeStash.complete victim.layer first victim.field
      · have hpairing : (if victim.poc % 2 = 0 then .again else .dropped : Pairing).rename ρ =
            if victim.poc % 2 = 0 then .again else .dropped := by
          split <;> rfl
        refine ⟨_, _, _, rfl, ?_, h.dropStash⟩
        rw [Except.map, hpairing]
        rfl

theorem send (h : sh.Renamed ρ sh') (picture : Picture) :
    Matches id (Renamed ρ) (sh.send picture) (sh'.send (picture.rename ρ)) := by
  obtain ⟨h⟩ := h
  have hpush : (sh.queue.rename ρ).push (picture.rename ρ) =
    (sh.queue.push picture).map (·.rename ρ) := sh.queue.push_rename picture
  unfold Shared.send
  dsimp only [recast]
  rw [hpush]
  cases sh.queue.push picture with
  | error fault =>
    exact .of_rel (withStore (h.release picture.frame)
      (sh.scheduler.recordSend picture.poc) sh.queue)
  | ok queue => exact .of_rel (withStore h (sh.scheduler.recordSend picture.poc) queue)

theorem pop (h : sh.Renamed ρ sh') (poc : Int) : (sh.pop poc).Renamed ρ (sh'.pop poc) :=
  h.schedule (f := (·.recordPop poc)) fun _ => rfl

/-- **A picture goes the same way under other names.** -/
theorem emit (h : sh.Renamed ρ sh') (victim : Victim) (dts : Option Int) :
    Matches id (Renamed ρ) (sh.emit victim dts) (sh'.emit (victim.rename ρ) dts) := by
  have hpop := h.pop victim.poc
  have hfield : (victim.rename ρ).picStruct = victim.picStruct := rfl
  have hpoc : (victim.rename ρ).poc = victim.poc := rfl
  unfold Shared.emit
  rw [hfield, hpoc]
  dsimp only
  split
  · obtain ⟨pairing, sh₁, sh₁', he, he', h₁⟩ := hpop.pair victim
    rw [he, he']
    cases pairing with
    | error fault => exact .of_rel h₁
    | ok pairing =>
      cases pairing with
      | stashed => exact .of_rel h₁
      | dropped => exact .of_rel h₁
      | again => exact .of_rel h₁
      | paired picture => exact h₁.send { picture with dts }
  · have hd := hpop.dropStash
    generalize (sh.pop victim.poc).dropStash = dropped at hd
    generalize (sh'.pop victim.poc).dropStash = dropped' at hd
    obtain ⟨hd⟩ := hd
    have hretained := withStore (hd.retain victim.frame) dropped.scheduler dropped.queue
    exact hretained.send (victim.picture dts)

end Renamed

end Shared

end PictureBuffer
