import PictureBuffer.Scheduler

/-!
# Handles and frames of the store

Every operation of the store is described by what it does to one cell (`cell?_…`). Two views of
a store follow from it:

* the **handle counts**: `retain`, `release`, `insert` and `acquire` move the count of one frame
  by one, and everything else leaves the counts alone (`handles_…`);
* the **life of a frame** (`Store.Evolves`): whatever happens to a frame that stays in the store,
  its layout stays, and its production ends at most once. Identifiers are never used twice, so
  this relates a store to any later one.
-/

namespace PictureBuffer

namespace Store

variable {store a b c : Store} {id x : FrameId}

/-! ## One cell -/

theorem cell?_of_le (h : store.cells.size ≤ id) : store.cell? id = none := by
  rw [cell?, Array.getElem?_eq_none h]
  rfl

theorem lt_size_of_cell? {cell : Cell} (h : store.cell? id = some cell) :
    id < store.cells.size := by
  rcases Nat.lt_or_ge id store.cells.size with hlt | hge
  · exact hlt
  · rw [cell?_of_le hge] at h
    cases h

/-- The cells after one of them was changed in place. -/
theorem cell?_modify (cells : Array (Option Cell)) (id x : FrameId) (f : Cell → Cell) :
    (cells.modify id (·.map f))[x]?.join =
      if x = id then (cells[x]?.join).map f else cells[x]?.join := by
  rw [Array.getElem?_modify]
  by_cases h : id = x
  · subst h
    rw [if_pos rfl, if_pos rfl]
    cases hc : cells[id]? <;> rfl
  · rw [if_neg h, if_neg (Ne.symm h)]

theorem cell?_retain (store : Store) (id x : FrameId) :
    (store.retain id).cell? x =
      if x = id then (store.cell? x).map fun cell => { cell with handles := cell.handles + 1 }
      else store.cell? x :=
  cell?_modify store.cells id x _

theorem cell?_update (store : Store) (id x : FrameId) (f : Frame → Frame) :
    (store.update id f).cell? x =
      if x = id then (store.cell? x).map fun cell => { cell with frame := f cell.frame }
      else store.cell? x :=
  cell?_modify store.cells id x _

theorem cell?_insert (store : Store) (frame : Frame) (pooled : Bool) (x : FrameId) :
    (store.insert frame pooled).2.cell? x =
      if x = store.cells.size then some ⟨frame, pooled, 1⟩ else store.cell? x := by
  simp only [insert, cell?, Array.getElem?_push]
  split <;> rfl

/-- Giving back a handle frees the frame with the last one. -/
theorem cell?_release (store : Store) (id x : FrameId) :
    (store.release id).cell? x =
      if x = id then
        (store.cell? x).bind fun cell =>
          if cell.handles ≤ 1 then none else some { cell with handles := cell.handles - 1 }
      else store.cell? x := by
  unfold release
  cases hc : store.cell? id with
  | none =>
    by_cases h : x = id
    · subst h
      rw [if_pos rfl, hc]
      rfl
    · rw [if_neg h]
  | some cell =>
    have hlt := lt_size_of_cell? hc
    have hset : ∀ new : Option Cell, (store.cells.setIfInBounds id new)[x]?.join =
        if x = id then new else store.cell? x := by
      intro new
      rw [Array.getElem?_setIfInBounds]
      by_cases h : id = x
      · subst h
        rw [if_pos rfl, if_pos hlt, if_pos rfl]
        rfl
      · rw [if_neg h, if_neg (Ne.symm h)]
        rfl
    by_cases hx : x = id
    · subst hx
      rw [if_pos rfl, hc, Option.bind_some]
      dsimp only
      split
      · exact (hset none).trans (if_pos rfl)
      · exact (hset _).trans (if_pos rfl)
    · rw [if_neg hx]
      dsimp only
      split
      · exact (hset none).trans (if_neg hx)
      · exact (hset _).trans (if_neg hx)

/-- A handle more changes no frame. -/
theorem frame?_retain (store : Store) (id x : FrameId) :
    (store.retain id).frame? x = store.frame? x := by
  unfold frame?
  rw [cell?_retain]
  split
  · cases store.cell? x <;> rfl
  · rfl

theorem layout_retain (store : Store) (id x : FrameId) :
    ((store.retain id).frame x).layout = (store.frame x).layout := by
  rw [frame, frame?_retain, frame]

theorem size_retain (store : Store) (id : FrameId) :
    (store.retain id).cells.size = store.cells.size := by
  simp [retain]

theorem size_update (store : Store) (id : FrameId) (f : Frame → Frame) :
    (store.update id f).cells.size = store.cells.size := by
  simp [update]

theorem size_release (store : Store) (id : FrameId) :
    (store.release id).cells.size = store.cells.size := by
  unfold release
  split
  · rfl
  · split <;> simp

theorem size_retainAll (ids : List FrameId) : ∀ store : Store,
    (store.retainAll ids).cells.size = store.cells.size := by
  induction ids with
  | nil => exact fun _ => rfl
  | cons id ids ih => exact fun store => (ih (store.retain id)).trans (size_retain store id)

theorem size_releaseAll (ids : List FrameId) : ∀ store : Store,
    (store.releaseAll ids).cells.size = store.cells.size := by
  induction ids with
  | nil => exact fun _ => rfl
  | cons id ids ih => exact fun store => (ih (store.release id)).trans (size_release store id)

/-! ## Handle counts -/

theorem cell?_of_handles_pos (h : 0 < store.handles id) : ∃ cell, store.cell? id = some cell := by
  unfold handles at h
  cases hc : store.cell? id with
  | none => rw [hc] at h; exact absurd h (Nat.lt_irrefl 0)
  | some cell => exact ⟨cell, rfl⟩

theorem lt_size_of_handles_pos (h : 0 < store.handles id) : id < store.cells.size := by
  obtain ⟨cell, hc⟩ := cell?_of_handles_pos h
  exact lt_size_of_cell? hc

theorem handles_retain (h : 0 < store.handles id) (x : FrameId) :
    (store.retain id).handles x = store.handles x + if x = id then 1 else 0 := by
  unfold handles
  rw [cell?_retain]
  by_cases hx : x = id
  · subst hx
    obtain ⟨cell, hc⟩ := cell?_of_handles_pos h
    rw [if_pos rfl, if_pos rfl, hc]
    rfl
  · rw [if_neg hx, if_neg hx, Nat.add_zero]

/-- Frames that are held get one more handle for each mention. -/
theorem handles_retainAll (x : FrameId) (ids : List FrameId) : ∀ store : Store,
    (∀ id ∈ ids, 0 < store.handles id) →
    (store.retainAll ids).handles x = store.handles x + ids.count x := by
  induction ids with
  | nil => exact fun store _ => rfl
  | cons id ids ih =>
    intro store h
    have hr := fun y => handles_retain (h id List.mem_cons_self) y
    have hi := ih (store.retain id) fun y hy => by
      rw [hr]
      exact Nat.add_pos_left (h y (List.mem_cons_of_mem id hy)) _
    rw [hr] at hi
    simp only [retainAll, List.foldl_cons, List.count_cons, beq_iff_eq, eq_comm (a := id)]
      at hi ⊢
    omega

theorem handles_release (store : Store) (id x : FrameId) :
    (store.release id).handles x = store.handles x - if x = id then 1 else 0 := by
  unfold handles
  rw [cell?_release]
  by_cases hx : x = id
  · subst hx
    rw [if_pos rfl, if_pos rfl]
    cases store.cell? x with
    | none => rfl
    | some cell =>
      rw [Option.bind_some]
      split
      · simp only [Option.elim_none, Option.elim_some]
        omega
      · rfl
  · rw [if_neg hx, if_neg hx, Nat.sub_zero]

theorem handles_releaseAll (x : FrameId) (ids : List FrameId) : ∀ store : Store,
    (store.releaseAll ids).handles x = store.handles x - ids.count x := by
  induction ids with
  | nil => exact fun store => rfl
  | cons id ids ih =>
    intro store
    have hr := handles_release store id x
    have hi := ih (store.release id)
    simp only [releaseAll, List.foldl_cons, List.count_cons, beq_iff_eq, eq_comm (a := id)]
      at hi ⊢
    omega

theorem handles_update (store : Store) (id x : FrameId) (f : Frame → Frame) :
    (store.update id f).handles x = store.handles x := by
  unfold handles
  rw [cell?_update]
  split
  · cases store.cell? x <;> rfl
  · rfl

theorem handles_insert (store : Store) (frame : Frame) (pooled : Bool) (x : FrameId) :
    (store.insert frame pooled).2.handles x =
      store.handles x + if x = store.cells.size then 1 else 0 := by
  unfold handles
  rw [cell?_insert]
  by_cases hx : x = store.cells.size
  · rw [if_pos hx, if_pos hx, cell?_of_le (Nat.le_of_eq hx.symm)]
    rfl
  · rw [if_neg hx, if_neg hx, Nat.add_zero]

/-- The handles after a request to the provider: one to the new frame, if it has one to give. -/
theorem handles_acquire (store : Store) (format : Format) (width height : Nat) (x : FrameId) :
    (store.acquire format width height).2.handles x =
      store.handles x + if (store.acquire format width height).1 = some x then 1 else 0 := by
  have given : ∀ (frame : Frame) (pooled : Bool),
      (({ store with acquisitions := store.acquisitions + 1 } : Store).insert frame
        pooled).2.handles x =
          store.handles x + if some store.cells.size = some x then 1 else 0 := by
    intro frame pooled
    rw [handles_insert]
    simp only [Option.some.injEq, eq_comm (a := x)]
    rfl
  unfold acquire
  dsimp only
  split
  · rfl
  · exact given _ _
  · split
    · exact given _ _
    · rfl

/-- A frame that was just acquired was unknown before. -/
theorem size_le_of_acquire {format : Format} {width height : Nat} {store' : Store}
    (h : store.acquire format width height = (some id, store')) :
    store.cells.size ≤ id ∧ id < store'.cells.size := by
  unfold acquire at h
  dsimp only at h
  split at h
  · cases h
  · cases h
    simp [insert]
  · split at h
    · cases h
      simp [insert]
    · cases h

theorem handles_attachAll (id x : FrameId) (sideData : List SideData) : ∀ store : Store,
    (store.attachAll id sideData).2.handles x = store.handles x := by
  induction sideData with
  | nil => exact fun _ => rfl
  | cons data rest ih =>
    intro store
    unfold attachAll attach
    dsimp only
    split
    · rename_i h
      split at h
      · cases h
        exact (ih _).trans (handles_update _ id x _)
      · cases h
    · rename_i h
      split at h
      · cases h
      · cases h
        rfl

/-- The provider has a frame to give at the next request. -/
def Supplies (store : Store) : Prop :=
  match store.provider.supply store.acquisitions with
  | .refused => False
  | .own _ => True
  | .pooled => store.provider.budget.all (store.outstanding < ·) = true

instance (store : Store) : Decidable store.Supplies := by
  unfold Supplies
  split <;> infer_instance

theorem isSome_acquire_iff (store : Store) (format : Format) (width height : Nat) :
    (store.acquire format width height).1.isSome = true ↔ store.Supplies := by
  unfold acquire Supplies
  cases store.provider.supply store.acquisitions with
  | refused => simp
  | own planes => simp
  | pooled =>
    dsimp only
    split
    · simp_all
    · simp_all

/-! ## The life of a frame -/

/-- **`b` is a later state of `a`**: of the frames of `a` that are still there, the layouts are
the same, and productions that had ended ended as they did. -/
structure Evolves (a b : Store) : Prop where
  size_le : a.cells.size ≤ b.cells.size
  frames : ∀ {id new}, id < a.cells.size → b.frame? id = some new →
    ∃ old, a.frame? id = some old ∧ new.layout = old.layout ∧
      (old.progress ≠ .pending → new.progress = old.progress)

theorem Evolves.refl (a : Store) : a.Evolves a :=
  ⟨Nat.le_refl _, fun _ h => ⟨_, h, rfl, fun _ => rfl⟩⟩

/-- The counters of a store are no part of its frames. -/
theorem Evolves.of_cells_eq (h : b.cells = a.cells) : a.Evolves b := by
  refine ⟨Nat.le_of_eq (congrArg Array.size h).symm, fun {id new} _ hnew => ?_⟩
  refine ⟨new, ?_, rfl, fun _ => rfl⟩
  rwa [frame?, cell?, ← h]

theorem Evolves.trans (hab : a.Evolves b) (hbc : b.Evolves c) : a.Evolves c := by
  refine ⟨Nat.le_trans hab.size_le hbc.size_le, fun {id new} hlt hnew => ?_⟩
  obtain ⟨mid, hmid, hl, hp⟩ := hbc.frames (Nat.lt_of_lt_of_le hlt hab.size_le) hnew
  obtain ⟨old, hold, hl', hp'⟩ := hab.frames hlt hmid
  refine ⟨old, hold, hl.trans hl', fun hne => ?_⟩
  have hmp := hp' hne
  rw [hp (by rw [hmp]; exact hne), hmp]

/-- What one operation does to a frame, without changing its layout or reopening it. -/
def Tame (f : Frame → Frame) : Prop :=
  ∀ frame, (f frame).layout = frame.layout ∧
    (frame.progress ≠ .pending → (f frame).progress = frame.progress)

theorem settle_of_ne_pending {progress outcome : Progress} (h : progress ≠ .pending) :
    progress.settle outcome = progress := by
  cases progress with
  | pending => exact absurd rfl h
  | produced => rfl
  | cancelled => rfl

theorem evolves_retain (store : Store) (id : FrameId) : store.Evolves (store.retain id) := by
  refine ⟨Nat.le_of_eq (size_retain store id).symm, fun {x new} _ hnew => ?_⟩
  rw [frame?_retain] at hnew
  exact ⟨new, hnew, rfl, fun _ => rfl⟩

theorem evolves_release (store : Store) (id : FrameId) : store.Evolves (store.release id) := by
  refine ⟨Nat.le_of_eq (size_release store id).symm, fun {x new} _ hnew => ?_⟩
  refine ⟨new, ?_, rfl, fun _ => rfl⟩
  unfold frame? at hnew ⊢
  rw [cell?_release] at hnew
  split at hnew
  · cases hc : store.cell? x with
    | none => rw [hc] at hnew; cases hnew
    | some cell =>
      rw [hc, Option.bind_some] at hnew
      split at hnew
      · cases hnew
      · exact hnew
  · exact hnew

theorem evolves_releaseAll (ids : List FrameId) : ∀ store : Store,
    store.Evolves (store.releaseAll ids) := by
  induction ids with
  | nil => exact Evolves.refl
  | cons id ids ih => exact fun store => (evolves_release store id).trans (ih (store.release id))

theorem evolves_retainAll (ids : List FrameId) : ∀ store : Store,
    store.Evolves (store.retainAll ids) := by
  induction ids with
  | nil => exact Evolves.refl
  | cons id ids ih => exact fun store => (evolves_retain store id).trans (ih (store.retain id))

theorem evolves_update {f : Frame → Frame} (hf : Tame f) (store : Store) (id : FrameId) :
    store.Evolves (store.update id f) := by
  refine ⟨Nat.le_of_eq (size_update store id f).symm, fun {x new} _ hnew => ?_⟩
  unfold frame? at hnew ⊢
  rw [cell?_update] at hnew
  split at hnew
  · cases hc : store.cell? x with
    | none => rw [hc] at hnew; cases hnew
    | some cell =>
      rw [hc] at hnew
      cases hnew
      exact ⟨cell.frame, rfl, hf cell.frame⟩
  · exact ⟨new, hnew, rfl, fun _ => rfl⟩

theorem evolves_insert (store : Store) (frame : Frame) (pooled : Bool) :
    store.Evolves (store.insert frame pooled).2 := by
  refine ⟨by simp [insert], fun {x new} hlt hnew => ?_⟩
  refine ⟨new, ?_, rfl, fun _ => rfl⟩
  unfold frame? at hnew ⊢
  rwa [cell?_insert, if_neg (Nat.ne_of_lt hlt)] at hnew

theorem evolves_acquire (store : Store) (format : Format) (width height : Nat) :
    store.Evolves (store.acquire format width height).2 := by
  have asked : store.Evolves { store with acquisitions := store.acquisitions + 1 } :=
    .of_cells_eq rfl
  unfold acquire
  dsimp only
  split
  · exact asked
  · exact asked.trans (evolves_insert _ _ _)
  · split
    · exact asked.trans (evolves_insert _ _ _)
    · exact asked

/-! ## Handles that change hands -/

/-- Somebody who held the frames `held` now holds the frames `held'`, one handle for each mention,
and the handles of the store have changed with it. -/
def Exchange (held held' : List FrameId) (store store' : Store) : Prop :=
  ∀ x, held.count x ≤ store.handles x →
    store'.handles x + held.count x = store.handles x + held'.count x

theorem exchange_of_eq (held : List FrameId) (h : ∀ x, b.handles x = a.handles x) :
    Exchange held held a b := by
  intro x _
  rw [h]

/-- Frames that are given up are released. -/
theorem exchange_releaseAll {held held' gone : List FrameId}
    (h : ∀ x, held'.count x + gone.count x = held.count x) (store : Store) :
    Exchange held held' store (store.releaseAll gone) := by
  intro x hle
  have hx := h x
  rw [handles_releaseAll]
  omega

end Store

end PictureBuffer
