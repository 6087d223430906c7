import Mathlib.Data.Finset.Card
import PictureBuffer.Proofs.StoreOperations
import PictureBuffer.Proofs.Teardown

/-!
# No frame of the pool is lost

The frames of the pool that are outstanding are those that somebody holds, each counted once, and
there are never more of them than the budget allows. This is so in every state of every run
(`no_leak`), and rests on three things:

* `Store.Balanced`: each operation of a store keeps the number of outstanding frames at the number
  of frames of the pool in use, within the budget. So does all that is done by operations
  (`Leads.balanced`), hence every event.
* `mem_heldFrames_iff`: a frame is in use if and only if somebody holds it.
* `Called`: a run with the list of the commands that its decoders carried out. After a flush that
  has ended, the decoder holds no frame until it carries out another command, and nothing waits in
  the stash until some decoder does. The scratch frame is left, and goes with the last decoder.
-/

namespace PictureBuffer

/-! ## The pool -/

/-- Whatever the provider gives comes from its pool. -/
def Provider.Pools (provider : Provider) : Prop := ∀ n planes, provider.supply n ≠ .own planes

namespace Store

variable {provider : Provider} {a b store : Store} {id : FrameId} {cell : Cell}

/-- The frames of the pool that are in use. -/
def pooledIds (store : Store) : Finset FrameId :=
  (Finset.range store.cells.size).filter fun id => (store.cell? id).any (·.pooled) = true

theorem mem_pooledIds : id ∈ store.pooledIds ↔
    ∃ cell, store.cell? id = some cell ∧ cell.pooled = true := by
  simp only [pooledIds, Finset.mem_filter, Finset.mem_range, Option.any_eq_true]
  constructor
  · rintro ⟨-, hc⟩
    exact hc
  · rintro ⟨cell, hc, hp⟩
    exact ⟨lt_size_of_cell? hc, cell, hc, hp⟩

/-- Frames that change in place, and handles that come and go, do not matter. -/
theorem pooledIds_congr
    (h : ∀ id, (b.cell? id).map (·.pooled) = (a.cell? id).map (·.pooled)) :
    b.pooledIds = a.pooledIds := by
  have any : ∀ (store : Store) (id : FrameId),
      id ∈ store.pooledIds ↔ (store.cell? id).map (·.pooled) = some true := by
    intro store id
    rw [mem_pooledIds, Option.map_eq_some_iff]
  ext id
  rw [any, any, h]

theorem pooledIds_insert (store : Store) (frame : Frame) (pooled : Bool) :
    (store.insert frame pooled).2.pooledIds =
      if pooled then Insert.insert store.cells.size store.pooledIds else store.pooledIds := by
  ext id
  rw [mem_pooledIds, cell?_insert]
  by_cases hid : id = store.cells.size
  · subst hid
    have hnone : store.cell? store.cells.size = none := cell?_of_le (Nat.le_refl _)
    cases pooled <;> simp [mem_pooledIds, hnone]
  · cases pooled <;> simp [mem_pooledIds, hid]

/-- The last handle to a frame is given back. -/
theorem pooledIds_release_last (hc : store.cell? id = some cell) (hl : cell.handles ≤ 1) :
    (store.release id).pooledIds = store.pooledIds.erase id := by
  ext x
  rw [Finset.mem_erase, mem_pooledIds, cell?_release, mem_pooledIds]
  by_cases hx : x = id
  · subst hx
    simp [hc, hl]
  · simp [hx]

/-- **A store whose pool is in balance**: each frame in it is in use, those of the pool that are in
use are the outstanding ones, and they are within the budget. -/
structure Balanced (provider : Provider) (store : Store) : Prop where
  source : store.provider = provider
  held : ∀ id cell, store.cell? id = some cell → 0 < cell.handles
  outstanding : store.outstanding = store.pooledIds.card
  within : ∀ budget, provider.budget = some budget → store.outstanding ≤ budget

theorem balanced_new (provider : Provider) : Balanced provider { provider } :=
  ⟨rfl, fun _ _ hc => by simp [cell?] at hc, rfl, fun _ _ => Nat.zero_le _⟩

/-- The pool is the same, and every frame in use is still in use. -/
theorem Balanced.of_cells (h : Balanced provider a) (hp : b.provider = a.provider)
    (ho : b.outstanding = a.outstanding)
    (hc : ∀ id cell, b.cell? id = some cell → 0 < cell.handles)
    (hpooled : ∀ id, (b.cell? id).map (·.pooled) = (a.cell? id).map (·.pooled)) :
    Balanced provider b := by
  refine ⟨hp.trans h.source, hc, ?_, ?_⟩
  · rw [ho, pooledIds_congr hpooled]
    exact h.outstanding
  · rw [ho]
    exact h.within

theorem Balanced.retain (h : Balanced provider store) (id : FrameId) :
    Balanced provider (store.retain id) := by
  refine h.of_cells rfl rfl ?_ ?_
  · intro x cell hc
    rw [cell?_retain] at hc
    split at hc
    · obtain ⟨old, -, rfl⟩ := Option.map_eq_some_iff.mp hc
      exact Nat.succ_pos _
    · exact h.held x cell hc
  · intro x
    rw [cell?_retain]
    split
    · cases store.cell? x <;> rfl
    · rfl

theorem Balanced.update (h : Balanced provider store) (id : FrameId) (f : Frame → Frame) :
    Balanced provider (store.update id f) := by
  refine h.of_cells rfl rfl ?_ ?_
  · intro x cell hc
    rw [cell?_update] at hc
    split at hc
    · obtain ⟨old, hold, rfl⟩ := Option.map_eq_some_iff.mp hc
      exact h.held x old hold
    · exact h.held x cell hc
  · intro x
    rw [cell?_update]
    split
    · cases store.cell? x <;> rfl
    · rfl

theorem release_last (hc : store.cell? id = some cell) (hl : cell.handles ≤ 1) :
    (store.release id).provider = store.provider ∧
      (store.release id).outstanding = store.outstanding - cell.pooled.toNat := by
  unfold release
  rw [hc]
  dsimp only
  rw [if_pos hl]
  exact ⟨rfl, rfl⟩

theorem release_not_last (h : ∀ cell, store.cell? id = some cell → 1 < cell.handles) :
    (store.release id).provider = store.provider ∧
      (store.release id).outstanding = store.outstanding := by
  unfold release
  split
  · exact ⟨rfl, rfl⟩
  · rename_i cell hc
    rw [if_neg (Nat.not_le.mpr (h cell hc))]
    exact ⟨rfl, rfl⟩

/-- **A frame of the pool goes back to it with the last handle**, and not before. -/
theorem Balanced.release (h : Balanced provider store) (id : FrameId) :
    Balanced provider (store.release id) := by
  have hheld : ∀ x cell, (store.release id).cell? x = some cell → 0 < cell.handles := by
    intro x cell hc
    rw [cell?_release] at hc
    split at hc
    · obtain ⟨old, hold, hnew⟩ := Option.bind_eq_some_iff.mp hc
      split at hnew
      · cases hnew
      · cases hnew
        dsimp only
        omega
    · exact h.held x cell hc
  by_cases hlast : ∃ cell, store.cell? id = some cell ∧ cell.handles ≤ 1
  · obtain ⟨cell, hc, hl⟩ := hlast
    obtain ⟨hprovider, houtstanding⟩ := release_last hc hl
    have hmem : id ∈ store.pooledIds ↔ cell.pooled = true := by
      rw [mem_pooledIds, hc]
      simp
    refine ⟨hprovider.trans h.source, hheld, ?_, ?_⟩
    · rw [houtstanding, pooledIds_release_last hc hl, Finset.card_erase_eq_ite, h.outstanding]
      simp only [hmem]
      cases cell.pooled <;> rfl
    · intro budget hb
      have hle := h.within budget hb
      omega
  · have hmore : ∀ cell, store.cell? id = some cell → 1 < cell.handles :=
      fun cell hc => Nat.lt_of_not_le fun hl => hlast ⟨cell, hc, hl⟩
    obtain ⟨hprovider, houtstanding⟩ := release_not_last hmore
    refine h.of_cells hprovider houtstanding hheld fun x => ?_
    rw [cell?_release]
    split
    · rename_i hx
      subst hx
      cases hc : store.cell? x with
      | none => rfl
      | some cell =>
        rw [Option.bind_some, if_neg (Nat.not_le.mpr (hmore cell hc))]
        rfl
    · rfl

theorem Balanced.insert (h : Balanced provider store) (frame : Frame) (pooled : Bool)
    (hroom : pooled = true → ∀ budget, provider.budget = some budget → store.outstanding < budget) :
    Balanced provider (store.insert frame pooled).2 := by
  have hfresh : store.cells.size ∉ store.pooledIds := by
    rw [mem_pooledIds, cell?_of_le (Nat.le_refl _)]
    simp
  refine ⟨h.source, ?_, ?_, ?_⟩
  · intro x cell hc
    rw [cell?_insert] at hc
    split at hc
    · cases hc
      exact Nat.one_pos
    · exact h.held x cell hc
  · rw [pooledIds_insert]
    cases pooled with
    | false => exact h.outstanding
    | true =>
      rw [if_pos rfl, Finset.card_insert_of_notMem hfresh, ← h.outstanding]
      rfl
  · intro budget hb
    cases pooled with
    | false => exact h.within budget hb
    | true => exact hroom rfl budget hb

/-- **The pool gives out no frame beyond its budget.** -/
theorem Balanced.acquire (h : Balanced provider store) (format : Format) (width height : Nat) :
    Balanced provider (store.acquire format width height).2 := by
  have asked : Balanced provider { store with acquisitions := store.acquisitions + 1 } :=
    h.of_cells rfl rfl h.held fun _ => rfl
  unfold Store.acquire
  dsimp only
  split
  · exact asked
  · exact asked.insert _ false (by simp)
  · split
    · rename_i hroom
      refine asked.insert _ true fun _ budget hb => ?_
      rw [h.source, hb] at hroom
      simpa using hroom
    · exact asked

theorem Balanced.attach (h : Balanced provider store) (id : FrameId) (data : SideData) :
    Balanced provider (store.attach id data).2 := by
  have asked : Balanced provider { store with attachments := store.attachments + 1 } :=
    h.of_cells rfl rfl h.held fun _ => rfl
  unfold Store.attach
  dsimp only
  split
  · dsimp only
    exact asked.update id _
  · exact asked

/-- **No operation of the store upsets the balance of the pool.** -/
theorem Leads.balanced (hl : Leads a b) (h : Balanced provider a) : Balanced provider b := by
  induction hl with
  | refl => exact h
  | retain _ id ih => exact ih.retain id
  | release _ id ih => exact ih.release id
  | update _ id f _ ih => exact ih.update id f
  | acquire _ format width height ih => exact ih.acquire format width height
  | attach _ id data ih => exact ih.attach id data

/-! ### Providers with a pool and nothing else -/

/-- **Every frame is one of the pool.** -/
structure Pooled (provider : Provider) (store : Store) : Prop where
  source : store.provider = provider
  frames : ∀ id cell, store.cell? id = some cell → cell.pooled = true

theorem pooled_new (provider : Provider) : Pooled provider { provider } :=
  ⟨rfl, fun _ _ hc => by simp [cell?] at hc⟩

/-- Frames that change in place, and handles that come and go, do not matter. -/
theorem Pooled.of_cells (h : Pooled provider a) (hp : b.provider = a.provider)
    (hc : ∀ id new, b.cell? id = some new →
      ∃ old, a.cell? id = some old ∧ new.pooled = old.pooled) : Pooled provider b := by
  refine ⟨hp.trans h.source, fun id new hnew => ?_⟩
  obtain ⟨old, hold, hpooled⟩ := hc id new hnew
  rw [hpooled]
  exact h.frames id old hold

theorem Pooled.retain (h : Pooled provider store) (id : FrameId) :
    Pooled provider (store.retain id) := by
  refine h.of_cells rfl fun x new hnew => ?_
  rw [cell?_retain] at hnew
  split at hnew
  · obtain ⟨old, hold, rfl⟩ := Option.map_eq_some_iff.mp hnew
    exact ⟨old, hold, rfl⟩
  · exact ⟨new, hnew, rfl⟩

theorem Pooled.update (h : Pooled provider store) (id : FrameId) (f : Frame → Frame) :
    Pooled provider (store.update id f) := by
  refine h.of_cells rfl fun x new hnew => ?_
  rw [cell?_update] at hnew
  split at hnew
  · obtain ⟨old, hold, rfl⟩ := Option.map_eq_some_iff.mp hnew
    exact ⟨old, hold, rfl⟩
  · exact ⟨new, hnew, rfl⟩

theorem provider_release (store : Store) (id : FrameId) :
    (store.release id).provider = store.provider := by
  unfold Store.release
  split
  · rfl
  · split <;> rfl

theorem Pooled.release (h : Pooled provider store) (id : FrameId) :
    Pooled provider (store.release id) := by
  refine h.of_cells (provider_release store id) fun x new hnew => ?_
  rw [cell?_release] at hnew
  split at hnew
  · obtain ⟨old, hold, hkept⟩ := Option.bind_eq_some_iff.mp hnew
    split at hkept
    · cases hkept
    · cases hkept
      exact ⟨old, hold, rfl⟩
  · exact ⟨new, hnew, rfl⟩

theorem Pooled.acquire (h : Pooled provider store) (hpools : provider.Pools) (format : Format)
    (width height : Nat) : Pooled provider (store.acquire format width height).2 := by
  have asked : Pooled provider { store with acquisitions := store.acquisitions + 1 } :=
    ⟨h.source, h.frames⟩
  unfold Store.acquire
  dsimp only
  split
  · exact asked
  · rename_i planes hown
    rw [h.source] at hown
    exact absurd hown (hpools _ planes)
  · split
    · refine ⟨h.source, fun id cell hc => ?_⟩
      rw [cell?_insert] at hc
      split at hc
      · cases hc
        rfl
      · exact h.frames id cell hc
    · exact asked

theorem Pooled.attach (h : Pooled provider store) (id : FrameId) (data : SideData) :
    Pooled provider (store.attach id data).2 := by
  have asked : Pooled provider { store with attachments := store.attachments + 1 } :=
    ⟨h.source, h.frames⟩
  unfold Store.attach
  dsimp only
  split
  · dsimp only
    exact asked.update id _
  · exact asked

/-- **No other frame comes in** if the provider has none. -/
theorem Leads.pooled (hl : Leads a b) (hpools : provider.Pools) (h : Pooled provider a) :
    Pooled provider b := by
  induction hl with
  | refl => exact h
  | retain _ id ih => exact ih.retain id
  | release _ id ih => exact ih.release id
  | update _ id f _ ih => exact ih.update id f
  | acquire _ format width height ih => exact ih.acquire hpools format width height
  | attach _ id data ih => exact ih.attach id data

/-- All frames are outstanding then. -/
theorem Pooled.mem_pooledIds (h : Pooled provider store) :
    id ∈ store.pooledIds ↔ ∃ cell, store.cell? id = some cell := by
  rw [Store.mem_pooledIds]
  exact ⟨fun ⟨cell, hc, _⟩ => ⟨cell, hc⟩, fun ⟨cell, hc⟩ => ⟨cell, hc, h.frames id cell hc⟩⟩

end Store

/-! ## Who is left to hold a frame -/

theorem held_eq_nil {α : Type} {frames : α → List FrameId} {xs : List (Option α)}
    (h : ∀ x, some x ∈ xs → frames x = []) : held frames xs = [] := by
  refine List.flatMap_eq_nil_iff.mpr fun x hx => ?_
  cases x with
  | none => rfl
  | some x => exact h x hx

theorem Decoder.Emptied.frames_eq_nil {d : Decoder} (h : d.Emptied) : d.layers.frames = [] := by
  have empty : ∀ (n : Nat) (dpb : Dpb), (∀ i, d.slot? ⟨n, i⟩ = dpb.slot? i) → dpb.frames = [] := by
    intro n dpb hs
    refine List.filterMap_eq_nil_iff.mpr fun slot hslot => ?_
    obtain ⟨i, hi⟩ := List.mem_iff_getElem?.mp hslot
    exact (h.slots ⟨n, i⟩ slot ((hs i).trans hi)).2
  rw [Layers.frames, empty 0 _ fun _ => rfl, empty 1 _ fun _ => rfl]
  rfl

namespace Session

variable {config : Config} {provider : Provider} {log : List Moment} {s : Session} {e : Event}
  {i : Nat}

/-- The frames that somebody holds: the output process, a slot of a decoder, or the client. -/
def heldFrames (s : Session) : List FrameId :=
  s.shared.frames ++ (held (·.layers.frames) s.contexts ++
    held (fun picture => [picture.frame]) s.kept)

/-- The frames of the pool that somebody holds, each once. -/
def pooledFrames (s : Session) : Finset FrameId :=
  s.heldFrames.toFinset.filter fun id => (s.shared.store.cell? id).any (·.pooled) = true

/-- The pool is in balance, in every state of every run. -/
theorem balanced_run (run : Run config provider log s) :
    Store.Balanced provider s.shared.store := by
  induction run with
  | start => exact Store.balanced_new provider
  | step run e ih => exact (leads_step _ e).balanced ih

/-- A provider that has nothing but a pool gives nothing else in any run. -/
theorem pooled_run (hpools : provider.Pools) (run : Run config provider log s) :
    Store.Pooled provider s.shared.store := by
  induction run with
  | start => exact Store.pooled_new provider
  | step run e ih => exact (leads_step _ e).pooled hpools ih

/-- A frame is in use if and only if somebody holds it. -/
theorem mem_heldFrames_iff (run : Run config provider log s) (x : FrameId) :
    x ∈ s.heldFrames ↔ ∃ cell, s.shared.store.cell? x = some cell := by
  have hcount : s.shared.store.handles x = s.heldFrames.count x := accounted_run run x
  rw [← List.count_pos_iff, ← hcount]
  constructor
  · exact Store.cell?_of_handles_pos
  · rintro ⟨cell, hc⟩
    rw [Store.handles, hc]
    exact (balanced_run run).held x cell hc

/-- The frames of the pool that are in use are those that somebody holds. -/
theorem pooledIds_eq (run : Run config provider log s) :
    s.shared.store.pooledIds = s.pooledFrames := by
  ext x
  rw [Store.mem_pooledIds, pooledFrames, Finset.mem_filter, List.mem_toFinset,
    mem_heldFrames_iff run, Option.any_eq_true]
  constructor
  · rintro ⟨cell, hc, hp⟩
    exact ⟨⟨cell, hc⟩, cell, hc, hp⟩
  · exact fun h => h.2

/-- Without a decoder nothing reaches the output process any more. -/
theorem frames_step_of_closed (h : ∀ i, s.context? i = none) (e : Event) :
    (s.step e).2.shared.frames = s.shared.frames := by
  have hd : ∀ i, s.decoder? i = none := fun i => by rw [decoder?, h i]; rfl
  cases e with
  | run i command => simp only [step, hd]
  | fork i => simp only [step, h]
  | close i => simp only [step, h]
  | work i slot work => simp only [step, hd, Option.bind_none]
  | take i all keep => simp only [step, h]
  | letGo i =>
    dsimp only [step]
    cases s.kept[i]?.join <;> rfl

/-- The step after which no decoder is left has closed the last one. -/
theorem eq_close_of_closed {context : Context} (hc : s.context? i = some context) {e : Event}
    (h : ∀ j, (s.step e).2.context? j = none) :
    ∃ j last, (s.step e).2 = s.close j last := by
  have hstepped := s.stepped e
  generalize hs : (s.step e).2 = s' at hstepped h
  cases hstepped with
  | @ran j d command hd =>
    have hran := (decoder?_eq (decoder?_setDecoder hd (d.run command).2)).1
    exact absurd (hran.symm.trans (h j)) (by simp)
  | forked hf => exact absurd ((context?_fork_self _).symm.trans (h s.contexts.length)) (by simp)
  | @closed j shared hev hsize hstash =>
    rw [← hs] at h ⊢
    dsimp only [step] at h ⊢
    cases hj : s.context? j with
    | none =>
      rw [hj] at h
      exact absurd (hc.symm.trans (h i)) (by simp)
    | some last => exact ⟨j, last, rfl⟩
  | served => exact absurd (hc.symm.trans (h i)) (by simp)

/-- The output process is closed with the last decoder. -/
theorem frames_close {context : Context} (h : ∀ j, (s.close i context).context? j = none) :
    (s.close i context).shared.frames = [] := by
  dsimp only [close] at h ⊢
  split
  · rfl
  · rename_i hnum
    rw [if_neg hnum] at h
    refine absurd (List.countP_eq_zero.mpr fun entry hentry => ?_) hnum
    obtain ⟨k, hk⟩ := List.mem_iff_getElem?.mp hentry
    have hnone := h k
    rw [context?, hk] at hnone
    rw [show entry = none from hnone]
    simp

/-- **Closing the last decoder closes the output process**, which then holds nothing any more. -/
theorem frames_of_closed (run : Run config provider log s) (h : ∀ i, s.context? i = none) :
    s.shared.frames = [] := by
  induction run with
  | start => exact absurd (h 0) (by simp [start, context?])
  | @step log s run e ih =>
    by_cases hclosed : ∀ i, s.context? i = none
    · exact (frames_step_of_closed hclosed e).trans (ih hclosed)
    · obtain ⟨i, hi⟩ := not_forall.mp hclosed
      obtain ⟨context, hc⟩ := Option.ne_none_iff_exists'.mp hi
      obtain ⟨j, last, hs⟩ := eq_close_of_closed hc h
      rw [hs] at h ⊢
      exact frames_close h

/-! ## The commands of a run -/

/-- A command that a decoder carried out, and what it answered. -/
structure Call where
  decoder : Nat
  command : Command
  reply : Reply

/-- The call is a flush that has ended, whether it failed or not. -/
def Call.Flushes (call : Call) : Prop :=
  call.command = .flush ∧
    ∃ result, call.reply = .ended result ∧ ∀ frame, result ≠ .ok (.waiting frame)

/-- The command that an event has a decoder carry out. -/
def calls (s : Session) : Event → List Call
  | .run i command =>
    match s.decoder? i with
    | none => []
    | some d => [⟨i, command, (d.run command).1⟩]
  | _ => []

/-- **A run with the commands that its decoders carried out**, in order. -/
inductive Called (config : Config) (provider : Provider) : List Call → Session → Prop
  | start : Called config provider [] (start config provider)
  | step {calls : List Call} {s : Session} (h : Called config provider calls s) (e : Event) :
      Called config provider (calls ++ s.calls e) (s.step e).2

/-- The last command that decoder `i` carried out. -/
def lastCall? (calls : List Call) (i : Nat) : Option Call :=
  (calls.filter (·.decoder = i)).getLast?

/-- **Every decoder was flushed last**: the last command of each one that is there was a flush that
has ended; and so was the last of all commands, in case a decoder that is gone carried it out. -/
structure Flushed (s : Session) (calls : List Call) : Prop where
  each : ∀ i context, s.context? i = some context →
    ∃ call, lastCall? calls i = some call ∧ call.Flushes
  last : ∀ call, calls.getLast? = some call → call.Flushes

variable {calls : List Call} {call : Call}

theorem Called.run (h : Called config provider calls s) : ∃ log, Run config provider log s := by
  induction h with
  | start => exact ⟨_, .start⟩
  | step h e ih =>
    obtain ⟨log, run⟩ := ih
    exact ⟨_, run.step e⟩

theorem called_of_run (run : Run config provider log s) :
    ∃ calls, Called config provider calls s := by
  induction run with
  | start => exact ⟨_, .start⟩
  | step run e ih =>
    obtain ⟨calls, h⟩ := ih
    exact ⟨_, h.step e⟩

theorem calls_cases (s : Session) (e : Event) : s.calls e = [] ∨
    ∃ i d command, s.decoder? i = some d ∧ e = .run i command ∧
      s.calls e = [⟨i, command, (d.run command).1⟩] := by
  cases e with
  | run i command =>
    cases hd : s.decoder? i with
    | none => exact Or.inl (by simp only [calls, hd])
    | some d => exact Or.inr ⟨i, d, command, hd, rfl, by simp only [calls, hd]⟩
  | _ => exact Or.inl rfl

theorem lastCall?_concat_self (calls : List Call) (call : Call) :
    lastCall? (calls ++ [call]) call.decoder = some call := by
  simp [lastCall?, List.filter_append]

/-- The last call of a decoder that others do not make. -/
theorem lastCall?_of_ne (h : ∀ command, e ≠ .run i command) (calls : List Call) :
    lastCall? (calls ++ s.calls e) i = lastCall? calls i := by
  obtain hn | ⟨j, d, command, -, rfl, hc⟩ := s.calls_cases e
  · rw [hn, List.append_nil]
  · have hj : j ≠ i := fun hj => h command (by rw [hj])
    rw [hc]
    simp [lastCall?, List.filter_append, hj]

theorem mem_of_lastCall? (h : lastCall? calls i = some call) : call ∈ calls ∧ call.decoder = i := by
  have hm := List.mem_filter.mp (List.mem_of_getLast? h)
  exact ⟨hm.1, of_decide_eq_true hm.2⟩

/-- Only decoders that are or were there carry out commands. -/
theorem Called.decoder_lt (h : Called config provider calls s) :
    ∀ call ∈ calls, call.decoder < s.contexts.length := by
  induction h with
  | start =>
    intro call hm
    cases hm
  | @step calls s h e ih =>
    intro call hm
    refine Nat.lt_of_lt_of_le ?_ (length_contexts_step s e)
    rcases List.mem_append.mp hm with hold | hnew
    · exact ih call hold
    · obtain hn | ⟨i, d, command, hd, -, hc⟩ := s.calls_cases e
      · rw [hn] at hnew
        cases hnew
      · rw [hc] at hnew
        obtain rfl := List.mem_singleton.mp hnew
        exact lt_length_of_context? (decoder?_eq hd).1

/-- If every decoder that ever was there was flushed last, those that are there were. -/
theorem Called.flushed (h : Called config provider calls s)
    (hall : ∀ i < s.contexts.length, ∃ call, lastCall? calls i = some call ∧ call.Flushes) :
    s.Flushed calls := by
  refine ⟨fun i context hc => hall i (lt_length_of_context? hc), fun call hl => ?_⟩
  obtain ⟨before, rfl⟩ := List.getLast?_eq_some_iff.mp hl
  obtain ⟨last, hlast, hflushes⟩ := hall call.decoder (h.decoder_lt call (by simp))
  rw [lastCall?_concat_self] at hlast
  cases hlast
  exact hflushes

/-- A flush that has ended leaves nothing in its decoder's buffers and nothing in the stash. -/
theorem emptied_of_flushes {d : Decoder} {command : Command}
    (h : Call.Flushes ⟨i, command, (d.run command).1⟩) : (d.run command).2.Emptied := by
  obtain ⟨rfl, result, hr, hwaits⟩ := h
  cases hr
  exact Decoder.emptied_flush hwaits

/-- **A decoder that was flushed last holds no frame.** -/
theorem Called.frames_eq_nil (h : Called config provider calls s) {context : Context}
    (hc : s.context? i = some context) (hl : lastCall? calls i = some call)
    (hf : call.Flushes) : context.layers.frames = [] := by
  induction h generalizing i context call with
  | start => cases hl
  | @step calls s h e ih =>
    by_cases hrun : ∃ command, e = .run i command
    · obtain ⟨command, rfl⟩ := hrun
      cases hd : s.decoder? i with
      | none =>
        simp only [Session.step, hd] at hc
        exact absurd hd (by simp [decoder?, hc])
      | some d =>
        have hcalls : s.calls (.run i command) = [⟨i, command, (d.run command).1⟩] := by
          simp only [Session.calls, hd]
        rw [hcalls, lastCall?_concat_self] at hl
        cases hl
        have hcontext := (decoder?_eq (decoder?_run hd command)).1
        obtain rfl := Option.some.inj (hcontext.symm.trans hc)
        exact (emptied_of_flushes hf).frames_eq_nil
    · have hne : ∀ command, e ≠ .run i command := fun command he => hrun ⟨command, he⟩
      rw [lastCall?_of_ne hne] at hl
      obtain ⟨hm, rfl⟩ := mem_of_lastCall? hl
      have hd : (s.step e).2.decoder? call.decoder =
          some { toContext := context, toShared := (s.step e).2.shared } := by
        rw [decoder?, hc]
        rfl
      obtain ⟨old, hold, ⟨command, he, -⟩ | rfl⟩ := decoder?_of_step (h.decoder_lt call hm) hd
      · exact absurd he (hne command)
      · exact ih (decoder?_eq hold).1 hl hf

/-- **Nothing waits in the stash if a flush was the last of all commands.** -/
theorem Called.stash_eq_none (h : Called config provider calls s)
    (hl : ∀ call, calls.getLast? = some call → call.Flushes) :
    s.shared.scheduler.stash = none := by
  induction h with
  | start => rfl
  | @step calls s h e ih =>
    have hstepped := s.stepped e
    obtain hn | ⟨i, d, command, hd, rfl, hc⟩ := s.calls_cases e
    · rw [hn, List.append_nil] at hl
      have hnone := ih hl
      generalize (s.step e).2 = s' at hstepped ⊢
      cases hstepped with
      | ran hd => simp [Session.calls, hd] at hn
      | forked => exact hnone
      | @closed i shared hev hsize hstash =>
        cases hs : shared.scheduler.stash with
        | none => rfl
        | some field => exact absurd (hnone.symm.trans (hstash field hs)) (by simp)
      | served => exact hnone
    · rw [hc] at hl
      have hflushes := hl _ List.getLast?_concat
      have hshared := (decoder?_eq (decoder?_run hd command)).2
      rw [← hshared]
      exact (emptied_of_flushes hflushes).stash

/-- **No frame of the pool is lost**, in any state of any run. The outstanding frames are as many as
the frames of the pool that somebody holds, and within the budget. If every decoder was flushed last
and neither the queue nor the client holds a picture, at most the scratch frame is outstanding; and
none is once every decoder is gone. -/
theorem no_leak (h : Called config provider calls s) :
    (∀ budget, provider.budget = some budget → s.shared.store.outstanding ≤ budget) ∧
    s.shared.store.outstanding = s.pooledFrames.card ∧
    (s.Flushed calls → s.shared.queue.pictures = [] → (∀ picture, some picture ∉ s.kept) →
      s.shared.store.outstanding ≤ 1 ∧
        ∀ x ∈ s.pooledFrames, s.shared.scheduler.scratch = some x) ∧
    ((∀ i, s.context? i = none) → (∀ picture, some picture ∉ s.kept) →
      s.shared.store.outstanding = 0) := by
  obtain ⟨log, run⟩ := h.run
  have hbalanced := balanced_run run
  have hcard : s.shared.store.outstanding = s.pooledFrames.card := by
    rw [hbalanced.outstanding, pooledIds_eq run]
  have hclient : (∀ picture, some picture ∉ s.kept) →
      held (fun picture : Picture => [picture.frame]) s.kept = [] :=
    fun hk => held_eq_nil fun picture hp => absurd hp (hk picture)
  have mem_contexts : ∀ context, some context ∈ s.contexts → ∃ i, s.context? i = some context := by
    intro context hm
    obtain ⟨i, hi⟩ := List.mem_iff_getElem?.mp hm
    exact ⟨i, by rw [context?, hi]; rfl⟩
  refine ⟨hbalanced.within, hcard, fun hflushed hqueue hkept => ?_, fun hclosed hkept => ?_⟩
  · have hcontexts : held (fun c : Context => c.layers.frames) s.contexts = [] := by
      refine held_eq_nil fun context hm => ?_
      obtain ⟨i, hc⟩ := mem_contexts context hm
      obtain ⟨call, hl, hf⟩ := hflushed.each i context hc
      exact h.frames_eq_nil hc hl hf
    have hheld : s.heldFrames = s.shared.scheduler.scratch.toList := by
      rw [heldFrames, hcontexts, hclient hkept, Shared.frames, hqueue,
        h.stash_eq_none hflushed.last]
      simp
    have hscratch : ∀ x ∈ s.pooledFrames, s.shared.scheduler.scratch = some x := by
      intro x hx
      rw [pooledFrames, Finset.mem_filter, List.mem_toFinset, hheld] at hx
      exact Option.mem_toList.mp hx.1
    refine ⟨?_, hscratch⟩
    rw [hcard, Finset.card_le_one]
    intro x hx y hy
    exact Option.some.inj ((hscratch x hx).symm.trans (hscratch y hy))
  · have hcontexts : held (fun c : Context => c.layers.frames) s.contexts = [] := by
      refine held_eq_nil fun context hm => ?_
      obtain ⟨i, hc⟩ := mem_contexts context hm
      exact absurd (hc.symm.trans (hclosed i)) (by simp)
    rw [hcard, pooledFrames, heldFrames, frames_of_closed run hclosed, hcontexts, hclient hkept]
    rfl

/-- A pool of three frames. -/
def threeFrames : Provider := { budget := some 3 }

/-- The picture woven from two fields was output and is gone, and a copy was made of the decoder. -/
def pairTaken : Session :=
  (start {} threeFrames).afterAll
    (twoFields .topField .bottomField ++ [drainBase, .take 0 true false, .fork 0])

/-- Both decoders were flushed. -/
def pairFlushed : Session := ((pairTaken.step (.run 0 .flush)).2.step (.run 1 .flush)).2

/-- Both decoders are closed. -/
def pairClosed : Session := ((pairFlushed.step (.close 0)).2.step (.close 1)).2

theorem flushes_of_settled {d : Decoder} (hd : s.decoder? i = some d)
    (hf : d.flush.1.toOption = some .settled) (calls : List Call) :
    ∃ call, (calls ++ s.calls (.run i .flush)).getLast? = some call ∧
      lastCall? (calls ++ s.calls (.run i .flush)) i = some call ∧ call.Flushes := by
  have hcalls : s.calls (.run i .flush) = [⟨i, .flush, .ended d.flush.1⟩] := by
    simp only [Session.calls, hd]
    rfl
  rw [hcalls]
  refine ⟨_, List.getLast?_concat, lastCall?_concat_self calls _, rfl, _, rfl, fun frame hw => ?_⟩
  rw [hw] at hf
  cases hf

/-- Three frames are outstanding at first, the scratch frame after the flushes, none at the end. -/
theorem pairTaken_no_leak : ∃ calls, Called {} threeFrames calls pairFlushed ∧
    pairFlushed.Flushed calls ∧ pairTaken.shared.store.outstanding = 3 ∧
    pairFlushed.shared.store.outstanding = pairFlushed.pooledFrames.card ∧
    pairFlushed.shared.store.outstanding = 1 ∧
    (∀ x ∈ pairFlushed.pooledFrames, pairFlushed.shared.scheduler.scratch = some x) ∧
    pairClosed.shared.store.outstanding = 0 := by
  obtain ⟨calls, h⟩ : ∃ calls, Called {} threeFrames calls pairTaken :=
    called_of_run (run_all _ .start)
  obtain ⟨d, hd⟩ : ∃ d, pairTaken.decoder? 0 = some d := ⟨_, rfl⟩
  obtain ⟨d', hd'⟩ : ∃ d', (pairTaken.step (.run 0 .flush)).2.decoder? 1 = some d' := ⟨_, rfl⟩
  have hflush : d.flush.1.toOption = some .settled := by
    cases hd
    decide +kernel
  have hflush' : d'.flush.1.toOption = some .settled := by
    cases hd'
    decide +kernel
  have hcalled : Called {} threeFrames (calls ++ pairTaken.calls (.run 0 .flush) ++
      (pairTaken.step (.run 0 .flush)).2.calls (.run 1 .flush)) pairFlushed :=
    (h.step (.run 0 .flush)).step (.run 1 .flush)
  obtain ⟨first, -, hfirst, hfirstFlushes⟩ := flushes_of_settled hd hflush calls
  obtain ⟨second, hlatest, hsecond, hsecondFlushes⟩ :=
    flushes_of_settled hd' hflush' (calls ++ pairTaken.calls (.run 0 .flush))
  have hflushed : pairFlushed.Flushed (calls ++ pairTaken.calls (.run 0 .flush) ++
      (pairTaken.step (.run 0 .flush)).2.calls (.run 1 .flush)) := by
    refine ⟨fun i context hc => ?_, fun call hl => ?_⟩
    · match i with
      | 0 => exact ⟨first, (lastCall?_of_ne (by simp) _).trans hfirst, hfirstFlushes⟩
      | 1 => exact ⟨second, hsecond, hsecondFlushes⟩
      | i + 2 => cases hc
    · obtain rfl := Option.some.inj (hlatest.symm.trans hl)
      exact hsecondFlushes
  have hqueue : pairFlushed.shared.queue.pictures = [] := by decide +kernel
  have hkept : pairFlushed.kept = [] ∧ pairClosed.kept = [] := by decide +kernel
  have hgone : ∀ i, pairClosed.context? i = none
    | 0 | 1 | _ + 2 => rfl
  obtain ⟨-, hcard, hscratch, -⟩ := no_leak hcalled
  obtain ⟨-, -, -, hclosed⟩ := no_leak ((hcalled.step (.close 0)).step (.close 1))
  refine ⟨_, hcalled, hflushed, by decide +kernel, hcard, by decide +kernel,
    (hscratch hflushed hqueue (by simp [hkept.1])).2, hclosed hgone fun picture hp => ?_⟩
  rw [show ((pairFlushed.step (.close 0)).2.step (.close 1)).2.kept = [] from hkept.2] at hp
  cases hp

end Session

end PictureBuffer
