import PictureBuffer.Pairing
import PictureBuffer.Proofs.Handles

/-!
# What an emission does

`Shared.emit` hands a picture to the output process. This file says what each part of it leaves
alone and what it changes:

* `Shared.Accounted`: **every handle has a holder**. The output process holds one handle to the
  frame of each queued picture, of the stash and of the scratch frame (`Shared.frames`); all other
  handles are held elsewhere, and the emission neither takes nor leaves any of those
  (`accounted_emit`).
* `evolves_emit`: frames keep their layout, and no production that has ended is opened again.
* `queue_emit`: pictures are only added to the queue, at its end.
* `emit_faults`: an emission fails for want of memory or of room in the queue, and in no other way.
-/

namespace PictureBuffer

namespace Shared

variable {sh sh' : Shared} {id : FrameId} {others : List FrameId} {victim : Victim}

/-! ## Who holds a frame -/

/-- The frames that the output process holds, with one entry for each handle. -/
def frames (sh : Shared) : List FrameId :=
  sh.queue.pictures.map (·.frame) ++ (sh.scheduler.stash.map (·.frame)).toList
    ++ sh.scheduler.scratch.toList

/-- **Every handle has a holder**: the output process, or somebody else, who holds the frames
`others`, with one entry for each handle. -/
def Accounted (sh : Shared) (others : List FrameId) : Prop :=
  ∀ id, sh.store.handles id = (sh.frames ++ others).count id

theorem Accounted.pos (h : sh.Accounted others) (hid : id ∈ others) :
    0 < sh.store.handles id := by
  rw [h id, List.count_append]
  have := List.count_pos_iff.mpr hid
  omega

/-- The frames of the output process are held. -/
theorem Accounted.pos_own (h : sh.Accounted others) (hid : id ∈ sh.frames) :
    0 < sh.store.handles id := by
  rw [h id, List.count_append]
  have := List.count_pos_iff.mpr hid
  omega

theorem Accounted.pos_stash (h : sh.Accounted others) {field : Field}
    (hs : sh.scheduler.stash = some field) : 0 < sh.store.handles field.frame :=
  h.pos_own (by simp [frames, hs])

theorem Accounted.pos_scratch (h : sh.Accounted others) (hs : sh.scheduler.scratch = some id) :
    0 < sh.store.handles id :=
  h.pos_own (by simp [frames, hs])

theorem Accounted.pos_queue (h : sh.Accounted others) {picture : Picture}
    (hp : picture ∈ sh.queue.pictures) : 0 < sh.store.handles picture.frame := by
  refine h.pos_own ?_
  rw [frames, List.append_assoc]
  exact List.mem_append_left _ (List.mem_map_of_mem hp)

theorem Accounted.congr (h : sh.Accounted others) {others' : List FrameId}
    (hc : ∀ id, others.count id = others'.count id) : sh.Accounted others' := by
  intro id
  rw [h id, List.count_append, List.count_append, hc id]

theorem accounted_release (h : sh.Accounted (id :: others)) :
    ({ sh with store := sh.store.release id } : Shared).Accounted others := by
  intro x
  have hx := h x
  rw [List.count_append, List.count_cons] at hx
  rw [Store.handles_release, List.count_append]
  simp only [frames, beq_iff_eq, eq_comm (a := id)] at hx ⊢
  omega

theorem accounted_retain (h : sh.Accounted others) (hid : 0 < sh.store.handles id) :
    ({ sh with store := sh.store.retain id } : Shared).Accounted (id :: others) := by
  intro x
  have hx := h x
  rw [List.count_append] at hx
  rw [Store.handles_retain hid, List.count_append, List.count_cons]
  simp only [frames, beq_iff_eq, eq_comm (a := id)] at hx ⊢
  omega

/-- A handle passes from the stash to whoever empties it. -/
theorem accounted_takeStash (h : sh.Accounted others) {field : Field}
    (hs : sh.scheduler.stash = some field) {scheduler : Scheduler}
    (hn : scheduler.stash = none) (hc : scheduler.scratch = sh.scheduler.scratch) :
    ({ sh with scheduler } : Shared).Accounted (field.frame :: others) := by
  intro x
  have hx := h x
  simp only [frames, List.count_append, List.count_cons, hs, hn, hc, Option.map_some,
    Option.map_none, Option.toList_some, Option.toList_none, List.count_nil] at hx ⊢
  omega

/-- A handle passes to the empty stash. -/
theorem accounted_fillStash {field : Field} (h : sh.Accounted (field.frame :: others))
    (hs : sh.scheduler.stash = none) :
    ({ sh with scheduler := { sh.scheduler with stash := some field } } : Shared).Accounted
      others := by
  intro x
  have hx := h x
  simp only [frames, List.count_append, List.count_cons, hs, Option.map_some,
    Option.map_none, Option.toList_some, Option.toList_none, List.count_nil] at hx ⊢
  omega

/-- A handle passes from the scratch frame to whoever takes it. -/
theorem accounted_takeScratch (h : sh.Accounted others)
    (hs : sh.scheduler.scratch = some id) :
    ({ sh with scheduler := { sh.scheduler with scratch := none } } : Shared).Accounted
      (id :: others) := by
  intro x
  have hx := h x
  simp only [frames, List.count_append, List.count_cons, hs, Option.toList_some,
    Option.toList_none, List.count_nil] at hx ⊢
  omega

/-- Only the holders of the output process and the handles matter. -/
theorem Accounted.of_eq (h : sh.Accounted others) (hst : sh'.store = sh.store)
    (hq : sh'.queue.pictures = sh.queue.pictures) (hs : sh'.scheduler.stash = sh.scheduler.stash)
    (hc : sh'.scheduler.scratch = sh.scheduler.scratch) : sh'.Accounted others := by
  intro x
  rw [hst, h x]
  simp only [frames, hq, hs, hc]

/-! ## The stash -/

theorem dropStash_of_none (h : sh.scheduler.stash = none) : sh.dropStash = sh := by
  unfold dropStash
  rw [h]

theorem queue_dropStash (sh : Shared) : sh.dropStash.queue = sh.queue := by
  unfold dropStash
  split <;> rfl

theorem evolves_dropStash (sh : Shared) : sh.store.Evolves sh.dropStash.store := by
  unfold dropStash
  split
  · exact .refl _
  · exact Store.evolves_release _ _

theorem accounted_dropStash (h : sh.Accounted others) : sh.dropStash.Accounted others := by
  unfold dropStash
  split
  · exact h
  · rename_i field hs
    have ht : ({ sh with
        scheduler := { sh.scheduler.recordOrphans 1 with stash := none } } : Shared).Accounted
        (field.frame :: others) := accounted_takeStash h hs rfl rfl
    exact accounted_release ht

theorem evolves_putStash (sh : Shared) (field : Field) :
    sh.store.Evolves (sh.putStash field).store :=
  (evolves_dropStash sh).trans (Store.evolves_retain _ _)

theorem queue_putStash (sh : Shared) (field : Field) : (sh.putStash field).queue = sh.queue :=
  queue_dropStash sh

theorem accounted_putStash (h : sh.Accounted others) {field : Field} (hf : field.frame ∈ others) :
    (sh.putStash field).Accounted others := by
  have hd := accounted_dropStash h
  exact accounted_fillStash (accounted_retain hd (hd.pos hf)) (stash_dropStash sh)

/-! ## Weaving -/

theorem queue_weavingFrame (sh : Shared) (layout : Layout) :
    (sh.weavingFrame layout).2.queue = sh.queue := by
  unfold weavingFrame
  dsimp only
  split
  · rfl
  · split <;> rfl

theorem scheduler_weavingFrame (sh : Shared) (layout : Layout) :
    (sh.weavingFrame layout).2.scheduler = { sh.scheduler with scratch := none } := by
  unfold weavingFrame
  dsimp only
  split
  · rfl
  · split <;> rfl

theorem evolves_weavingFrame (sh : Shared) (layout : Layout) :
    sh.store.Evolves (sh.weavingFrame layout).2.store := by
  unfold weavingFrame
  dsimp only
  split
  · exact Store.evolves_acquire _ _ _ _
  · split
    · exact .refl _
    · exact (Store.evolves_acquire _ _ _ _).trans (Store.evolves_release _ _)

/-- There is a frame to weave into if the provider has one to give. -/
theorem isSome_weavingFrame {layout : Layout} (h : sh.store.Supplies) :
    (sh.weavingFrame layout).1.isSome = true := by
  have hs := (Store.isSome_acquire_iff sh.store layout.format layout.width layout.height).mpr h
  unfold weavingFrame
  dsimp only
  split
  · exact hs
  · split
    · rfl
    · exact hs

theorem accounted_acquire (h : sh.Accounted others) (format : Format) (width height : Nat) :
    ({ sh with store := (sh.store.acquire format width height).2 } : Shared).Accounted
      ((sh.store.acquire format width height).1.toList ++ others) := by
  intro x
  have hx := h x
  rw [Store.handles_acquire]
  simp only [frames, List.count_append] at hx ⊢
  cases (sh.store.acquire format width height).1 with
  | none =>
    simp only [Option.toList_none, List.count_nil, reduceCtorEq, if_false]
    omega
  | some id =>
    simp only [Option.toList_some, List.count_cons, List.count_nil, Option.some.injEq, beq_iff_eq]
    omega

/-- The handle to the frame to weave into is the caller's. -/
theorem accounted_weavingFrame (h : sh.Accounted others) (layout : Layout) :
    (sh.weavingFrame layout).2.Accounted ((sh.weavingFrame layout).1.toList ++ others) := by
  unfold weavingFrame
  dsimp only
  split
  · rename_i hs
    exact (accounted_acquire h _ _ _).of_eq rfl rfl rfl hs.symm
  · rename_i scratch hs
    have ht := accounted_takeScratch h hs
    split
    · exact ht
    · have ha := (accounted_acquire ht layout.format layout.width layout.height).congr
        fun x => (List.perm_middle.count_eq x)
      have hr := accounted_release ha
      exact hr

/-- A handle passes to the scratch frame, of which there was none. -/
theorem accounted_fillScratch (h : sh.Accounted (id :: others))
    (hs : sh.scheduler.scratch = none) (top bottom : Frame) :
    (sh.fillScratch id top bottom).Accounted (id :: others) := by
  have hu : ({ sh with
      store := sh.store.update id fun frame => frame.weave top bottom } : Shared).Accounted
      (id :: others) := by
    intro x
    rw [Store.handles_update]
    exact h x
  have hr := accounted_retain hu (hu.pos List.mem_cons_self)
  intro x
  have hx := hr x
  simp only [fillScratch, frames, List.count_append, List.count_cons, hs, Option.toList_some,
    Option.toList_none, List.count_nil] at hx ⊢
  omega

theorem tame_weave (top bottom : Frame) : Store.Tame (·.weave top bottom) :=
  fun _ => ⟨rfl, fun h => Store.settle_of_ne_pending h⟩

/-- **What weaving can do**: fail for want of a frame, or fill the scratch frame. -/
theorem weave_cases (sh : Shared) (top bottom : FrameId) :
    (∃ sh', sh.weavingFrame (sh.store.frame top).wovenLayout = (none, sh') ∧
      sh.weave top bottom = (.error .outOfMemory, sh')) ∨
    ∃ woven sh', sh.weavingFrame (sh.store.frame top).wovenLayout = (some woven, sh') ∧
      sh.weave top bottom =
        (.ok woven, sh'.fillScratch woven (sh.store.frame top) (sh.store.frame bottom)) := by
  unfold weave
  dsimp only
  rcases sh.weavingFrame (sh.store.frame top).wovenLayout with ⟨_ | woven, sh'⟩
  · exact Or.inl ⟨sh', rfl, rfl⟩
  · exact Or.inr ⟨woven, sh', rfl, rfl⟩

theorem queue_weave (sh : Shared) (top bottom : FrameId) :
    (sh.weave top bottom).2.queue = sh.queue := by
  have hq := queue_weavingFrame sh (sh.store.frame top).wovenLayout
  obtain ⟨sh', hw, he⟩ | ⟨woven, sh', hw, he⟩ := weave_cases sh top bottom
  · rw [hw] at hq
    rw [he]
    exact hq
  · rw [hw] at hq
    rw [he]
    exact hq

/-- Weaving changes the scratch frame and nothing else of the scheduler. -/
theorem scheduler_weave (sh : Shared) (top bottom : FrameId) :
    (sh.weave top bottom).2.scheduler =
      { sh.scheduler with scratch := (sh.weave top bottom).1.toOption } := by
  have hq := scheduler_weavingFrame sh (sh.store.frame top).wovenLayout
  obtain ⟨sh', hw, he⟩ | ⟨woven, sh', hw, he⟩ := weave_cases sh top bottom
  · rw [hw] at hq
    rw [he]
    exact hq
  · rw [hw] at hq
    dsimp only at hq
    rw [he, fillScratch, hq]
    rfl

theorem evolves_weave (sh : Shared) (top bottom : FrameId) :
    sh.store.Evolves (sh.weave top bottom).2.store := by
  have hv := evolves_weavingFrame sh (sh.store.frame top).wovenLayout
  obtain ⟨sh', hw, he⟩ | ⟨woven, sh', hw, he⟩ := weave_cases sh top bottom
  · rw [hw] at hv
    rw [he]
    exact hv
  · rw [hw] at hv
    rw [he]
    exact (hv.trans (Store.evolves_update (tame_weave _ _) _ _)).trans (Store.evolves_retain _ _)

/-- The caller owns a handle to the woven frame. -/
theorem accounted_weave (h : sh.Accounted others) (top bottom : FrameId) :
    (sh.weave top bottom).2.Accounted ((sh.weave top bottom).1.toOption.toList ++ others) := by
  have ha := accounted_weavingFrame h (sh.store.frame top).wovenLayout
  have hs := scheduler_weavingFrame sh (sh.store.frame top).wovenLayout
  obtain ⟨sh', hw, he⟩ | ⟨woven, sh', hw, he⟩ := weave_cases sh top bottom
  · rw [hw] at ha
    rw [he]
    exact ha
  · rw [hw] at ha hs
    rw [he]
    exact accounted_fillScratch ha (congrArg Scheduler.scratch hs) _ _

/-! ## Pairing -/

/-- The handle that comes with the outcome of a pairing. -/
def handed : Except Fault Pairing → List FrameId
  | .ok (.paired picture) => [picture.frame]
  | _ => []

/-- **What completing a pair can do**: fail together with the weaving, or yield the woven
picture. Either way the first field is let go. -/
theorem complete_cases (sh : Shared) (layer : Nat) (first second : Field) :
    (∃ sh', sh.weave (evenLines first second).frame (oddLines first second).frame
        = (.error .outOfMemory, sh') ∧
      sh.complete layer first second = (.error .outOfMemory,
        { sh' with
          store := sh'.store.release first.frame
          scheduler := sh'.scheduler.recordOrphans 2 })) ∨
    ∃ woven sh', sh.weave (evenLines first second).frame (oddLines first second).frame
        = (.ok woven, sh') ∧
      sh.complete layer first second = (.ok (.paired (wovenPicture layer woven first second)),
        { sh' with store := sh'.store.release first.frame }) := by
  unfold complete
  obtain ⟨sh', -, he⟩ | ⟨woven, sh', -, he⟩ :=
    weave_cases sh (evenLines first second).frame (oddLines first second).frame
  · exact Or.inl ⟨sh', he, by rw [he]⟩
  · exact Or.inr ⟨woven, _, he, by rw [he]⟩

theorem queue_complete (sh : Shared) (layer : Nat) (first second : Field) :
    (sh.complete layer first second).2.queue = sh.queue := by
  have hq := queue_weave sh (evenLines first second).frame (oddLines first second).frame
  obtain ⟨sh', hw, he⟩ | ⟨woven, sh', hw, he⟩ := complete_cases sh layer first second
  · rw [hw] at hq
    rw [he]
    exact hq
  · rw [hw] at hq
    rw [he]
    exact hq

theorem evolves_complete (sh : Shared) (layer : Nat) (first second : Field) :
    sh.store.Evolves (sh.complete layer first second).2.store := by
  have hv := evolves_weave sh (evenLines first second).frame (oddLines first second).frame
  obtain ⟨sh', hw, he⟩ | ⟨woven, sh', hw, he⟩ := complete_cases sh layer first second
  · rw [hw] at hv
    rw [he]
    exact hv.trans (Store.evolves_release _ _)
  · rw [hw] at hv
    rw [he]
    exact hv.trans (Store.evolves_release _ _)

theorem accounted_complete {first : Field} (h : sh.Accounted (first.frame :: others))
    (layer : Nat) (second : Field) :
    (sh.complete layer first second).2.Accounted
      (handed (sh.complete layer first second).1 ++ others) := by
  have ha := accounted_weave h (evenLines first second).frame (oddLines first second).frame
  obtain ⟨sh', hw, he⟩ | ⟨woven, sh', hw, he⟩ := complete_cases sh layer first second
  · rw [hw] at ha
    rw [he]
    exact (accounted_release ha).of_eq rfl rfl rfl rfl
  · rw [hw] at ha
    rw [he]
    exact accounted_release (ha.congr fun x => (List.Perm.swap _ _ _).count_eq x)

/-- **What pairing can do**: stash the field; drop it for want of a partner; complete the pair of
the stash; or drop the stash, whose layout does not fit. -/
theorem pair_cases (sh : Shared) (victim : Victim) :
    (sh.scheduler.startsPair victim.poc victim.picStruct = true ∧
      sh.pair victim = (.ok .stashed, sh.putStash victim.field)) ∨
    (sh.scheduler.startsPair victim.poc victim.picStruct = false ∧ sh.scheduler.stash = none ∧
      sh.pair victim =
        (.ok .dropped, { sh with scheduler := sh.scheduler.recordOrphans 1 })) ∨
    (∃ first, sh.scheduler.startsPair victim.poc victim.picStruct = false ∧
      sh.scheduler.stash = some first ∧
      (sh.store.frame first.frame).layout = (sh.store.frame victim.frame).layout ∧
      sh.pair victim = sh.takeStash.complete victim.layer first victim.field) ∨
    ∃ first, sh.scheduler.startsPair victim.poc victim.picStruct = false ∧
      sh.scheduler.stash = some first ∧
      (sh.store.frame first.frame).layout ≠ (sh.store.frame victim.frame).layout ∧
      sh.pair victim = (.ok (if victim.poc % 2 = 0 then .again else .dropped), sh.dropStash) := by
  unfold pair
  by_cases hp : sh.scheduler.startsPair victim.poc victim.picStruct = true
  · rw [if_pos hp]
    exact Or.inl ⟨hp, rfl⟩
  · rw [if_neg hp]
    rw [Bool.not_eq_true] at hp
    cases hs : sh.scheduler.stash with
    | none => exact Or.inr (Or.inl ⟨hp, rfl, rfl⟩)
    | some first =>
      dsimp only
      by_cases hl : (sh.store.frame first.frame).layout = (sh.store.frame victim.frame).layout
      · rw [if_pos hl]
        exact Or.inr (Or.inr (Or.inl ⟨first, hp, rfl, hl, rfl⟩))
      · rw [if_neg hl]
        exact Or.inr (Or.inr (Or.inr ⟨first, hp, rfl, hl, rfl⟩))

theorem queue_pair (sh : Shared) (victim : Victim) : (sh.pair victim).2.queue = sh.queue := by
  obtain ⟨-, he⟩ | ⟨-, -, he⟩ | ⟨first, -, -, -, he⟩ | ⟨first, -, -, -, he⟩ :=
    pair_cases sh victim
  · rw [he]
    exact queue_putStash sh _
  · rw [he]
  · rw [he]
    exact queue_complete _ _ _ _
  · rw [he]
    exact queue_dropStash sh

theorem evolves_pair (sh : Shared) (victim : Victim) :
    sh.store.Evolves (sh.pair victim).2.store := by
  obtain ⟨-, he⟩ | ⟨-, -, he⟩ | ⟨first, -, -, -, he⟩ | ⟨first, -, -, -, he⟩ :=
    pair_cases sh victim
  · rw [he]
    exact evolves_putStash sh _
  · rw [he]
    exact .refl _
  · rw [he]
    exact evolves_complete sh.takeStash _ _ _
  · rw [he]
    exact evolves_dropStash sh

theorem accounted_pair (h : sh.Accounted others) (hv : victim.frame ∈ others) :
    (sh.pair victim).2.Accounted (handed (sh.pair victim).1 ++ others) := by
  obtain ⟨-, he⟩ | ⟨-, -, he⟩ | ⟨first, -, hs, -, he⟩ | ⟨first, -, -, -, he⟩ :=
    pair_cases sh victim
  · rw [he]
    exact accounted_putStash h hv
  · rw [he]
    exact h.of_eq rfl rfl rfl rfl
  · rw [he]
    have ht : sh.takeStash.Accounted (first.frame :: others) := accounted_takeStash h hs rfl rfl
    exact accounted_complete ht _ _
  · rw [he]
    have hn : handed (.ok (if victim.poc % 2 = 0 then .again else .dropped)) = [] := by
      split <;> rfl
    rw [hn]
    exact accounted_dropStash h

/-! ## Sending -/

/-- **What sending can do**: add the picture to the queue, or let it go because the queue is
full. -/
theorem send_cases (sh : Shared) (picture : Picture) :
    (sh.queue.length < sh.queue.capacity ∧ sh.send picture = (.ok .done,
      { sh with
        scheduler := sh.scheduler.recordSend picture.poc
        queue := { sh.queue with pictures := sh.queue.pictures ++ [picture] } })) ∨
    (sh.queue.capacity ≤ sh.queue.length ∧ sh.send picture = (.error .outputQueueFull,
      { sh with
        scheduler := sh.scheduler.recordSend picture.poc
        store := sh.store.release picture.frame })) := by
  unfold send Queue.push
  by_cases hr : sh.queue.length < sh.queue.capacity
  · rw [if_pos hr]
    exact Or.inl ⟨hr, rfl⟩
  · rw [if_neg hr]
    exact Or.inr ⟨Nat.le_of_not_lt hr, rfl⟩

theorem evolves_send (sh : Shared) (picture : Picture) :
    sh.store.Evolves (sh.send picture).2.store := by
  obtain ⟨-, he⟩ | ⟨-, he⟩ := send_cases sh picture
  · rw [he]
    exact .refl _
  · rw [he]
    exact Store.evolves_release _ _

theorem accounted_send {picture : Picture} (h : sh.Accounted (picture.frame :: others)) :
    (sh.send picture).2.Accounted others := by
  obtain ⟨-, he⟩ | ⟨-, he⟩ := send_cases sh picture
  · rw [he]
    intro x
    have hx := h x
    simp only [frames, List.map_append, List.map_cons, List.map_nil, List.count_append,
      List.count_cons, List.count_nil, Scheduler.recordSend] at hx ⊢
    omega
  · rw [he]
    exact (accounted_release h).of_eq rfl rfl rfl rfl

/-! ## Emitting -/

/-- **What an emission can do**: send a frame picture in spite of the stash; or pair a field, and
send the picture if there is one. -/
theorem emit_cases (sh : Shared) (victim : Victim) (dts : Option Int) :
    (victim.picStruct.isField = false ∧
      sh.emit victim dts = ({ (sh.pop victim.poc).dropStash with
        store := (sh.pop victim.poc).dropStash.store.retain victim.frame } : Shared).send
          (victim.picture dts)) ∨
    (∃ picture sh', victim.picStruct.isField = true ∧
      (sh.pop victim.poc).pair victim = (.ok (.paired picture), sh') ∧
      sh.emit victim dts = sh'.send { picture with dts }) ∨
    ∃ result sh', victim.picStruct.isField = true ∧
      (sh.pop victim.poc).pair victim = (result, sh') ∧
      handed result = [] ∧
      sh.emit victim dts = (result.map fun p => if p = .again then .again else .done, sh') := by
  unfold emit
  dsimp only
  by_cases hf : victim.picStruct.isField = true
  · rw [if_pos hf]
    rcases (sh.pop victim.poc).pair victim with
      ⟨_ | _ | _ | _ | picture, sh'⟩
    · exact Or.inr (Or.inr ⟨_, sh', hf, rfl, rfl, rfl⟩)
    · exact Or.inr (Or.inr ⟨_, sh', hf, rfl, rfl, rfl⟩)
    · exact Or.inr (Or.inr ⟨_, sh', hf, rfl, rfl, rfl⟩)
    · exact Or.inr (Or.inr ⟨_, sh', hf, rfl, rfl, rfl⟩)
    · exact Or.inr (Or.inl ⟨picture, sh', hf, rfl, rfl⟩)
  · rw [if_neg hf]
    rw [Bool.not_eq_true] at hf
    exact Or.inl ⟨hf, rfl⟩

/-- No emission changes what the output process and the others hold, but by the handles it moves
between them. -/
theorem accounted_emit (h : sh.Accounted others) (hv : victim.frame ∈ others)
    (dts : Option Int) : (sh.emit victim dts).2.Accounted others := by
  have hp : (sh.pop victim.poc).Accounted
      others := h.of_eq rfl rfl rfl rfl
  obtain ⟨-, he⟩ | ⟨picture, sh', -, hpair, he⟩ | ⟨result, sh', -, hpair, hn, he⟩ :=
    emit_cases sh victim dts
  · rw [he]
    have hd := accounted_dropStash hp
    exact accounted_send (accounted_retain hd (hd.pos hv))
  · have ha := accounted_pair hp hv
    rw [hpair] at ha
    rw [he]
    exact accounted_send ha
  · have ha := accounted_pair hp hv
    rw [hpair] at ha
    dsimp only at ha
    rw [hn] at ha
    rw [he]
    exact ha

/-- Pictures are only added to the queue, at its end, and one at a time. -/
theorem queue_emit (sh : Shared) (victim : Victim) (dts : Option Int) :
    ∃ sent : Option Picture, (sh.emit victim dts).2.queue =
      { sh.queue with pictures := sh.queue.pictures ++ sent.toList } := by
  have kept : sh.queue = { sh.queue with
      pictures := sh.queue.pictures ++ (none : Option Picture).toList } := by simp
  have send : ∀ {sh' : Shared} (picture : Picture), sh'.queue = sh.queue →
      ∃ sent : Option Picture, (sh'.send picture).2.queue =
        { sh.queue with pictures := sh.queue.pictures ++ sent.toList } := by
    intro sh' picture hq
    obtain ⟨-, he⟩ | ⟨-, he⟩ := send_cases sh' picture
    · refine ⟨some picture, ?_⟩
      rw [he, hq]
      rfl
    · exact ⟨none, by rw [he]; exact hq.trans kept⟩
  have pair := queue_pair (sh.pop victim.poc) victim
  obtain ⟨-, he⟩ | ⟨picture, sh', -, hpair, he⟩ | ⟨result, sh', -, hpair, -, he⟩ :=
    emit_cases sh victim dts
  · rw [he]
    exact send _ (queue_dropStash (sh.pop victim.poc))
  · rw [hpair] at pair
    rw [he]
    exact send _ pair
  · rw [hpair] at pair
    rw [he]
    exact ⟨none, pair.trans kept⟩

theorem evolves_emit (sh : Shared) (victim : Victim) (dts : Option Int) :
    sh.store.Evolves (sh.emit victim dts).2.store := by
  obtain ⟨-, he⟩ | ⟨picture, sh', -, hpair, he⟩ | ⟨result, sh', -, hpair, -, he⟩ :=
    emit_cases sh victim dts
  · rw [he]
    have hd := evolves_dropStash (sh.pop victim.poc)
    have hs := evolves_send { (sh.pop victim.poc).dropStash with
      store := (sh.pop victim.poc).dropStash.store.retain victim.frame } (victim.picture dts)
    exact (hd.trans (Store.evolves_retain _ _)).trans hs
  · have hv := evolves_pair (sh.pop victim.poc) victim
    rw [hpair] at hv
    rw [he]
    exact hv.trans (evolves_send _ _)
  · have hv := evolves_pair (sh.pop victim.poc) victim
    rw [hpair] at hv
    rw [he]
    exact hv

theorem stash_complete (sh : Shared) (layer : Nat) (first second : Field) :
    (sh.complete layer first second).2.scheduler.stash = sh.scheduler.stash := by
  have hs := congrArg Scheduler.stash
    (scheduler_weave sh (evenLines first second).frame (oddLines first second).frame)
  obtain ⟨sh', hw, he⟩ | ⟨woven, sh', hw, he⟩ := complete_cases sh layer first second
  · rw [hw] at hs
    rw [he]
    exact hs
  · rw [hw] at hs
    rw [he]
    exact hs

/-- After a pairing a field waits if it was stashed by it. -/
theorem stash_pair_iff {field : Field} : (sh.pair victim).2.scheduler.stash = some field ↔
    field = victim.field ∧ sh.scheduler.startsPair victim.poc victim.picStruct = true := by
  obtain ⟨hy, he⟩ | ⟨hn, hs, he⟩ | ⟨first, hn, -, -, he⟩ | ⟨first, hn, -, -, he⟩ :=
    pair_cases sh victim
  · rw [he, hy]
    exact ⟨fun h => ⟨(Option.some.inj h).symm, rfl⟩, fun h => congrArg some h.1.symm⟩
  · simp [he, hn, hs, Scheduler.recordOrphans]
  · rw [he, hn, stash_complete]
    simp [takeStash]
  · simp [he, hn, stash_dropStash]

theorem stash_send (sh : Shared) (picture : Picture) :
    (sh.send picture).2.scheduler.stash = sh.scheduler.stash := by
  obtain ⟨-, he⟩ | ⟨-, he⟩ := send_cases sh picture <;> rw [he] <;> rfl

/-- **After an emission, a field waits** exactly if it is the victim's and starts a pair. -/
theorem stash_emit_iff {dts : Option Int} {field : Field} :
    (sh.emit victim dts).2.scheduler.stash = some field ↔ field = victim.field ∧
      victim.picStruct.isField = true ∧
      sh.scheduler.startsPair victim.poc victim.picStruct = true := by
  have hpair := @stash_pair_iff (sh.pop victim.poc) victim field
  have hpop : (sh.pop victim.poc).scheduler.startsPair victim.poc victim.picStruct =
      sh.scheduler.startsPair victim.poc victim.picStruct := rfl
  rw [hpop] at hpair
  obtain ⟨hf, he⟩ | ⟨picture, sh', hf, hp, he⟩ | ⟨result, sh', hf, hp, -, he⟩ :=
    emit_cases sh victim dts
  · rw [he, stash_send, hf]
    simp [stash_dropStash]
  · rw [hp] at hpair
    rw [he, stash_send, hpair, hf]
    simp
  · rw [hp] at hpair
    rw [he, hpair, hf]
    simp

/-- No field waits after an emission but the one that was emitted. -/
theorem stash_emit {dts : Option Int} {field : Field}
    (h : (sh.emit victim dts).2.scheduler.stash = some field) :
    field = victim.field ∧ victim.picStruct.isField = true :=
  ⟨(stash_emit_iff.mp h).1, (stash_emit_iff.mp h).2.1⟩

/-- Whoever completes a pair can only run out of memory. -/
theorem complete_faults {layer : Nat} {first second : Field} {fault : Fault}
    (h : (sh.complete layer first second).1 = .error fault) : fault = .outOfMemory := by
  obtain ⟨sh', -, he⟩ | ⟨woven, sh', -, he⟩ := complete_cases sh layer first second
  · rw [he] at h
    exact (Except.error.inj h).symm
  · rw [he] at h
    cases h

theorem pair_faults {fault : Fault} (h : (sh.pair victim).1 = .error fault) :
    fault = .outOfMemory := by
  obtain ⟨-, he⟩ | ⟨-, -, he⟩ | ⟨first, -, -, -, he⟩ | ⟨first, -, -, -, he⟩ :=
    pair_cases sh victim
  · rw [he] at h
    cases h
  · rw [he] at h
    cases h
  · rw [he] at h
    exact complete_faults h
  · rw [he] at h
    cases h

/-- **An emission fails for want of memory or of room in the queue**, and in no other way. -/
theorem emit_faults {dts : Option Int} {fault : Fault}
    (h : (sh.emit victim dts).1 = .error fault) :
    fault = .outOfMemory ∨ fault = .outputQueueFull := by
  have sent : ∀ {sh : Shared} {picture : Picture}, (sh.send picture).1 = .error fault →
      fault = .outputQueueFull := by
    intro sh picture hsend
    obtain ⟨-, he⟩ | ⟨-, he⟩ := send_cases sh picture
    · rw [he] at hsend
      cases hsend
    · rw [he] at hsend
      exact (Except.error.inj hsend).symm
  obtain ⟨-, he⟩ | ⟨picture, sh', -, hpair, he⟩ | ⟨result, sh', -, hpair, -, he⟩ :=
    emit_cases sh victim dts
  · rw [he] at h
    exact Or.inr (sent h)
  · rw [he] at h
    exact Or.inr (sent h)
  · rw [he] at h
    cases result with
    | ok p => cases h
    | error fault' =>
      cases h
      exact Or.inl (pair_faults (congrArg Prod.fst hpair))

end Shared

end PictureBuffer
