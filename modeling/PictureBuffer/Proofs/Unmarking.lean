import PictureBuffer.Proofs.EarlyReleases
import PictureBuffer.Proofs.Victims

/-!
# Reference marking and output

Taking the reference marking off the pictures of a layer, and an output pass, may be exchanged
(`Session.unmarking_commutes`): the decoder is the same afterwards, with everything that it shares.

Either of them may release slots that the other one goes through, but this does not matter.

* A pass chooses among the pictures that wait for output, and those keep their slots when only the
  marking is taken off (`Decoder.nextVictim?_unmarked`). What the marking also decides is how full a
  layer is, so a pass must not go by that: it leaves the layers as full as they can be
  (`Decoder.Roomy`).
* Of a slot that both of them strip, it does not matter which comes first (`Slot.strip_comm`). The
  frame is given up by the second one in either order, so the same frames are given up by both
  together (`Layers.count_unmark`, `Layers.count_without`).
* Frames that are given up earlier do not matter to the output process, unless it fails for want of
  memory (`Shared.emit_releaseAll`).
-/

namespace PictureBuffer

/-! ## The buffers -/

namespace Slot

variable {slot : Slot} {on : Bool}

/-- The slot without its reference marking, if `on` is set. -/
def unmark (on : Bool) (slot : Slot) : Slot := if on then slot.strip .references else slot

/-- The frame given up by `unmark`. -/
def unmarkFrees (on : Bool) (slot : Slot) : Option FrameId :=
  if on then slot.freed .references else none

theorem poc_unmark (on : Bool) (slot : Slot) : (slot.unmark on).poc = slot.poc := by
  cases on with
  | false => rfl
  | true => exact poc_strip .references slot

theorem output_unmark (on : Bool) (slot : Slot) :
    (slot.unmark on).flags.output = slot.flags.output := by
  cases on with
  | false => rfl
  | true =>
    have hflags : (slot.unmark true).flags = slot.flags.without .references :=
      flags_strip .references slot
    rw [hflags]
    simp [Flags.without, Flags.references]

/-- A picture that waits for output loses nothing but flags. -/
theorem unmark_of_output (ho : slot.flags.output = true) (on : Bool) :
    ∃ flags, slot.unmark on = { slot with flags } := by
  cases on with
  | false => exact ⟨slot.flags, rfl⟩
  | true =>
    refine ⟨slot.flags.without .references, ?_⟩
    change slot.strip .references = _
    exact if_neg (by simp [Flags.isEmpty, Flags.without, Flags.references, ho])

theorem strip_unmark (on : Bool) (mask : Flags) (slot : Slot) :
    (slot.unmark on).strip mask = (slot.strip mask).unmark on := by
  cases on with
  | false => rfl
  | true => exact strip_comm .references mask slot

end Slot

namespace Layers

/-- The buffers once layer `n` has lost its reference marking. -/
def unmark (layers : Layers) (n : Nat) : Layers where
  base := { layers.base with
    dpb := { layers.base.dpb with slots := layers.base.dpb.slots.map (·.unmark (n == 0)) } }
  enhancement := { layers.enhancement with
    dpb := { layers.enhancement.dpb with
      slots := layers.enhancement.dpb.slots.map (·.unmark (n == 1)) } }

/-- The frames given up by `unmark`, one handle each. -/
def unmarkFrees (layers : Layers) (n : Nat) : List FrameId :=
  layers.base.dpb.slots.filterMap (·.unmarkFrees (n == 0)) ++
    layers.enhancement.dpb.slots.filterMap (·.unmarkFrees (n == 1))

/-- The frame given up when the output flag is taken off a slot. -/
def outputFrees (layers : Layers) (ref : SlotRef) : List FrameId :=
  (((layers.get? ref.layer).bind (·.dpb.slot? ref.index)).bind (·.freed .waiting)).toList

/-- The handles of the slots are either kept or given up. -/
theorem count_unmark (layers : Layers) (n : Nat) (x : FrameId) :
    (layers.unmark n).frames.count x + (layers.unmarkFrees n).count x = layers.frames.count x := by
  have hbase := Dpb.count_frames_stripWhere (fun _ => n == 0) .references x layers.base.dpb.slots
  have henhancement :=
    Dpb.count_frames_stripWhere (fun _ => n == 1) .references x layers.enhancement.dpb.slots
  simp only [frames, unmarkFrees, unmark, Dpb.frames, List.count_append] at hbase henhancement ⊢
  unfold Slot.unmark Slot.unmarkFrees
  omega

theorem count_without (layers : Layers) (ref : SlotRef) (x : FrameId) :
    (layers.without [ref]).frames.count x + (layers.outputFrees ref).count x =
      layers.frames.count x := by
  obtain ⟨n, i⟩ := ref
  have stripped : ∀ (dpb : Dpb) (m : Nat), (dpb.without m [⟨m, i⟩]).frames.count x +
      ((dpb.slot? i).bind (·.freed .waiting)).toList.count x = dpb.frames.count x := by
    intro dpb m
    rw [Dpb.without_singleton]
    exact Dpb.count_frames_modify_strip .waiting x dpb.slots i
  match n with
  | 0 =>
    have hbase := stripped layers.base.dpb 0
    simp only [without, frames, List.count_append, outputFrees, get?, Option.bind_some]
    rw [Dpb.without_of_ne layers.enhancement.dpb Nat.zero_ne_one]
    omega
  | 1 =>
    have henhancement := stripped layers.enhancement.dpb 1
    simp only [without, frames, List.count_append, outputFrees, get?, Option.bind_some]
    rw [Dpb.without_of_ne layers.base.dpb Nat.one_ne_zero]
    omega
  | n + 2 =>
    have hnone : layers.outputFrees ⟨n + 2, i⟩ = [] := rfl
    rw [hnone]
    unfold without
    rw [Dpb.without_of_ne _ (Nat.succ_ne_zero _),
      Dpb.without_of_ne _ (fun h => Nat.succ_ne_zero n (Nat.succ.inj h))]
    rfl

theorem without_unmark (layers : Layers) (n : Nat) (gone : List SlotRef) :
    (layers.unmark n).without gone = (layers.without gone).unmark n := by
  have hdpb : ∀ (dpb : Dpb) (m : Nat) (on : Bool),
      ({ dpb with slots := dpb.slots.map (·.unmark on) } : Dpb).without m gone =
        { dpb with slots := (dpb.without m gone).slots.map (·.unmark on) } := by
    intro dpb m on
    unfold Dpb.without
    rw [Dpb.mk.injEq]
    refine ⟨rfl, List.ext_getElem? fun i => ?_⟩
    simp only [List.getElem?_map, List.getElem?_mapIdx, Option.map_map]
    congr 1
    funext slot
    dsimp only [Function.comp_apply]
    split
    · exact slot.strip_unmark on .waiting
    · rfl
  unfold unmark without
  dsimp only
  rw [hdpb, hdpb]
  rfl

/-- **The same frames are given up in either order.** -/
theorem frees_perm (layers : Layers) (n : Nat) (ref : SlotRef) :
    (layers.unmarkFrees n ++ (layers.unmark n).outputFrees ref).Perm
      (layers.outputFrees ref ++ (layers.without [ref]).unmarkFrees n) := by
  refine List.perm_iff_count.mpr fun x => ?_
  have hboth := congrArg (fun l => l.frames.count x) (layers.without_unmark n [ref])
  have hunmark := layers.count_unmark n x
  have houtput := (layers.unmark n).count_without ref x
  have houtput' := layers.count_without ref x
  have hunmark' := (layers.without [ref]).count_unmark n x
  simp only [List.count_append] at hboth ⊢
  omega

end Layers

/-! ## Decoders -/

namespace Decoder

variable {d d' : Decoder} {n : Nat} {ref : SlotRef} {slot : Slot} {pass : OutputPass}
  {provider : Provider} {others : List FrameId}

/-- The decoder once layer `n` has lost its reference marking. -/
def unmarked (d : Decoder) (n : Nat) : Decoder :=
  { d with layers := d.layers.unmark n, store := d.store.releaseAll (d.layers.unmarkFrees n) }

theorem unmarkAll_eq (d : Decoder) (n : Nat) : (d.unmarkAll n).2 = d.unmarked n := by
  have off : ∀ dpb : Dpb, dpb.slots.map (·.unmark false) = dpb.slots :=
    fun dpb => List.map_id _
  have none : ∀ dpb : Dpb, dpb.slots.filterMap (·.unmarkFrees false) = [] :=
    fun dpb => List.filterMap_eq_nil_iff.mpr fun _ _ => rfl
  unfold unmarked Layers.unmark Layers.unmarkFrees
  match n with
  | 0 =>
    have h : ((0 : Nat) == 1) = false := rfl
    rw [h, off, none, List.append_nil]
    rfl
  | 1 =>
    have h : ((1 : Nat) == 0) = false := rfl
    rw [h, off, none, List.nil_append]
    rfl
  | n + 2 =>
    have h : (n + 2 == 0) = false := rfl
    have h' : (n + 2 == 1) = false := rfl
    rw [h, h', off, off, none, none]
    rfl

theorem stripOutput_frees (d : Decoder) (ref : SlotRef) : d.stripOutput ref =
    { d with
      layers := d.layers.without [ref]
      store := d.store.releaseAll (d.layers.outputFrees ref) } := by
  have hlayers := d.layers_stripOutput ref
  obtain ⟨n, i⟩ := ref
  rw [← hlayers]
  match n with
  | 0 | 1 | n + 2 => rfl

/-- **Both flags may be taken off in either order.** -/
theorem stripOutput_unmarked (d : Decoder) (n : Nat) (ref : SlotRef) :
    (d.unmarked n).stripOutput ref = (d.stripOutput ref).unmarked n := by
  have hstore := Store.releaseAll_perm (d.layers.frees_perm n ref) d.store
  rw [Store.releaseAll_append, Store.releaseAll_append] at hstore
  rw [stripOutput_frees, stripOutput_frees]
  unfold unmarked
  dsimp only
  rw [Layers.without_unmark, hstore]

/-! ## The next victim -/

/-- No layer can hold more pictures than the pass leaves. -/
def Roomy (d : Decoder) (pass : OutputPass) : Prop :=
  ∀ n layer, pass.active.testBit n = true → d.layer? n = some layer →
    layer.dpb.capacity ≤ pass.maxInUse

theorem Roomy.overfull (h : d.Roomy pass) : d.overfull pass.active pass.maxInUse = false :=
  overfull_eq_false_iff.mpr fun n layer hactive hlayer =>
    Nat.le_trans List.countP_le_length (h n layer hactive hlayer)

/-- Only the number of slots matters. -/
theorem Roomy.of_layers (h : d.Roomy pass)
    (hb : d'.layers.base.dpb.capacity = d.layers.base.dpb.capacity)
    (he : d'.layers.enhancement.dpb.capacity = d.layers.enhancement.dpb.capacity) :
    d'.Roomy pass := by
  intro n layer hactive hlayer
  match n with
  | 0 =>
    cases hlayer
    exact Nat.le_trans (Nat.le_of_eq hb) (h 0 _ hactive rfl)
  | 1 =>
    cases hlayer
    exact Nat.le_trans (Nat.le_of_eq he) (h 1 _ hactive rfl)
  | n + 2 => cases hlayer

theorem Roomy.unmarked (h : d.Roomy pass) (n : Nat) : (d.unmarked n).Roomy pass :=
  h.of_layers (List.length_map _) (List.length_map _)

theorem Roomy.bump (h : d.Roomy pass) (ref : SlotRef) (slot : Slot) :
    (d.bump pass ref slot).2.Roomy pass := by
  refine bump_preserves (P := fun d' => d'.Roomy pass) h (fun _ => h) (fun _ _ => h) ?_ pass
  intro d' h'
  have hlayers := d'.layers_stripOutput ref
  refine h'.of_layers ?_ ?_
  · rw [hlayers]
    exact List.length_mapIdx
  · rw [hlayers]
    exact List.length_mapIdx

theorem redrawn_unmarked (d : Decoder) (n : Nat) :
    d.Redrawn (fun m slot => slot.unmark (n == m)) (d.unmarked n) where
  base := rfl
  enhancement := rfl
  poc m slot := slot.poc_unmark (n == m)
  output m slot := slot.output_unmark (n == m)
  unit m slot ho := by
    obtain ⟨flags, he⟩ := Slot.unmark_of_output ho (n == m)
    rw [he]

/-- **The same picture comes next** without the reference marking. -/
theorem nextVictim?_unmarked (h : d.Roomy pass) (n : Nat) : (d.unmarked n).nextVictim? pass =
    (d.nextVictim? pass).map (redraw fun m slot => slot.unmark (n == m)) :=
  (d.redrawn_unmarked n).nextVictim? ((h.unmarked n).overfull.trans h.overfull.symm)

/-! ## A step -/

theorem slot?_unmarked (d : Decoder) (n : Nat) (ref : SlotRef) :
    (d.unmarked n).slot? ref = (d.slot? ref).map (·.unmark (n == ref.layer)) := by
  obtain ⟨m, i⟩ := ref
  match m with
  | 0 | 1 => exact List.getElem?_map
  | m + 2 => rfl

/-- What is given up was in a slot. -/
theorem exists_frameAt?_of_frees {x : FrameId} (hx : x ∈ d.layers.unmarkFrees n) :
    ∃ ref, d.frameAt? ref = some x := by
  have held : ∀ {m : Nat} {layer : Layer}, d.layer? m = some layer →
      ∀ slot ∈ layer.dpb.slots, slot.frame = some x → ∃ ref, d.frameAt? ref = some x := by
    intro m layer hlayer slot hslot hf
    obtain ⟨i, hi⟩ := List.mem_iff_getElem?.mp hslot
    refine ⟨⟨m, i⟩, frameAt?_eq_some_iff.mpr ⟨slot, ?_, hf⟩⟩
    rw [slot?, hlayer]
    exact hi
  have hmem : x ∈ d.layers.frames := by
    have hcount := d.layers.count_unmark n x
    have hpos := List.count_pos_iff.mpr hx
    exact List.count_pos_iff.mp (by omega)
  rcases List.mem_append.mp hmem with hb | he
  · obtain ⟨slot, hslot, hf⟩ := List.mem_filterMap.mp hb
    exact held (m := 0) rfl slot hslot hf
  · obtain ⟨slot, hslot, hf⟩ := List.mem_filterMap.mp he
    exact held (m := 1) rfl slot hslot hf

/-- The frames that are given up are held besides those that stay. -/
theorem Orderly.accounted_frees (h : d.Orderly others) (n : Nat) :
    d.toShared.Accounted (d.layers.unmarkFrees n ++ ((d.layers.unmark n).frames ++ others)) := by
  refine h.accounted.congr fun x => ?_
  have hcount := d.layers.count_unmark n x
  simp only [List.count_append]
  omega

theorem dropCancelled_unmarked {slot' : Slot} (hpic : slot'.picStruct = slot.picStruct)
    (d : Decoder) (n : Nat) (ref : SlotRef) (shown : Bool) :
    (d.unmarked n).dropCancelled ref slot' shown =
      (d.dropCancelled ref slot shown).unmarked n := by
  unfold dropCancelled
  rw [hpic]
  dsimp only
  split
  · exact stripOutput_unmarked { d with scheduler := d.scheduler.recordOrphans 1 } n ref
  · exact d.stripOutput_unmarked n ref

/-- **An emission commutes with unmarking**, unless it runs out of memory. -/
theorem emit_unmarked (h : d.Orderly others) (hbalanced : d.store.Balanced provider)
    {frame : FrameId} {slot' : Slot} (hheld : frame ∈ (d.layers.unmark n).frames)
    (hvictim : slot'.victim ref.layer frame = slot.victim ref.layer frame)
    (hok : (d.emit ref slot frame).1 ≠ .error .outOfMemory) :
    (d.unmarked n).emit ref slot' frame =
      ((d.emit ref slot frame).1, (d.emit ref slot frame).2.unmarked n) := by
  have hscratch : ∀ x ∈ d.layers.unmarkFrees n, d.scheduler.scratch ≠ some x := by
    intro x hx
    obtain ⟨r, hr⟩ := exists_frameAt?_of_frees hx
    exact h.scratch r x hr
  have hmemory : (d.toShared.emit (slot.victim ref.layer frame) d.dts).1 ≠ .error .outOfMemory := by
    intro he
    refine hok ?_
    unfold Decoder.emit
    generalize d.toShared.emit (slot.victim ref.layer frame) d.dts = result at he ⊢
    obtain ⟨result, shared⟩ := result
    cases he
    rfl
  have hemit : (d.unmarked n).toShared.emit (slot'.victim ref.layer frame) (d.unmarked n).dts =
      ((d.toShared.emit (slot.victim ref.layer frame) d.dts).1,
        (d.toShared.emit (slot.victim ref.layer frame) d.dts).2.releaseAll
          (d.layers.unmarkFrees n)) := by
    rw [hvictim]
    exact Shared.emit_releaseAll (List.mem_append_left others hheld) (d.layers.unmarkFrees n)
      (h.accounted_frees n) hscratch hbalanced hmemory
  unfold Decoder.emit
  rw [hemit]
  rcases d.toShared.emit (slot.victim ref.layer frame) d.dts with ⟨fault | _ | _, shared⟩
  · exact congrArg (Prod.mk _) (stripOutput_unmarked { d with toShared := shared } n ref)
  · exact congrArg (Prod.mk _) (stripOutput_unmarked { d with toShared := shared } n ref)
  · rfl

/-- **A step commutes with unmarking**, unless it runs out of memory. -/
theorem bump_unmarked (h : d.Orderly others) (hbalanced : d.store.Balanced provider)
    (hv : d.nextVictim? pass = some (ref, slot))
    (hok : (d.bump pass ref slot).1 ≠ .error .outOfMemory) (n : Nat) :
    (d.unmarked n).bump pass ref (slot.unmark (n == ref.layer)) =
      ((d.bump pass ref slot).1, (d.bump pass ref slot).2.unmarked n) := by
  obtain ⟨-, hslot, ho⟩ := mem_pending.mp (mem_pending_of_nextVictim? hv)
  have hslot' : (d.unmarked n).slot? ref = some (slot.unmark (n == ref.layer)) := by
    rw [slot?_unmarked, hslot, Option.map_some]
  obtain ⟨flags, hsame⟩ := Slot.unmark_of_output ho (n == ref.layer)
  have hframe : (slot.unmark (n == ref.layer)).frame = slot.frame := by rw [hsame]
  have hpic : (slot.unmark (n == ref.layer)).picStruct = slot.picStruct := by rw [hsame]
  have hvictim : ∀ frame, (slot.unmark (n == ref.layer)).victim ref.layer frame =
      slot.victim ref.layer frame := by
    intro frame
    rw [hsame]
    rfl
  have hown : (d.unmarked n).isOwnField (slot.unmark (n == ref.layer)) = d.isOwnField slot := by
    rw [hsame]
    rfl
  generalize slot.unmark (n == ref.layer) = slot' at hslot' hframe hpic hvictim hown ⊢
  unfold bump at hok ⊢
  rw [hframe, hown]
  cases hf : slot.frame with
  | none => rfl
  | some frame =>
    have hheld : frame ∈ (d.layers.unmark n).frames := mem_frames hslot' (hframe.trans hf)
    have houtcome : (d.unmarked n).outcome? slot' frame = d.outcome? slot frame := by
      have hseen : (d.unmarked n).store.frame frame = d.store.frame frame :=
        Shared.frame_releaseAll (h.accounted_frees n) (.inr (List.mem_append_left others hheld))
      unfold outcome?
      rw [hseen, hpic]
      rfl
    rw [hf] at hok
    dsimp only at hok ⊢
    rw [houtcome]
    by_cases hfield : d.isOwnField slot = true
    · rw [if_pos hfield, if_pos hfield]
    · rw [if_neg hfield] at hok
      rw [if_neg hfield, if_neg hfield]
      generalize d.outcome? slot frame = outcome at hok ⊢
      rcases outcome with _ | _ | _
      · rfl
      · exact congrArg (Prod.mk _) (dropCancelled_unmarked hpic d n ref _)
      · dsimp only at hok ⊢
        by_cases hshown : pass.shows ref.layer = true
        · rw [if_pos hshown] at hok
          rw [if_pos hshown, if_pos hshown]
          exact emit_unmarked h hbalanced hheld (hvictim frame) hok
        · rw [if_neg hshown, if_neg hshown]
          exact congrArg (Prod.mk _) (d.stripOutput_unmarked n ref)

/-! ## A pass -/

theorem output_of_settled (hv : d.nextVictim? pass = none) :
    d.output pass = (.ok .settled, d) := by
  rw [output]
  split
  · rfl
  · rename_i h
    rw [hv] at h
    cases h

/-- What workers do to frames, one after the other. -/
def workAll (d : Decoder) (works : List (FrameId × Work)) : Decoder :=
  { d with store := works.foldl (fun store work => store.update work.1 work.2.apply) d.store }

/-- **An output pass, and workers that go on meanwhile**: what they do after each of the first steps
is listed. A step that has to wait for a frame is taken again once they have gone on. After these
steps the pass is left to itself. -/
def outputAmid (d : Decoder) (pass : OutputPass) :
    List (List (FrameId × Work)) → Except Fault PassEnd × Decoder
  | [] => d.output pass
  | works :: rest =>
    match d.nextVictim? pass with
    | none => (.ok .settled, d)
    | some (ref, slot) =>
      match d.bump pass ref slot with
      | (.error fault, d) => (.error fault, d)
      | (.ok .deferred, d) => (.ok .deferred, d)
      | (.ok _, d) => (d.workAll works).outputAmid pass rest

/-- How a pass among workers goes on after its first step. -/
theorem outputAmid_of_nextVictim? (hv : d.nextVictim? pass = some (ref, slot))
    (works : List (FrameId × Work)) (rest : List (List (FrameId × Work))) :
    d.outputAmid pass (works :: rest) =
      match d.bump pass ref slot with
      | (.error fault, d) => (.error fault, d)
      | (.ok .deferred, d) => (.ok .deferred, d)
      | (.ok _, d) => (d.workAll works).outputAmid pass rest := by
  rw [outputAmid, hv]

theorem workAll_unmarked (d : Decoder) (n : Nat) (works : List (FrameId × Work)) :
    (d.unmarked n).workAll works = (d.workAll works).unmarked n := by
  have hstore : ∀ store : Store,
      works.foldl (fun store work => store.update work.1 work.2.apply)
          (store.releaseAll (d.layers.unmarkFrees n)) =
        (works.foldl (fun store work => store.update work.1 work.2.apply) store).releaseAll
          (d.layers.unmarkFrees n) := by
    induction works with
    | nil => exact fun _ => rfl
    | cons work works ih =>
      intro store
      rw [List.foldl_cons, ← Store.releaseAll_update, ih]
      rfl
  unfold workAll unmarked
  dsimp only
  rw [hstore]

theorem Orderly.workAll (h : d.Orderly others) (works : List (FrameId × Work)) :
    (d.workAll works).Orderly others := by
  have handles : ∀ (x : FrameId) (store : Store),
      (works.foldl (fun store work => store.update work.1 work.2.apply) store).handles x =
        store.handles x := by
    intro x
    induction works with
    | nil => exact fun _ => rfl
    | cons work works ih =>
      intro store
      rw [List.foldl_cons, ih, Store.handles_update]
  exact ⟨fun x => (handles x d.store).trans (h.accounted x), h.scratch, h.stash⟩

theorem balanced_workAll (h : d.store.Balanced provider) (works : List (FrameId × Work)) :
    (d.workAll works).store.Balanced provider := by
  unfold workAll
  dsimp only
  generalize d.store = store at h
  induction works generalizing store with
  | nil => exact h
  | cons work works ih => exact ih _ (h.update work.1 work.2.apply)

/-- **What a pass and unmarking need** in order to be exchanged. -/
structure Exchangeable (provider : Provider) (others : List FrameId) (pass : OutputPass)
    (d : Decoder) : Prop where
  orderly : d.Orderly others
  balanced : d.store.Balanced provider
  roomy : d.Roomy pass

namespace Exchangeable

theorem bump (h : d.Exchangeable provider others pass)
    (hv : d.nextVictim? pass = some (ref, slot)) :
    (d.bump pass ref slot).2.Exchangeable provider others pass :=
  ⟨h.orderly.bump hv, (d.leads_bump pass ref slot).balanced h.balanced, h.roomy.bump ref slot⟩

theorem workAll (h : d.Exchangeable provider others pass) (works : List (FrameId × Work)) :
    (d.workAll works).Exchangeable provider others pass :=
  ⟨h.orderly.workAll works, balanced_workAll h.balanced works, h.roomy.of_layers rfl rfl⟩

/-- Both decoders are done. -/
theorem settled (h : d.Exchangeable provider others pass) (hv : d.nextVictim? pass = none)
    (n : Nat) : (d.unmarked n).nextVictim? pass = none := by
  rw [nextVictim?_unmarked h.roomy, hv]
  rfl

/-- Both decoders take the same step. -/
theorem step (h : d.Exchangeable provider others pass)
    (hv : d.nextVictim? pass = some (ref, slot)) {result : Except Fault Bump}
    (hb : d.bump pass ref slot = (result, d')) (hok : result ≠ .error .outOfMemory) (n : Nat) :
    (d.unmarked n).nextVictim? pass = some (ref, slot.unmark (n == ref.layer)) ∧
      (d.unmarked n).bump pass ref (slot.unmark (n == ref.layer)) = (result, d'.unmarked n) := by
  have hbump := bump_unmarked h.orderly h.balanced hv (by rw [hb]; exact hok) n
  rw [hb] at hbump
  refine ⟨?_, hbump⟩
  rw [nextVictim?_unmarked h.roomy, hv]
  rfl

/-- **A pass that is left to itself commutes with unmarking**, unless it runs out of memory. -/
theorem output (h : d.Exchangeable provider others pass)
    (hok : (d.output pass).1 ≠ .error .outOfMemory) (n : Nat) :
    (d.unmarked n).output pass = ((d.output pass).1, (d.output pass).2.unmarked n) := by
  fun_induction d.output pass with
  | case1 d hv => exact output_of_settled (h.settled hv n)
  | case2 d ref slot hv fault d' hb =>
    have hne : (.error fault : Except Fault Bump) ≠ .error .outOfMemory :=
      fun he => hok (congrArg Except.error (Except.error.inj he))
    obtain ⟨hnext, hbump⟩ := h.step hv hb hne n
    exact output_of_bump hnext hbump
  | case3 d ref slot hv d' hb =>
    obtain ⟨hnext, hbump⟩ := h.step hv hb (by simp) n
    exact output_of_bump hnext hbump
  | case4 d ref slot hv frame d' hb =>
    obtain ⟨hnext, hbump⟩ := h.step hv hb (by simp) n
    exact output_of_bump hnext hbump
  | case5 d ref slot hv d' hb ih =>
    obtain ⟨hnext, hbump⟩ := h.step hv hb (by simp) n
    have hd' := h.bump hv
    rw [hb] at hd'
    rw [output_of_bump hnext hbump]
    exact ih hd' hok

/-- **So does a pass among workers.** -/
theorem outputAmid (rounds : List (List (FrameId × Work))) :
    ∀ {d : Decoder}, d.Exchangeable provider others pass →
      (d.outputAmid pass rounds).1 ≠ .error .outOfMemory → ∀ n,
      (d.unmarked n).outputAmid pass rounds =
        ((d.outputAmid pass rounds).1, (d.outputAmid pass rounds).2.unmarked n) := by
  induction rounds with
  | nil => exact fun h hok n => h.output hok n
  | cons works rest ih =>
    intro d h hok n
    cases hv : d.nextVictim? pass with
    | none => rw [Decoder.outputAmid, Decoder.outputAmid, h.settled hv n, hv]
    | some victim =>
      obtain ⟨ref, slot⟩ := victim
      rcases hb : d.bump pass ref slot with ⟨result, d'⟩
      have hd' := h.bump hv
      rw [hb] at hd'
      rw [outputAmid_of_nextVictim? hv, hb] at hok ⊢
      have hne : result ≠ .error .outOfMemory := by
        rintro rfl
        exact hok rfl
      obtain ⟨hnext, hbump⟩ := h.step hv hb hne n
      rw [outputAmid_of_nextVictim? hnext, hbump]
      have goesOn : ((d'.workAll works).outputAmid pass rest).1 ≠ .error .outOfMemory →
          ((d'.unmarked n).workAll works).outputAmid pass rest =
            (((d'.workAll works).outputAmid pass rest).1,
              ((d'.workAll works).outputAmid pass rest).2.unmarked n) := by
        rw [workAll_unmarked]
        exact fun hok' => ih (hd'.workAll works) hok' n
      rcases result with fault | _ | _ | frame
      · rfl
      · exact goesOn hok
      · rfl
      · exact goesOn hok

end Exchangeable

end Decoder

/-! ## Sessions -/

namespace Session

variable {config : Config} {provider : Provider} {log : List Moment} {s : Session} {i : Nat}
  {d : Decoder} {pass : OutputPass}

/-- **Unmarking a layer and an output pass may be exchanged.** Take a decoder of a session, the
number of a layer, and a pass that leaves the layers as full as they can be, while workers go on
with the frames of pictures. Unless the pass runs out of memory, it ends in the same way if the
layer is unmarked before it. Then the decoder is the same as if the layer is unmarked after it: the
buffers, the output queue, the stash and every frame in the store.

A pass that runs out of memory may find some if the frames of references are given up before. -/
theorem unmarking_commutes (run : Run config provider log s) (hd : s.decoder? i = some d)
    (n : Nat) (hroomy : d.Roomy pass) (rounds : List (List (FrameId × Work)))
    (hok : (d.outputAmid pass rounds).1 ≠ .error .outOfMemory) :
    (d.unmarkAll n).2.outputAmid pass rounds =
      ((d.outputAmid pass rounds).1, ((d.outputAmid pass rounds).2.unmarkAll n).2) := by
  have hbalanced : d.store.Balanced provider := by
    have hshared := (decoder?_eq hd).2
    rw [hshared]
    exact balanced_run run
  have h : d.Exchangeable provider (s.others i) pass :=
    ⟨orderly_of_run run hd, hbalanced, hroomy⟩
  rw [Decoder.unmarkAll_eq, Decoder.unmarkAll_eq]
  exact h.outputAmid rounds hok n

/-- Two decoders are decoding the fields of a pair. The second one has finished its field, and the
first one has not. -/
def fieldAwaited : Session :=
  (start { threading := .frame } {}).afterAll
    [.run 0 (.setSps 0 { width := 2, height := 2 }), .run 0 (.setSei { picStruct := .topField }),
      startBase 10, .fork 0, .run 1 (.setSei { picStruct := .bottomField }),
      .run 1 (.startPicture 0 { poc := 11, output := true, numSlices := 1, pps := {} }),
      .run 1 .finishPicture]

/-- The pass waits for the first field. Once that is produced, the fields are woven. They are still
references, and leave their slots with that marking. -/
theorem fieldAwaited_commutes : ∃ log d, Run { threading := .frame } {} log fieldAwaited ∧
    fieldAwaited.decoder? 1 = some d ∧ (d.output basePass).1 = .ok (.waiting 0) ∧
    (d.unmarkAll 0).2.outputAmid basePass [[(0, .produce)]] =
      (.ok .settled, ((d.outputAmid basePass [[(0, .produce)]]).2.unmarkAll 0).2) ∧
    (d.outputAmid basePass [[(0, .produce)]]).2.queue.pictures.length = 1 ∧
    (d.outputAmid basePass [[(0, .produce)]]).2.layers.base.dpb.numInUse = 2 ∧
    ((d.outputAmid basePass [[(0, .produce)]]).2.unmarkAll 0).2.layers.base.dpb.numInUse = 0 := by
  have run : Run { threading := .frame } {} _ fieldAwaited := run_all _ .start
  obtain ⟨d, hd⟩ : ∃ d, fieldAwaited.decoder? 1 = some d := ⟨_, rfl⟩
  have hfacts : d.layers.base.dpb.capacity ≤ 16 ∧ (d.output basePass).1 = .ok (.waiting 0) ∧
      (d.outputAmid basePass [[(0, .produce)]]).1 = .ok .settled ∧
      (d.outputAmid basePass [[(0, .produce)]]).2.queue.pictures.length = 1 ∧
      (d.outputAmid basePass [[(0, .produce)]]).2.layers.base.dpb.numInUse = 2 ∧
      ((d.outputAmid basePass [[(0, .produce)]]).2.unmarkAll 0).2.layers.base.dpb.numInUse = 0 := by
    cases hd
    decide +kernel
  obtain ⟨hcapacity, hwaits, hsettled, hcounts⟩ := hfacts
  have hroomy : d.Roomy basePass := by
    intro m layer hactive hlayer
    match m with
    | 0 =>
      cases hlayer
      exact hcapacity
    | m + 1 => simp [basePass, Nat.testBit_succ] at hactive
  have hcommutes := unmarking_commutes run hd 0 hroomy [[(0, .produce)]] (by rw [hsettled]; simp)
  rw [hsettled] at hcommutes
  exact ⟨_, d, run, hd, hwaits, hcommutes, hcounts⟩

end Session

end PictureBuffer
