import PictureBuffer.Proofs.Soundness

/-!
# What waits for output

Between two output passes, the pictures that wait for output are the same, whatever their slots
are used for otherwise: marking, derivation and release of references, and the lists of slices, do
not touch them (`waiting?_run`). They are read off by `Decoder.waiting?`, as the output process
would get them.

* A picture that is started joins them, in a frame that is new to all (`Decoder.Joins`).
* A step of a pass takes out its victim, or nobody (`waiting?_bump`).
* No other command adds a picture to them (`waiting?_of_ages`).
-/

namespace PictureBuffer

/-! ## One slot -/

namespace Slot

variable {slot : Slot} {mask : Flags} {n : Nat} {victim : Victim}

/-- The picture in a slot of layer `n`, if it waits for output. -/
def waiting? (slot : Slot) (n : Nat) : Option Victim :=
  if slot.flags.output then slot.frame.map (slot.victim n) else none

theorem waiting?_eq_some_iff : slot.waiting? n = some victim ↔
    slot.flags.output = true ∧ ∃ frame, slot.frame = some frame ∧ slot.victim n frame = victim := by
  unfold waiting?
  split
  · rename_i ho
    simp [ho]
  · rename_i ho
    simp [ho]

/-- A slot without the lists of its slices. -/
def unlisted (slot : Slot) : Slot := { slot with table := [], blockLists := [], current := 0 }

/-- A free slot has nothing that waits. -/
theorem waiting?_of_isFree (h : slot.isFree = true) (n : Nat) : slot.waiting? n = none := by
  unfold waiting?
  rw [Option.isNone_iff_eq_none.mp h]
  split <;> rfl

/-- A picture goes on waiting if the output flag is not taken off. -/
theorem waiting?_strip (h : mask.output = false) (slot : Slot) (n : Nat) :
    (slot.strip mask).waiting? n = slot.waiting? n := by
  have hflag : (slot.strip mask).flags.output = slot.flags.output := by
    rw [flags_strip]
    simp [Flags.without, h]
  unfold waiting?
  rw [hflag]
  split
  · rename_i ho
    have huse : (slot.flags.without mask).isEmpty = false := by
      simp [Flags.isEmpty, Flags.without, ho, h]
    unfold strip
    dsimp only
    rw [huse]
    rfl
  · rfl

/-- It waits no more once the output flag is taken off. -/
theorem waiting?_strip_output (h : mask.output = true) (slot : Slot) (n : Nat) :
    (slot.strip mask).waiting? n = none := by
  have hflag : (slot.strip mask).flags.output = false := by
    rw [flags_strip]
    simp [Flags.without, h]
  unfold waiting?
  rw [hflag]
  rfl

theorem output_mark (marking : Marking) (slot : Slot) :
    (slot.mark marking).flags.output = slot.flags.output := by
  unfold mark
  split
  · rfl
  · cases marking <;> simp [Flags.without, Flags.union, Flags.references, Marking.flags]

theorem waiting?_mark (marking : Marking) (slot : Slot) (n : Nat) :
    (slot.mark marking).waiting? n = slot.waiting? n := by
  cases hfree : slot.isFree with
  | true => rw [mark, if_pos hfree]
  | false =>
    have hflag := slot.output_mark marking
    rw [mark, if_neg (by simp [hfree])] at hflag ⊢
    unfold waiting?
    rw [hflag]
    rfl

/-- A stand-in does not wait, so it may be removed. -/
theorem waiting?_removed {store : Store} (h : slot.Sound store)
    (hp : slot.flags.placeholder = true) (n : Nat) :
    (slot.strip .all).waiting? n = slot.waiting? n := by
  rw [waiting?_strip_output rfl]
  unfold waiting?
  rw [(h.standIn hp).1]
  rfl

/-- What waits in a slot that has aged has waited before. -/
theorem waiting?_of_ages {old new : Slot} (h : old.Ages new)
    (hw : new.waiting? n = some victim) : old.waiting? n = some victim := by
  induction h with
  | refl => exact hw
  | @strip slot' _ mask ih =>
    cases ho : mask.output with
    | false => exact ih ((waiting?_strip ho slot' n).symm.trans hw)
    | true =>
      rw [waiting?_strip_output ho] at hw
      cases hw
  | selectLists _ hs ih =>
    obtain ⟨-, rfl⟩ := selectLists_ok hs
    exact ih hw
  | setLists _ _ ih => exact ih hw

end Slot

namespace Decoder

variable {d d' d'' : Decoder} {ref x : SlotRef} {victim : Victim}

/-! ## One decoder -/

/-- The picture in a slot, if it waits for output. -/
def waiting? (d : Decoder) (ref : SlotRef) : Option Victim :=
  (d.slot? ref).bind (·.waiting? ref.layer)

theorem waiting?_eq_some_iff : d.waiting? ref = some victim ↔
    ∃ slot frame, d.slot? ref = some slot ∧ slot.flags.output = true ∧
      slot.frame = some frame ∧ slot.victim ref.layer frame = victim := by
  unfold waiting?
  rw [Option.bind_eq_some_iff]
  simp only [Slot.waiting?_eq_some_iff]
  constructor
  · rintro ⟨slot, hs, ho, frame, hf, hv⟩
    exact ⟨slot, frame, hs, ho, hf, hv⟩
  · rintro ⟨slot, frame, hs, ho, hf, hv⟩
    exact ⟨slot, hs, ho, frame, hf, hv⟩

/-- What waits is held by its slot. -/
theorem frameAt?_of_waiting? (h : d.waiting? ref = some victim) :
    d.frameAt? ref = some victim.frame := by
  obtain ⟨slot, frame, hs, -, hf, rfl⟩ := waiting?_eq_some_iff.mp h
  exact frameAt?_eq_some_iff.mpr ⟨slot, hs, hf⟩

theorem waiting?_of_slot? (h : d'.slot? ref = d.slot? ref) : d'.waiting? ref = d.waiting? ref := by
  rw [waiting?, h, waiting?]

/-- A slot changes, but not in what waits there. -/
theorem waiting?_of_map {f : Slot → Slot} (h : d'.slot? ref = (d.slot? ref).map f)
    (hf : ∀ slot, d.slot? ref = some slot → (f slot).waiting? ref.layer =
      slot.waiting? ref.layer) : d'.waiting? ref = d.waiting? ref := by
  unfold waiting?
  rw [h]
  cases hs : d.slot? ref with
  | none => rfl
  | some slot => exact hf slot hs

/-- The same pictures wait. -/
def AlikeWaiting (d d' : Decoder) : Prop := ∀ ref, d'.waiting? ref = d.waiting? ref

theorem AlikeWaiting.refl (d : Decoder) : d.AlikeWaiting d := fun _ => rfl

theorem AlikeWaiting.trans (h : d.AlikeWaiting d') (h' : d'.AlikeWaiting d'') :
    d.AlikeWaiting d'' := fun ref => (h' ref).trans (h ref)

/-- The slots are the same, but for the lists of slices. -/
def Relists (d d' : Decoder) : Prop :=
  ∀ ref, (d'.slot? ref).map (·.unlisted) = (d.slot? ref).map (·.unlisted)

theorem Relists.refl (d : Decoder) : d.Relists d := fun _ => rfl

theorem Relists.trans (h : d.Relists d') (h' : d'.Relists d'') : d.Relists d'' :=
  fun ref => (h' ref).trans (h ref)

theorem Relists.of_slots (h : ∀ ref, d'.slot? ref = d.slot? ref) : d.Relists d' :=
  fun ref => congrArg _ (h ref)

theorem Relists.of_layers (h : d'.layers = d.layers) : d.Relists d' := by
  refine .of_slots fun ref => ?_
  rw [slot?, layer?, h]
  rfl

/-- What waits is not told by the lists. -/
theorem Relists.alikeWaiting (h : d.Relists d') : d.AlikeWaiting d' := by
  intro ref
  have unlisted : ∀ d : Decoder,
      d.waiting? ref = ((d.slot? ref).map (·.unlisted)).bind (·.waiting? ref.layer) := by
    intro d
    rw [Option.bind_map]
    rfl
  rw [unlisted d', unlisted d, h ref]

theorem AlikeWaiting.of_layers (h : d'.layers = d.layers) : d.AlikeWaiting d' :=
  (Relists.of_layers h).alikeWaiting

theorem alikeWaiting_stripWhere (n : Nat) {p : Slot → Bool} {mask : Flags}
    (h : ∀ ref slot, d.slot? ref = some slot → p slot = true →
      (slot.strip mask).waiting? ref.layer = slot.waiting? ref.layer) :
    d.AlikeWaiting (d.onDpb n fun dpb store => dpb.stripWhere store p mask) := by
  intro ref
  have hs := slot?_stripWhere d n p mask ref
  split at hs
  · refine waiting?_of_map hs fun slot hslot => ?_
    split
    · exact h ref slot hslot ‹_›
    · rfl
  · exact waiting?_of_slot? hs

theorem relists_modifySlot {f : Slot → Slot}
    (h : ∀ slot, d.slot? ref = some slot → (f slot).unlisted = slot.unlisted) :
    d.Relists (d.modifySlot ref f) := by
  intro x
  rw [slot?_modifySlot]
  split
  · rename_i hx
    subst hx
    cases hs : d.slot? x with
    | none => rfl
    | some slot => exact congrArg some (h slot hs)
  · rfl

/-- One layer changes, but not its buffer. -/
theorem slot?_modifyLayer (d : Decoder) (n : Nat) {f : Layer → Layer}
    (hf : ∀ l, (f l).dpb = l.dpb) (ref : SlotRef) : (d.modifyLayer n f).slot? ref = d.slot? ref := by
  unfold modifyLayer layer?
  cases hg : d.layers.get? n with
  | none => rfl
  | some l =>
    dsimp only
    rw [slot?_set hg rfl, hf]
    split
    · rename_i hr
      subst hr
      exact (slot?_eq hg).symm
    · rfl

/-- What waits in a decoder that has aged has waited before. -/
theorem waiting?_of_ages (h : d.Ages d') (hw : d'.waiting? ref = some victim) :
    d.waiting? ref = some victim := by
  obtain ⟨slot, hs, hslot⟩ := Option.bind_eq_some_iff.mp hw
  obtain ⟨old, hold, hages⟩ := h.slot hs
  rw [waiting?, hold]
  exact Slot.waiting?_of_ages hages hslot

/-! ## Derivations and slices -/

theorem alikeWaiting_clearSets (h : d.Sound) (layer : Nat) :
    d.AlikeWaiting (d.clearSets layer) := by
  intro ref
  have hs := d.slot?_clearSets layer ref
  split at hs
  · refine waiting?_of_map hs fun slot hslot => ?_
    have hkept : (if slot.flags.placeholder then slot.strip .all else slot).waiting? ref.layer =
        slot.waiting? ref.layer := by
      split
      · exact Slot.waiting?_removed (h ref slot hslot) ‹_› ref.layer
      · rfl
    dsimp only
    split
    · exact hkept
    · exact (Slot.waiting?_mark .none _ _).trans hkept
  · exact waiting?_of_slot? hs

/-- A candidate that is entered was there, or stands in for a picture and does not wait. -/
theorem Enters.alikeWaiting {n : Nat} {sps : Sps} {c : Candidate} {index : Nat} {slot : Slot}
    (h : d.Enters n sps c index slot d') : d.AlikeWaiting d' := by
  intro ref
  by_cases hr : ref = ⟨n, index⟩
  · subst hr
    have hnew : d'.waiting? ⟨n, index⟩ = slot.waiting? n := by
      rw [waiting?, h.marked]
      exact Slot.waiting?_mark c.marking slot n
    rw [hnew]
    cases h.source with
    | found hs =>
      rw [waiting?, hs]
      rfl
    | missing _ hs hfree hslot =>
      rw [waiting?, hs, Option.bind_some, Slot.waiting?_of_isFree hfree, hslot]
      rfl
  · exact waiting?_of_slot? (h.others ref hr)

theorem alikeWaiting_deriveSets (h : d.Sound) (layer : Nat) (hdr : SliceHeader) :
    d.AlikeWaiting (d.deriveSets layer hdr).2 := by
  cases hg : d.layers.get? layer with
  | none =>
    rw [deriveSets_of_invalid hg]
    exact .refl d
  | some l =>
    have hadd := @addHeader_preserves _ layer (fun d' => d.AlikeWaiting d') hdr
      (fun hp _ => hp.trans (.of_layers rfl)) (fun _ hp hent => hp.trans hent.alikeWaiting)
      (alikeWaiting_clearSets h layer)
    rw [deriveSets_eq hg]
    exact hadd.trans (alikeWaiting_stripWhere layer fun ref slot _ _ =>
      Slot.waiting?_strip rfl slot ref.layer)

theorem Selects.relists {hdr : SliceHeader} {slice : Nat} {pps : Pps} {slot selected : Slot}
    (h : d.Selects hdr slice ref pps slot selected) :
    d.Relists (d.modifySlot ref fun _ => selected) := by
  refine relists_modifySlot fun old hold => ?_
  obtain rfl := Option.some.inj (h.slot_eq.symm.trans hold)
  obtain ⟨-, rfl⟩ := Slot.selectLists_ok h.select_eq
  rfl

theorem relists_startSlice (d : Decoder) (hdr : SliceHeader) (slice : Nat) :
    d.Relists (d.startSlice hdr slice).2 :=
  startSlice_preserves (.refl d) Selects.relists

theorem relists_buildLists (d : Decoder) (hdr : SliceHeader) (slice : Nat) :
    d.Relists (d.buildLists hdr slice).2 := by
  refine buildLists_preserves (.refl d) Selects.relists (fun _ h => ?_) fun _ h => ?_
  · exact h.trans (.of_layers rfl)
  · exact h.trans (relists_modifySlot fun _ _ => rfl)

/-! ## The commands -/

theorem relists_finishPicture (d : Decoder) : d.Relists d.finishPicture := by
  unfold finishPicture
  dsimp only
  split
  · rename_i ref _ _
    obtain ⟨store, he⟩ := d.updateFrame_eq ref (·.produce)
    rw [he]
    exact .of_layers rfl
  · exact .of_layers rfl

/-- A command that neither adds nor removes a picture, nor marks one, changes the slots at most in
the lists of slices. -/
theorem relists_run (d : Decoder) {command : Command}
    (hc : match command with
      | .startPicture .. | .unmarkAll _ | .deriveSets .. | .output _ | .flush | .clear => False
      | _ => True) : d.Relists (d.run command).2 := by
  cases command with
  | setVps | setSei | setDts | setDuration | dropStash => exact .of_layers rfl
  | setSps n sps =>
    dsimp only [run, setSps]
    split
    · exact .refl d
    · exact .of_slots (d.slot?_modifyLayer n fun _ => rfl)
  | finishPicture => exact d.relists_finishPicture
  | startSlice hdr slice => exact d.relists_startSlice hdr slice
  | buildLists hdr slice => exact d.relists_buildLists hdr slice
  | startPicture | unmarkAll | deriveSets | output | flush | clear => exact hc.elim

/-- **Between two output passes the same pictures wait**, but for those that are started. -/
theorem waiting?_run (h : d.Sound) {command : Command}
    (hc : match command with
      | .startPicture .. | .output _ | .flush | .clear => False
      | _ => True) : d.AlikeWaiting (d.run command).2 := by
  cases command with
  | unmarkAll n =>
    dsimp only [run, unmarkAll]
    split
    · exact .refl d
    · exact alikeWaiting_stripWhere n fun ref slot _ _ => Slot.waiting?_strip rfl slot ref.layer
  | deriveSets layer hdr => exact alikeWaiting_deriveSets h layer hdr
  | startPicture | output | flush | clear => exact hc.elim
  | _ => exact (d.relists_run trivial).alikeWaiting

/-! ## Pictures that are started -/

/-- **A picture was started**, in a frame that is new to all. It waits if it is meant for
output. -/
structure Joins (d : Decoder) (layer : Nat) (info : PictureInfo) (index : Nat) (frame : FrameId)
    (d' : Decoder) : Prop where
  fresh : d.store.cells.size ≤ frame
  free : d.waiting? ⟨layer, index⟩ = none
  slot : ∃ slot, d'.slot? ⟨layer, index⟩ = some slot ∧ slot.frame = some frame ∧
    slot.poc = info.poc ∧ slot.picStruct = d.sei.picStruct ∧ slot.flags.output = info.output
  others : ∀ ref, ref ≠ ⟨layer, index⟩ → d'.slot? ref = d.slot? ref

/-- The pictures that wait are those that waited before and the one that was started. -/
theorem Joins.waiting? {layer : Nat} {info : PictureInfo} {index : Nat} {frame : FrameId}
    (h : d.Joins layer info index frame d') (hw : d'.waiting? ref = some victim) :
    d.waiting? ref = some victim ∨
      ref = ⟨layer, index⟩ ∧ victim.frame = frame ∧ victim.poc = info.poc ∧
        info.output = true := by
  by_cases hr : ref = ⟨layer, index⟩
  · subst hr
    obtain ⟨slot, hs, hf, hpoc, -, ho⟩ := h.slot
    obtain ⟨slot', frame', hs', ho', hf', rfl⟩ := waiting?_eq_some_iff.mp hw
    obtain rfl := Option.some.inj (hs.symm.trans hs')
    obtain rfl := Option.some.inj (hf.symm.trans hf')
    exact Or.inr ⟨rfl, rfl, hpoc, ho.symm.trans ho'⟩
  · exact Or.inl ((waiting?_of_slot? (h.others ref hr)).symm.trans hw)

/-- The others go on waiting. -/
theorem Joins.of_waiting? {layer : Nat} {info : PictureInfo} {index : Nat} {frame : FrameId}
    (h : d.Joins layer info index frame d') (hw : d.waiting? ref = some victim) :
    d'.waiting? ref = some victim := by
  by_cases hr : ref = ⟨layer, index⟩
  · rw [hr, h.free] at hw
    cases hw
  · exact (waiting?_of_slot? (h.others ref hr)).trans hw

theorem startPicture_joins (d : Decoder) (layer : Nat) (info : PictureInfo) :
    (∃ fault, (d.startPicture layer info).1 = .error fault ∧
      (d.startPicture layer info).2.layers = d.layers) ∨
    ∃ index frame, (d.startPicture layer info).1 = .ok ⟨layer, index⟩ ∧
      d.Joins layer info index frame (d.startPicture layer info).2 := by
  obtain ⟨fault, he, -⟩ | ⟨fault, store, he, -⟩ |
    ⟨l, sps, index, frame, dpb, store, hg, he, hadd, -⟩ := d.startPicture_cases layer info
  · rw [he]
    exact Or.inl ⟨fault, rfl, rfl⟩
  · rw [he]
    exact Or.inl ⟨fault, rfl, rfl⟩
  · rw [he]
    have hset : ∀ d' : Decoder,
        d'.layers = d.layers.set layer { l with dpb, current := some index } → ∀ ref,
        d'.slot? ref = if ref.layer = layer then dpb.slot? ref.index else d.slot? ref :=
      fun _ hl => slot?_set hg hl
    obtain ⟨free, hfree, hnone⟩ := hadd.free
    obtain ⟨slot, hslot, hf, hpoc, hpic, hflags⟩ := hadd.entered
    refine Or.inr ⟨index, frame, rfl, hadd.fresh, ?_, ⟨slot, ?_, hf, hpoc, hpic, ?_⟩, ?_⟩
    · rw [waiting?, slot?_eq hg, hfree, Option.bind_some]
      exact Slot.waiting?_of_isFree (Option.isNone_iff_eq_none.mpr hnone) layer
    · exact (hset _ rfl _).trans ((if_pos rfl).trans hslot)
    · rw [hflags]
      rfl
    · intro ref hne
      refine (hset _ rfl ref).trans ?_
      split
      · rename_i hl
        subst hl
        rw [slot?_eq hg]
        exact hadd.others ref.index fun hi => hne (by rw [← hi])
      · rfl

theorem waiting?_stripOutput (d : Decoder) (ref x : SlotRef) :
    (d.stripOutput ref).waiting? x = if x = ref then none else d.waiting? x := by
  have hs := d.slot?_stripOutput ref x
  unfold waiting?
  rw [hs]
  split
  · cases d.slot? x with
    | none => rfl
    | some slot => exact Slot.waiting?_strip_output rfl slot x.layer
  · rfl

theorem layers_abandonPicture (d : Decoder) : d.abandonPicture.layers = d.layers := by
  unfold abandonPicture
  dsimp only
  split
  · obtain ⟨store, he⟩ := d.updateFrame_eq _ (·.cancel)
    rw [he]
  · rfl

/-- Dropping the current picture leaves the others waiting. -/
theorem waiting?_dropCurrent (h : d.decoding = true → d.current ≠ some ref) :
    d.dropCurrent.waiting? ref = d.waiting? ref := by
  unfold dropCurrent
  dsimp only
  split
  · rename_i r hdecoding hcur
    have hne : ref ≠ r := by
      rintro rfl
      exact h hdecoding hcur
    refine (AlikeWaiting.of_layers (layers_abandonPicture _) ref).trans ?_
    rw [waiting?_stripOutput, if_neg hne]
  · exact AlikeWaiting.of_layers (layers_abandonPicture d) ref

/-- **A step of a pass** takes out its victim or nobody. -/
theorem waiting?_bump (pass : OutputPass) (d : Decoder) (ref : SlotRef) (slot : Slot)
    (x : SlotRef) : (d.bump pass ref slot).2.waiting? x = d.waiting? x ∨
      x = ref ∧ (d.bump pass ref slot).2.waiting? x = none := by
  refine bump_preserves (P := fun d' => d'.waiting? x = d.waiting? x ∨
    x = ref ∧ d'.waiting? x = none) (Or.inl rfl) (fun _ => Or.inl rfl) (fun _ _ => Or.inl rfl)
    ?_ pass
  intro d' h
  rw [waiting?_stripOutput]
  split
  · rename_i hx
    exact Or.inr ⟨hx, rfl⟩
  · exact h

/-- What waits after a step has waited before it. -/
theorem waiting?_of_bump {pass : OutputPass} {slot : Slot}
    (h : (d.bump pass ref slot).2.waiting? x = some victim) : d.waiting? x = some victim := by
  rcases waiting?_bump pass d ref slot x with hw | ⟨-, hw⟩
  · exact hw.symm.trans h
  · rw [hw] at h
    cases h

end Decoder

end PictureBuffer
