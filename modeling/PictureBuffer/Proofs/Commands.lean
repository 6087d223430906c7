import PictureBuffer.Proofs.Derivations

/-!
# What commands do to the slots

Pictures enter a buffer by `startPicture` and `deriveSets` only. Every other command leaves a slot
as it is, takes flags off it, or changes the reference lists of its picture: the slot **ages**
(`Slot.Ages`). A decoder ages with its slots (`Decoder.Ages`), and may give up its current picture,
but does not turn to another.

`ages_run` says so of all these commands, whether they succeed or fail. The lists that a command
stores keep to the capacity of a list (`length_build`).

A picture that is started takes a free slot, in a layer that holds no picture with its order count
(`Decoder.Begins`). If none is started, the slots stay as they are (`startPicture_slots`).
-/

namespace PictureBuffer

/-! ## The lists of a slice -/

theorem RefList.length_push_le {list : RefList} (h : list.length ≤ maxRefs) (entry : RefEntry) :
    (list.push entry).length ≤ maxRefs := by
  unfold push
  split
  · exact h
  · rename_i hfull
    simp only [isFull, decide_eq_true_eq, Nat.not_le] at hfull
    simpa [length] using Nat.succ_le_of_lt hfull

/-- Neither list holds more entries than a list can. -/
structure SliceLists.Bounded (lists : SliceLists) : Prop where
  list0 : lists.list0.length ≤ maxRefs
  list1 : lists.list1.length ≤ maxRefs

namespace SliceLists

variable {params : ListParams} {list : RefList}

theorem bounded_empty : ({} : SliceLists).Bounded := ⟨Nat.zero_le _, Nat.zero_le _⟩

theorem length_explicit {temp : RefList} (h : explicit params temp = .ok list) :
    list.length ≤ maxRefs := by
  unfold explicit at h
  have start : ({} : RefList).length ≤ maxRefs := Nat.zero_le _
  revert start h
  generalize ({} : RefList) = taken
  induction List.range params.numRefs generalizing taken with
  | nil =>
    rintro h ht
    cases h
    exact ht
  | cons i rest ih =>
    intro h ht
    rw [List.foldlM_cons] at h
    dsimp only at h
    cases hget : temp.get? (params.entries[i]?.getD 0) with
    | none =>
      rw [hget] at h
      cases h
    | some entry =>
      rw [hget] at h
      exact ih _ h (RefList.length_push_le ht entry)

theorem length_leading (temp : RefList) (current : Option RefEntry)
    (h : params.numRefs ≤ maxRefs) : (leading params temp current).length ≤ maxRefs := by
  have htake : (temp.take params.numRefs).length ≤ maxRefs := by
    simp only [RefList.length, RefList.take, List.length_take]
    omega
  unfold leading
  cases current with
  | none => exact htake
  | some entry =>
    dsimp only
    split
    · simpa [RefList.length, RefList.set] using htake
    · exact htake

/-- A list that was built keeps to the capacity. -/
theorem length_build {candidates : List RefEntry} {current : Option RefEntry}
    (h : build params candidates current = .ok list) : list.length ≤ maxRefs := by
  unfold build at h
  split at h
  · cases h
  · rename_i hn
    dsimp only at h
    split at h
    · exact length_explicit h
    · cases h
      exact length_leading _ current (Nat.not_lt.mp hn)

end SliceLists

/-! ## Ageing -/

/-- **What happens to a slot that no picture enters**: it loses flags, or the reference lists of its
picture change. -/
inductive Slot.Ages : Slot → Slot → Prop
  | refl (slot : Slot) : Ages slot slot
  | strip {slot slot' : Slot} (h : Ages slot slot') (mask : Flags) : Ages slot (slot'.strip mask)
  | selectLists {slot slot' slot'' : Slot} {slice first : Nat} (h : Ages slot slot')
      (hs : slot'.selectLists slice first = .ok slot'') : Ages slot slot''
  | setLists {slot slot' : Slot} {lists : SliceLists} (h : Ages slot slot') (hl : lists.Bounded) :
      Ages slot (slot'.setCurrentLists lists)

theorem Slot.Ages.trans {a b c : Slot} (h : a.Ages b) (h' : b.Ages c) : a.Ages c := by
  induction h' with
  | refl => exact h
  | strip _ mask ih => exact ih.strip mask
  | selectLists _ hs ih => exact ih.selectLists hs
  | setLists _ hl ih => exact ih.setLists hl

namespace Decoder

variable {d d' d'' : Decoder} {ref : SlotRef} {n : Nat}

/-- **What happens to a decoder that no picture enters.** -/
structure Ages (d d' : Decoder) : Prop where
  slots : ∀ ref, Option.Rel Slot.Ages (d.slot? ref) (d'.slot? ref)
  current : ∀ ref, d'.current = some ref → d.current = some ref
  baseCurrent : ∀ i, d'.layers.base.current = some i → d.layers.base.current = some i

/-- A slot that is there now was there before, and aged. -/
theorem Ages.slot {slot : Slot} (h : d.Ages d') (hs : d'.slot? ref = some slot) :
    ∃ old, d.slot? ref = some old ∧ old.Ages slot := by
  have hrel := h.slots ref
  rw [hs] at hrel
  cases hold : d.slot? ref with
  | none =>
    rw [hold] at hrel
    cases hrel
  | some old =>
    rw [hold] at hrel
    cases hrel with
    | some hages => exact ⟨old, rfl, hages⟩

/-- A slot that was there before is there now. -/
theorem Ages.slot_of_old {old : Slot} (h : d.Ages d') (hs : d.slot? ref = some old) :
    ∃ slot, d'.slot? ref = some slot ∧ old.Ages slot := by
  have hrel := h.slots ref
  rw [hs] at hrel
  cases hnew : d'.slot? ref with
  | none =>
    rw [hnew] at hrel
    cases hrel
  | some slot =>
    rw [hnew] at hrel
    cases hrel with
    | some hages => exact ⟨slot, rfl, hages⟩

theorem Ages.refl (d : Decoder) : d.Ages d := by
  refine ⟨fun ref => ?_, fun _ h => h, fun _ h => h⟩
  cases d.slot? ref with
  | none => exact .none
  | some slot => exact .some (.refl slot)

theorem Ages.trans (h : d.Ages d') (h' : d'.Ages d'') : d.Ages d'' := by
  refine ⟨fun ref => ?_, fun r hr => h.current r (h'.current r hr),
    fun i hi => h.baseCurrent i (h'.baseCurrent i hi)⟩
  cases hs : d.slot? ref with
  | none =>
    cases hs' : d''.slot? ref with
    | none => exact .none
    | some slot =>
      obtain ⟨mid, hmid, -⟩ := h'.slot hs'
      obtain ⟨old, hold, -⟩ := h.slot hmid
      rw [hs] at hold
      cases hold
  | some old =>
    obtain ⟨mid, hmid, hm⟩ := h.slot_of_old hs
    obtain ⟨new, hnew, hn⟩ := h'.slot_of_old hmid
    rw [hnew]
    exact .some (hm.trans hn)

/-- Nothing of a decoder's own has changed that matters here. -/
theorem Ages.of_eq (hl : d'.layers = d.layers) (hc : d'.current = d.current) : d.Ages d' := by
  have h := Ages.refl d
  have hs : d'.slot? = d.slot? := by
    funext ref
    rw [slot?, layer?, hl]
    rfl
  refine ⟨?_, ?_, ?_⟩
  · rw [hs]
    exact h.slots
  · rw [hc]
    exact h.current
  · rw [hl]
    exact h.baseCurrent

/-- The slots of a layer change, each for itself. -/
theorem Ages.of_map (hd : d.Deriving d')
    (hs : ∀ ref, ∃ g : Slot → Slot, d'.slot? ref = (d.slot? ref).map g ∧
      ∀ slot, d.slot? ref = some slot → slot.Ages (g slot)) : d.Ages d' := by
  refine ⟨fun ref => ?_, fun r hr => hd.current_eq.symm.trans hr,
    fun i hi => hd.baseCurrent_eq.symm.trans hi⟩
  obtain ⟨g, he, hages⟩ := hs ref
  rw [he]
  cases hslot : d.slot? ref with
  | none => exact .none
  | some slot => exact .some (hages slot hslot)

theorem ages_stripWhere (d : Decoder) (n : Nat) (p : Slot → Bool) (mask : Flags) :
    d.Ages (d.onDpb n fun dpb store => dpb.stripWhere store p mask) := by
  refine .of_map (.onDpb d n _) fun ref => ?_
  rw [slot?_stripWhere]
  split
  · refine ⟨_, rfl, fun slot _ => ?_⟩
    split
    · exact .strip (.refl slot) mask
    · exact .refl slot
  · exact ⟨id, Option.map_id_apply.symm, fun slot _ => .refl slot⟩

/-- One slot changes. -/
theorem ages_modifySlot {f : Slot → Slot}
    (h : ∀ slot, d.slot? ref = some slot → slot.Ages (f slot)) : d.Ages (d.modifySlot ref f) := by
  refine .of_map (.modifyDpb d ref.layer _) fun x => ?_
  rw [slot?_modifySlot]
  split
  · rename_i hx
    subst hx
    exact ⟨f, rfl, h⟩
  · exact ⟨id, Option.map_id_apply.symm, fun slot _ => .refl slot⟩

theorem ages_stripOutput (d : Decoder) (ref : SlotRef) : d.Ages (d.stripOutput ref) := by
  refine .of_map (.onDpb d ref.layer _) fun x => ?_
  rw [slot?_stripOutput]
  split
  · exact ⟨_, rfl, fun slot _ => .strip (.refl slot) .waiting⟩
  · exact ⟨id, Option.map_id_apply.symm, fun slot _ => .refl slot⟩

/-- One layer changes, but not its buffer. -/
theorem ages_modifyLayer {f : Layer → Layer} (hf : ∀ l, (f l).dpb = l.dpb)
    (hc : ∀ l i, (f l).current = some i → l.current = some i) : d.Ages (d.modifyLayer n f) := by
  unfold modifyLayer layer?
  cases hg : d.layers.get? n with
  | none => exact .refl d
  | some l =>
    dsimp only
    refine ⟨fun ref => ?_, fun _ h => h, fun i hi => ?_⟩
    · have hs : ({ d with layers := d.layers.set n (f l) } : Decoder).slot? ref = d.slot? ref := by
        rw [slot?_set hg rfl, hf]
        split
        · rename_i hr
          subst hr
          exact (slot?_eq hg).symm
        · rfl
      rw [hs]
      exact (Ages.refl d).slots ref
    · match n with
      | 0 =>
        cases hg
        exact hc _ i hi
      | 1 => exact hi
      | n + 2 => exact hi

/-! ## The commands -/

theorem updateFrame_eq (d : Decoder) (ref : SlotRef) (f : Frame → Frame) :
    ∃ store, d.updateFrame ref f = { d with store } := by
  unfold updateFrame
  split
  · exact ⟨_, rfl⟩
  · exact ⟨_, rfl⟩

theorem ages_finishPicture (d : Decoder) : d.Ages d.finishPicture := by
  unfold finishPicture
  dsimp only
  split
  · rename_i ref _ _
    obtain ⟨store, he⟩ := d.updateFrame_eq ref (·.produce)
    rw [he]
    exact .of_eq rfl rfl
  · exact .of_eq rfl rfl

theorem ages_abandonPicture (d : Decoder) : d.Ages d.abandonPicture := by
  unfold abandonPicture
  dsimp only
  split
  · rename_i ref _ _
    obtain ⟨store, he⟩ := d.updateFrame_eq ref (·.cancel)
    rw [he]
    exact .of_eq rfl rfl
  · exact .of_eq rfl rfl

theorem ages_clear (d : Decoder) : d.Ages d.clear := by
  have hclear : ∀ (d : Decoder) (n : Nat), d.Ages (d.onDpb n Dpb.clear) :=
    fun d n => d.ages_stripWhere n (fun _ => true) .all
  have hcurrent : ∀ (d : Decoder) (n : Nat),
      d.Ages (d.modifyLayer n ({ · with current := none })) :=
    fun d n => ages_modifyLayer (fun _ => rfl) fun _ _ h => by cases h
  have h := (d.ages_abandonPicture.trans ((hclear _ 0).trans (hclear _ 1))).trans
    ((hcurrent _ 0).trans (hcurrent _ 1))
  exact ⟨h.slots, fun _ hr => (by cases hr), h.baseCurrent⟩

theorem Selects.ages {hdr : SliceHeader} {slice : Nat} {pps : Pps} {slot selected : Slot}
    (h : d.Selects hdr slice ref pps slot selected) :
    d.Ages (d.modifySlot ref fun _ => selected) := by
  refine ages_modifySlot fun old hold => ?_
  obtain rfl := Option.some.inj (h.slot_eq.symm.trans hold)
  exact .selectLists (.refl slot) h.select_eq

theorem ages_startSlice (d : Decoder) (hdr : SliceHeader) (slice : Nat) :
    d.Ages (d.startSlice hdr slice).2 :=
  startSlice_preserves (.refl d) Selects.ages

theorem length_of_buildList {hdr : SliceHeader} {second : Bool} {list : RefList}
    (h : (d.buildList hdr ref second).1 = .ok list) : list.length ≤ maxRefs := by
  unfold buildList at h
  dsimp only at h
  split at h
  · cases h
  · rename_i hbuild
    cases h
    exact SliceLists.length_build hbuild

/-- The lists of a slice are not too long. -/
theorem bounded_of_buildUsed {hdr : SliceHeader} {both : Bool} {lists : SliceLists}
    (h : (d.buildUsed hdr ref both).1 = .ok lists) : lists.Bounded := by
  unfold buildUsed at h
  rcases he₀ : d.buildList hdr ref false with ⟨_ | list0, d'⟩
  · rw [he₀] at h
    cases h
  · have h₀ := length_of_buildList (congrArg Prod.fst he₀)
    rw [he₀] at h
    dsimp only at h
    split at h
    · rcases he₁ : d'.buildList hdr ref true with ⟨_ | list1, d''⟩
      · rw [he₁] at h
        cases h
      · have h₁ := length_of_buildList (congrArg Prod.fst he₁)
        rw [he₁] at h
        cases h
        exact ⟨h₀, h₁⟩
    · cases h
      exact ⟨h₀, Nat.zero_le _⟩

theorem ages_buildLists (d : Decoder) (hdr : SliceHeader) (slice : Nat) :
    d.Ages (d.buildLists hdr slice).2 := by
  refine buildLists_preserves (.refl d) Selects.ages (fun _ h => h.trans (.of_eq rfl rfl)) ?_
  intro _ _ _ _ lists hbuilt h
  exact h.trans (ages_modifySlot fun slot _ => .setLists (.refl slot) (bounded_of_buildUsed hbuilt))

theorem ages_bump (pass : OutputPass) (d : Decoder) (ref : SlotRef) (slot : Slot) :
    d.Ages (d.bump pass ref slot).2 := by
  refine bump_preserves (P := d.Ages) (.refl d) ?_ ?_ ?_ pass
  · exact fun n => .of_eq rfl rfl
  · exact fun frame _ => .of_eq rfl rfl
  · exact fun d' h => h.trans (d'.ages_stripOutput ref)

theorem ages_output (d : Decoder) (pass : OutputPass) :
    d.Ages (d.output pass).2 ∧ ∀ m ∈ d.moments pass, d.Ages m.decoder := by
  refine @output_preserves d pass (fun d' => d.Ages d') ?_ (.refl d)
  exact fun h _ => h.trans (ages_bump pass _ _ _)

theorem ages_dropCurrent (d : Decoder) : d.Ages d.dropCurrent := by
  unfold dropCurrent
  dsimp only
  split
  · exact (d.ages_stripOutput _).trans (ages_abandonPicture _)
  · exact d.ages_abandonPicture

theorem ages_flush (d : Decoder) : d.Ages d.flush.2 := by
  have ho := d.ages_dropCurrent.trans (d.dropCurrent.ages_output d.flushPass).1
  have hend : ∀ d' : Decoder,
      d'.Ages { d'.clear with toShared := d'.clear.toShared.dropStash } :=
    fun d' => d'.ages_clear.trans (.of_eq rfl rfl)
  unfold flush
  rcases he : d.dropCurrent.output d.flushPass with ⟨fault | _ | _ | frame, d'⟩
  · rw [he] at ho
    exact ho.trans (hend d')
  · rw [he] at ho
    exact ho.trans (hend d')
  · rw [he] at ho
    exact ho.trans (hend d')
  · rw [he] at ho
    exact ho

theorem ages_setSps (d : Decoder) (n : Nat) (sps : Sps) : d.Ages (d.setSps n sps).2 := by
  unfold setSps
  split
  · exact .refl d
  · exact ages_modifyLayer (fun _ => rfl) fun _ _ h => h

/-- **No picture enters but by `startPicture` and `deriveSets`**: every other command ages the
slots, whether it succeeds or fails. -/
theorem ages_run (d : Decoder) {command : Command}
    (h : match command with
      | .startPicture .. | .deriveSets .. => False
      | _ => True) : d.Ages (d.run command).2 := by
  cases command with
  | setVps | setSei | setDts | setDuration | dropStash => exact .of_eq rfl rfl
  | setSps n sps => exact d.ages_setSps n sps
  | finishPicture => exact d.ages_finishPicture
  | unmarkAll n =>
    dsimp only [run, unmarkAll]
    split
    · exact .refl d
    · exact d.ages_stripWhere n (fun _ => true) .references
  | startSlice hdr slice => exact d.ages_startSlice hdr slice
  | buildLists hdr slice => exact d.ages_buildLists hdr slice
  | output pass => exact (d.ages_output pass).1
  | flush => exact d.ages_flush
  | clear => exact d.ages_clear
  | startPicture | deriveSets => exact h.elim

/-! ## Pictures that are started -/

/-- **A picture was started** in slot `index` of a layer. -/
structure Begins (d : Decoder) (layer : Nat) (info : PictureInfo) (index : Nat) (d' : Decoder) :
    Prop where
  unheld : ∀ i slot, d.slot? ⟨layer, i⟩ = some slot → slot.isFree = false → slot.poc ≠ info.poc
  free : ∃ slot, d.slot? ⟨layer, index⟩ = some slot ∧ slot.isFree = true
  entered : ∃ sps frame, d'.slot? ⟨layer, index⟩ =
    some (((d.turnTo info).newPicture layer sps info).slot sps frame)
  others : ∀ ref, ref ≠ ⟨layer, index⟩ → d'.slot? ref = d.slot? ref
  current : d'.current = some ⟨layer, index⟩
  baseCurrent : d'.layers.base.current = if layer = 0 then some index else d.layers.base.current

theorem begins_of_insert {l : Layer} {sps : Sps} {info : PictureInfo} {index : Nat} {dpb : Dpb}
    {store : Store} (hg : d.layers.get? n = some l) (hh : l.dpb.holds info.poc ≠ true)
    (hin : l.dpb.insert (d.turnTo info).store sps ((d.turnTo info).newPicture n sps info) =
      (.ok index, dpb, store))
    (hl : d'.layers = d.layers.set n { l with dpb, current := some index })
    (hc : d'.current = some ⟨n, index⟩) : d.Begins n info index d' := by
  have hdpb : ∀ i, d.slot? ⟨n, i⟩ = l.dpb.slot? i := fun i => slot?_eq hg
  have hd' := slot?_set hg hl
  obtain ⟨frame, hslot, -⟩ := Dpb.slot?_insert hin
  obtain ⟨_, _, he, -⟩ | ⟨_, _, _, _, he, hadd, -⟩ := l.dpb.insert_cases (d.turnTo info).store sps
    ((d.turnTo info).newPicture n sps info)
  · rw [hin] at he
    cases he
  · rw [hin] at he
    cases he
    constructor
    · intro i slot hs hheld hp
      exact hh (Dpb.holds_iff.mpr ⟨i, slot, (hdpb i).symm.trans hs, hheld, hp⟩)
    · obtain ⟨free, hfree, hnone⟩ := hadd.free
      exact ⟨free, (hdpb index).trans hfree, Option.isNone_iff_eq_none.mpr hnone⟩
    · refine ⟨sps, frame, ?_⟩
      rw [hd', if_pos rfl]
      exact hslot
    · intro ref hne
      rw [hd']
      split
      · rename_i hr
        subst hr
        rw [slot?_eq hg]
        refine hadd.others _ fun hi => hne ?_
        rw [← hi]
      · rfl
    · exact hc
    · rw [hl]
      match n with
      | 0 => rfl
      | 1 => rfl
      | n + 2 => rfl

/-- **What starting a picture does to the slots**: nothing, or the picture enters. -/
theorem startPicture_slots (d : Decoder) (layer : Nat) (info : PictureInfo) :
    (∃ fault, (d.startPicture layer info).1 = .error fault ∧
      d.Ages (d.startPicture layer info).2 ∧
      (d.startPicture layer info).2.layers = d.layers) ∨
    ∃ index, (d.startPicture layer info).1 = .ok ⟨layer, index⟩ ∧
      d.Begins layer info index (d.startPicture layer info).2 := by
  unfold startPicture activeLayer layer?
  cases hg : d.layers.get? layer with
  | none => exact Or.inl ⟨_, rfl, .refl d, rfl⟩
  | some l =>
    dsimp only
    cases hsps : l.sps with
    | none => exact Or.inl ⟨_, rfl, .refl d, rfl⟩
    | some sps =>
      dsimp only
      by_cases hh : l.dpb.holds info.poc = true
      · rw [if_pos hh]
        exact Or.inl ⟨_, rfl, .refl d, rfl⟩
      · rw [if_neg hh]
        rcases hin : l.dpb.insert (d.turnTo info).store sps
            ((d.turnTo info).newPicture layer sps info) with ⟨fault | index, dpb, store⟩
        · obtain ⟨_, _, he, -⟩ | ⟨_, _, _, _, he, -⟩ := l.dpb.insert_cases (d.turnTo info).store
            sps ((d.turnTo info).newPicture layer sps info)
          · rw [hin] at he
            cases he
            have hset : (d.turnTo info).layers.set layer l = d.layers := Layers.set_self hg
            dsimp only
            rw [hset]
            exact Or.inl ⟨fault, rfl, .of_eq rfl rfl, rfl⟩
          · rw [hin] at he
            cases he
        · exact Or.inr ⟨index, rfl, begins_of_insert hg hh hin rfl rfl⟩

end Decoder

end PictureBuffer
