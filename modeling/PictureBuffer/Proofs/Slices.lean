import PictureBuffer.Decoder.SliceLists

/-!
# The ways through a slice

`Decoder.buildLists` first points the blocks of a slice at an entry of the picture's table of lists,
and only then finds out whether there are lists to put there. So there are four ways through it,
which `Decoder.Builds` tells apart: the slice is **refused** before it begins, it begins and
**fails**, it uses no lists, or it is **listed**. Which of the two failures it was can be read off
the fault (`Fault.concernsLists`).

What is proved of the states of a decoder is proved from these cases, or from the steps that they
are made of (`startSlice_preserves`, `buildLists_preserves`), and not by opening the functions.
-/

namespace PictureBuffer

/-! ## Faults of lists -/

/-- The fault is found while the lists of a slice are built. All others that a slice can be refused
with are found before it begins. -/
def Fault.concernsLists : Fault → Bool
  | .zeroReferences | .tooManyReferences .. | .invalidReferenceIndex .. => true
  | _ => false

namespace SliceLists

variable {params : ListParams} {temp : RefList} {fault : Fault}

theorem concernsLists_of_explicit (h : explicit params temp = .error fault) :
    fault.concernsLists = true := by
  unfold explicit at h
  generalize List.range params.numRefs = is at h
  generalize ({} : RefList) = taken at h
  induction is generalizing taken with
  | nil => cases h
  | cons i is ih =>
    rw [List.foldlM_cons] at h
    dsimp only at h
    cases hget : temp.get? (params.entries[i]?.getD 0) with
    | none =>
      rw [hget] at h
      cases h
      rfl
    | some entry =>
      rw [hget] at h
      exact ih _ h

theorem concernsLists_of_build {candidates : List RefEntry} {current : Option RefEntry}
    (h : build params candidates current = .error fault) : fault.concernsLists = true := by
  unfold build at h
  split at h
  · cases h
    rfl
  · dsimp only at h
    split at h
    · exact concernsLists_of_explicit h
    · cases h

end SliceLists

/-! ## The selection of a slice -/

/-- A slice that can be selected has an entry in the table, and its blocks point at it. -/
theorem Slot.selectLists_ok {slot selected : Slot} {slice first : Nat}
    (h : slot.selectLists slice first = .ok selected) :
    slice < slot.table.length ∧ selected =
      { slot with
        blockLists := slot.blockLists.mapIdx fun block old => if first ≤ block then slice else old
        current := slice } := by
  unfold selectLists at h
  split at h
  · rename_i hslice
    cases h
    exact ⟨hslice, rfl⟩
  · cases h

namespace Decoder

variable {d : Decoder} {hdr : SliceHeader} {slice : Nat} {ref : SlotRef} {pps : Pps}
  {slot selected : Slot} {fault : Fault}

theorem modifySlot_eq (d : Decoder) (ref : SlotRef) (f : Slot → Slot) :
    ∃ layers, d.modifySlot ref f = { d with layers } := by
  unfold modifySlot modifyDpb modifyLayer
  split
  · exact ⟨_, rfl⟩
  · exact ⟨_, rfl⟩

/-! ## The lists that a slice uses -/

theorem chooseCollocated_eq (d : Decoder) (hdr : SliceHeader) (second : Bool) (list : RefList) :
    ∃ collocated, d.chooseCollocated hdr second list = { d with collocated } := by
  unfold chooseCollocated
  split
  · split
    · exact ⟨_, rfl⟩
    · exact ⟨_, rfl⟩
  · exact ⟨_, rfl⟩

/-- **What building a list can do**: fail and leave all as it is, or choose the collocated
picture. -/
theorem buildList_cases (d : Decoder) (hdr : SliceHeader) (ref : SlotRef) (second : Bool) :
    (∃ fault, fault.concernsLists = true ∧ d.buildList hdr ref second = (.error fault, d)) ∨
      ∃ list collocated, d.buildList hdr ref second = (.ok list, { d with collocated }) := by
  unfold buildList
  dsimp only
  split
  · rename_i fault hfault
    exact Or.inl ⟨fault, SliceLists.concernsLists_of_build hfault, rfl⟩
  · rename_i list _
    obtain ⟨collocated, he⟩ := d.chooseCollocated_eq hdr second list
    exact Or.inr ⟨list, collocated, congrArg (Prod.mk _) he⟩

/-- Building the lists of a slice chooses the collocated picture, at most. -/
theorem buildUsed_cases (d : Decoder) (hdr : SliceHeader) (ref : SlotRef) (both : Bool) :
    (∃ fault collocated, fault.concernsLists = true ∧
      d.buildUsed hdr ref both = (.error fault, { d with collocated })) ∨
      ∃ lists collocated, d.buildUsed hdr ref both = (.ok lists, { d with collocated }) := by
  unfold buildUsed
  obtain ⟨fault, hconcerns, he⟩ | ⟨list0, collocated, he⟩ := d.buildList_cases hdr ref false
  · rw [he]
    exact Or.inl ⟨fault, d.collocated, hconcerns, rfl⟩
  · rw [he]
    dsimp only
    split
    · obtain ⟨fault, hconcerns, he'⟩ | ⟨list1, collocated', he'⟩ :=
        buildList_cases { d with collocated } hdr ref true
      · rw [he']
        exact Or.inl ⟨fault, collocated, hconcerns, rfl⟩
      · rw [he']
        exact Or.inr ⟨_, collocated', rfl⟩
    · exact Or.inr ⟨_, collocated, rfl⟩

/-! ## The ways through a slice -/

/-- A slice begins: the slot of the current picture has it `selected`. -/
structure Selects (d : Decoder) (hdr : SliceHeader) (slice : Nat) (ref : SlotRef) (pps : Pps)
    (slot selected : Slot) : Prop where
  current : d.current = some ref
  pps_eq : d.pps = some pps
  slot_eq : d.slot? ref = some slot
  select_eq : slot.selectLists slice (pps.tileScan hdr.address) = .ok selected

/-- **What building the lists of a slice can do**, from its answer to the state that it leaves. -/
inductive Builds (d : Decoder) (hdr : SliceHeader) (slice : Nat) :
    Except Fault SliceLists → Decoder → Prop
  | refused {fault : Fault} (concerns : fault.concernsLists = false) :
      Builds d hdr slice (.error fault) d
  | failed {ref : SlotRef} {pps : Pps} {slot selected : Slot} {fault : Fault}
      {collocated : Option SlotRef} (selects : d.Selects hdr slice ref pps slot selected)
      (concerns : fault.concernsLists = true) :
      Builds d hdr slice (.error fault) { d.modifySlot ref fun _ => selected with collocated }
  | unlisted {ref : SlotRef} {pps : Pps} {slot selected : Slot} (intra : hdr.type = .i)
      (selects : d.Selects hdr slice ref pps slot selected) :
      Builds d hdr slice (.ok {}) (d.modifySlot ref fun _ => selected)
  | listed {ref : SlotRef} {pps : Pps} {slot selected : Slot} {lists : SliceLists}
      {collocated : Option SlotRef} (inter : hdr.type ≠ .i)
      (selects : d.Selects hdr slice ref pps slot selected)
      (built : ((d.modifySlot ref fun _ => selected).buildUsed hdr ref (hdr.type = .b)).1 =
        .ok lists) :
      Builds d hdr slice (.ok lists)
        (({ d.modifySlot ref fun _ => selected with collocated } : Decoder).modifySlot ref
          (·.setCurrentLists lists))

/-- A slice is refused before it has changed anything, or it begins. -/
theorem startSlice_cases (d : Decoder) (hdr : SliceHeader) (slice : Nat) :
    (∃ fault, fault.concernsLists = false ∧ d.startSlice hdr slice = (.error fault, d)) ∨
      ∃ ref pps slot selected, d.Selects hdr slice ref pps slot selected ∧
        d.startSlice hdr slice = (.ok (), d.modifySlot ref fun _ => selected) := by
  unfold startSlice
  cases hpicture : d.currentPicture with
  | error fault =>
    refine Or.inl ⟨fault, ?_, rfl⟩
    unfold currentPicture at hpicture
    split at hpicture
    · cases hpicture
      rfl
    · cases hpicture
      rfl
    · cases hpicture
  | ok picture =>
    obtain ⟨ref, pps⟩ := picture
    have hturned : d.current = some ref ∧ d.pps = some pps := by
      unfold currentPicture at hpicture
      split at hpicture
      · cases hpicture
      · cases hpicture
      · rename_i hc hp
        cases hpicture
        exact ⟨hc, hp⟩
    dsimp only
    cases hslot : d.slot? ref with
    | none => exact Or.inl ⟨_, rfl, rfl⟩
    | some slot =>
      dsimp only
      cases hselect : slot.selectLists slice (pps.tileScan hdr.address) with
      | error fault =>
        refine Or.inl ⟨fault, ?_, rfl⟩
        unfold Slot.selectLists at hselect
        split at hselect
        · cases hselect
        · cases hselect
          rfl
      | ok selected =>
        exact Or.inr ⟨ref, pps, slot, selected, ⟨hturned.1, hturned.2, hslot, hselect⟩, rfl⟩

theorem builds (d : Decoder) (hdr : SliceHeader) (slice : Nat) :
    d.Builds hdr slice (d.buildLists hdr slice).1 (d.buildLists hdr slice).2 := by
  unfold buildLists
  obtain ⟨fault, hconcerns, he⟩ | ⟨ref, pps, slot, selected, hselects, he⟩ :=
    d.startSlice_cases hdr slice
  · rw [he]
    exact .refused hconcerns
  · obtain ⟨layers, hm⟩ := d.modifySlot_eq ref fun _ => selected
    have hcurrent : (d.modifySlot ref fun _ => selected).current = some ref :=
      (congrArg (·.current) hm).trans hselects.current
    rw [he]
    dsimp only
    rw [hcurrent]
    dsimp only
    split
    · rename_i hintra
      exact .unlisted hintra hselects
    · rename_i hinter
      split
      · exact .failed hselects rfl
      · obtain ⟨fault, collocated, hconcerns, hb⟩ | ⟨lists, collocated, hb⟩ :=
          (d.modifySlot ref fun _ => selected).buildUsed_cases hdr ref (hdr.type = .b)
        · rw [hb]
          exact .failed hselects hconcerns
        · rw [hb]
          exact .listed hinter hselects (congrArg Prod.fst hb)

/-- A slice that is answered lists has begun, and is answered empty ones if it uses none. -/
theorem selects_of_buildLists {lists : SliceLists} (h : (d.buildLists hdr slice).1 = .ok lists) :
    (∃ ref pps slot selected, d.Selects hdr slice ref pps slot selected) ∧
      (hdr.type = .i → lists = {}) := by
  have hbuilds := d.builds hdr slice
  rw [h] at hbuilds
  generalize (d.buildLists hdr slice).2 = d' at hbuilds
  cases hbuilds with
  | unlisted _ hselects => exact ⟨⟨_, _, _, _, hselects⟩, fun _ => rfl⟩
  | listed hinter hselects => exact ⟨⟨_, _, _, _, hselects⟩, fun ht => absurd ht hinter⟩

/-! ### Properties that slices carry on -/

/-- A property of states that a slice carries on when it begins. -/
theorem startSlice_preserves {P : Decoder → Prop} (h : P d)
    (select : ∀ {ref pps slot selected}, d.Selects hdr slice ref pps slot selected →
      P (d.modifySlot ref fun _ => selected)) : P (d.startSlice hdr slice).2 := by
  obtain ⟨_, -, he⟩ | ⟨ref, pps, slot, selected, hselects, he⟩ := d.startSlice_cases hdr slice
  · rw [he]
    exact h
  · rw [he]
    exact select hselects

/-- **A property of states that each step of a slice carries on**: its selection, the choice of the
collocated picture, and the lists that it is given. -/
theorem buildLists_preserves {P : Decoder → Prop} (h : P d)
    (select : ∀ {ref pps slot selected}, d.Selects hdr slice ref pps slot selected →
      P (d.modifySlot ref fun _ => selected))
    (choose : ∀ {d' : Decoder} (collocated : Option SlotRef), P d' → P { d' with collocated })
    (give : ∀ {d' mid : Decoder} {ref : SlotRef} {both : Bool} {lists : SliceLists},
      (mid.buildUsed hdr ref both).1 = .ok lists → P d' →
      P (d'.modifySlot ref (·.setCurrentLists lists))) : P (d.buildLists hdr slice).2 := by
  have hbuilds := d.builds hdr slice
  generalize (d.buildLists hdr slice).1 = answer, (d.buildLists hdr slice).2 = d' at hbuilds ⊢
  cases hbuilds with
  | refused => exact h
  | failed hselects => exact choose _ (select hselects)
  | unlisted _ hselects => exact select hselects
  | listed _ hselects hbuilt => exact give hbuilt (choose _ (select hselects))

theorem startSlice_eq (d : Decoder) (hdr : SliceHeader) (slice : Nat) :
    ∃ layers, (d.startSlice hdr slice).2 = { d with layers } :=
  startSlice_preserves (P := fun d' => ∃ layers, d' = { d with layers }) ⟨_, rfl⟩
    fun _ => d.modifySlot_eq _ _

/-- The lists of a slice change the current slot and the collocated picture, and nothing else. -/
theorem buildLists_eq (d : Decoder) (hdr : SliceHeader) (slice : Nat) :
    ∃ layers collocated, (d.buildLists hdr slice).2 = { d with layers, collocated } := by
  let P (d' : Decoder) := ∃ layers collocated, d' = { d with layers, collocated }
  refine buildLists_preserves (P := P) ⟨_, _, rfl⟩ (fun _ => ?_) ?_ ?_
  · obtain ⟨layers, hm⟩ := d.modifySlot_eq _ _
    exact ⟨layers, d.collocated, hm⟩
  · rintro _ collocated ⟨layers, _, rfl⟩
    exact ⟨layers, collocated, rfl⟩
  · rintro _ _ ref _ lists - ⟨layers, collocated, rfl⟩
    obtain ⟨layers', hm⟩ := modifySlot_eq { d with layers, collocated } ref
      (·.setCurrentLists lists)
    exact ⟨layers', collocated, hm⟩

end Decoder

end PictureBuffer
