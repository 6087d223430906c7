import PictureBuffer.Proofs.BlockLists
import PictureBuffer.Proofs.ValidLists

/-!
# What a slice leaves behind

A slice first has its blocks pointed at an entry of the picture's table of lists, and only then it
is found out whether there are lists to put there (`Decoder.Builds`).

* `Slot.Points`, `Slot.Reads`: where the blocks of a slice point, and what they read there.
* `leavesSlices_of_error`: a slice that is not answered lists takes nothing from the others
  (`Decoder.LeavesSlices`). No list of any picture changes, and neither do the sets, the flags and
  the frames. A slice that has failed after it began reads whatever is under its index.
* `reads_of_buildLists`: a slice that is answered lists reads them, unless it uses none. Then the
  answer is empty lists, but the entry under its index stays what an earlier slice has made of it,
  so the picture may read others (`not_always_answered`).
-/

namespace PictureBuffer

/-! ## The blocks of a slot -/

namespace Slot

variable {slot selected : Slot} {hdr : SliceHeader} {slice first : Nat} {lists : SliceLists}

/-- From block `first` on, the picture points at the lists under index `slice`, the selected
ones. -/
structure Points (slot : Slot) (first slice : Nat) : Prop where
  current : slot.current = slice
  room : slice < slot.table.length
  blocks : ∀ block < slot.blockLists.length, first ≤ block → slot.blockLists[block]? = some slice

theorem points_of_selectLists (h : slot.selectLists slice first = .ok selected) :
    selected.Points first slice := by
  obtain ⟨hslice, rfl⟩ := selectLists_ok h
  refine ⟨rfl, hslice, fun block hblock hfirst => ?_⟩
  rw [List.length_mapIdx] at hblock
  simp [hblock, hfirst]

/-- What a slot keeps when a slice is selected: all but where its blocks point. -/
theorem kept_of_selectLists (h : slot.selectLists slice first = .ok selected) :
    selected.table = slot.table ∧ selected.flags = slot.flags ∧ selected.frame = slot.frame := by
  obtain ⟨-, rfl⟩ := selectLists_ok h
  exact ⟨rfl, rfl, rfl⟩

/-- The blocks before the slice read what they read before it was selected. -/
theorem listsAt?_selectLists (h : slot.selectLists slice first = .ok selected) {block : Nat}
    (hblock : block < first) : selected.listsAt? block = slot.listsAt? block := by
  obtain ⟨-, rfl⟩ := selectLists_ok h
  unfold listsAt?
  rw [List.getElem?_mapIdx]
  simp [Nat.not_le.mpr hblock]

/-- **The picture reads `lists?` for a slice** that begins at the block `first`: they are the
selected lists, and those of every block from there on. -/
structure Reads (slot : Slot) (first : Nat) (lists? : Option SliceLists) : Prop where
  selected : slot.currentLists? = lists?
  blocks : ∀ block < slot.blockLists.length, first ≤ block → slot.listsAt? block = lists?

theorem Points.reads (h : slot.Points first slice) : slot.Reads first slot.table[slice]? := by
  refine ⟨?_, fun block hblock hfirst => ?_⟩
  · rw [currentLists?, h.current]
  · rw [listsAt?, h.blocks block hblock hfirst]
    rfl

/-- Lists are put under the index of the slice that was selected. -/
theorem Points.reads_setCurrentLists (h : slot.Points first slice) (lists : SliceLists) :
    (slot.setCurrentLists lists).Reads first (some lists) := by
  have hpoints : (slot.setCurrentLists lists).Points first slice :=
    ⟨h.current, (List.length_set ..).symm ▸ h.room, h.blocks⟩
  have hself : (slot.setCurrentLists lists).table[slice]? = some lists := by
    rw [setCurrentLists, h.current]
    exact List.getElem?_set_self h.room
  rw [← hself]
  exact hpoints.reads

/-- What is under the index of a slice that was answered `lists`: the answer, or what was there
before if the slice uses no lists. -/
def kept? (slot : Slot) (hdr : SliceHeader) (slice : Nat) (lists : SliceLists) :
    Option SliceLists :=
  if hdr.type = .i then slot.table[slice]? else some lists

theorem kept?_eq_iff (h : hdr.type = .i → lists = {}) :
    slot.kept? hdr slice lists = some lists ↔ hdr.type ≠ .i ∨ slot.table[slice]? = some {} := by
  unfold kept?
  by_cases hintra : hdr.type = .i
  · rw [if_pos hintra, h hintra]
    simp [hintra]
  · rw [if_neg hintra]
    simp [hintra]

end Slot

namespace Decoder

variable {d : Decoder} {hdr : SliceHeader} {slice : Nat} {ref : SlotRef} {pps : Pps}
  {slot selected : Slot} {fault : Fault} {lists : SliceLists}

/-! ## A slice without an answer -/

/-- **A slice that was not answered leaves the other slices alone.** -/
structure LeavesSlices (d : Decoder) (hdr : SliceHeader) (slice : Nat) (fault : Fault)
    (d' : Decoder) : Prop where
  /-- No list that is kept with any picture changes. -/
  tables : ∀ ref, (d'.slot? ref).map (·.table) = (d.slot? ref).map (·.table)
  flags : ∀ ref, (d'.slot? ref).map (·.flags) = (d.slot? ref).map (·.flags)
  frames : ∀ ref, (d'.slot? ref).map (·.frame) = (d.slot? ref).map (·.frame)
  /-- The contents of the frames are shared, like the pictures that wait. -/
  shared : d'.toShared = d.toShared
  sets : d'.sets = d.sets
  others : ∀ ref, d.current ≠ some ref → d'.slot? ref = d.slot? ref
  /-- The blocks before the slice read what they read before. -/
  before : ∀ ref pps, d.current = some ref → d.pps = some pps →
    ∀ block < pps.tileScan hdr.address,
      (d'.slot? ref).bind (·.listsAt? block) = (d.slot? ref).bind (·.listsAt? block)
  /-- If the lists were at fault the slice has begun, and reads what is under its index. -/
  begun : fault.concernsLists = true → ∃ ref pps slot slot', d.current = some ref ∧
    d.pps = some pps ∧ d.slot? ref = some slot ∧ d'.slot? ref = some slot' ∧
    slice < slot.table.length ∧ slot'.Reads (pps.tileScan hdr.address) slot.table[slice]?
  /-- Otherwise, as with an index out of range or with no picture, nothing has changed at all. -/
  refused : fault.concernsLists = false → d' = d

/-- Where one slot changes, and keeps a part, that part stays the same in all of them. -/
theorem Selects.map_slot? {α : Type} (h : d.Selects hdr slice ref pps slot selected)
    (collocated : Option SlotRef) {f : Slot → α} (hf : f selected = f slot) (r : SlotRef) :
    (({ d.modifySlot ref fun _ => selected with collocated } : Decoder).slot? r).map f =
      (d.slot? r).map f := by
  rw [h.slot?]
  split
  · rename_i hr
    rw [hr, h.slot_eq, Option.map_some, Option.map_some, hf]
  · rfl

/-- **A slice that is not answered lists leaves the other slices alone**, at whichever of its exits
it ends. -/
theorem leavesSlices_of_error (h : (d.buildLists hdr slice).1 = .error fault) :
    d.LeavesSlices hdr slice fault (d.buildLists hdr slice).2 := by
  have hbuilds := d.builds hdr slice
  rw [h] at hbuilds
  generalize (d.buildLists hdr slice).2 = d' at hbuilds
  cases hbuilds with
  | refused hconcerns =>
    refine ⟨fun _ => rfl, fun _ => rfl, fun _ => rfl, rfl, rfl, fun _ _ => rfl,
      fun _ _ _ _ _ _ => rfl, fun hlists => ?_, fun _ => rfl⟩
    cases hconcerns.symm.trans hlists
  | @failed ref pps slot selected _ collocated hselects hconcerns =>
    obtain ⟨htable, hflags, hframe⟩ := Slot.kept_of_selectLists hselects.select_eq
    have hpoints := Slot.points_of_selectLists hselects.select_eq
    obtain ⟨layers, hm⟩ := d.modifySlot_eq ref fun _ => selected
    refine ⟨hselects.map_slot? collocated htable, hselects.map_slot? collocated hflags,
      hselects.map_slot? collocated hframe, ?_, ?_, fun r hr => ?_,
      fun r p hr hp block hblock => ?_, fun _ => ?_, fun hrefused => ?_⟩
    · rw [hm]
    · rw [hm]
    · rw [hselects.slot?, if_neg]
      rintro rfl
      exact hr hselects.current
    · obtain rfl := Option.some.inj (hr.symm.trans hselects.current)
      obtain rfl := Option.some.inj (hp.symm.trans hselects.pps_eq)
      rw [hselects.slot?, if_pos rfl, hselects.slot_eq, Option.bind_some, Option.bind_some,
        Slot.listsAt?_selectLists hselects.select_eq hblock]
    · refine ⟨ref, pps, slot, selected, hselects.current, hselects.pps_eq, hselects.slot_eq, ?_,
        htable ▸ hpoints.room, htable ▸ hpoints.reads⟩
      rw [hselects.slot?, if_pos rfl]
    · cases hconcerns.symm.trans hrefused

/-! ## A slice with an answer -/

/-- **What the picture has for a slice that was answered lists**: it reads them, from the first
block of the slice on, or what was under the index of the slice before if that one uses no lists.
So it reads the answer exactly if the slice uses lists, or those under its index were empty. -/
theorem reads_of_buildLists (h : (d.buildLists hdr slice).1 = .ok lists) :
    ∃ ref pps old new, d.current = some ref ∧ d.pps = some pps ∧ d.slot? ref = some old ∧
      (d.buildLists hdr slice).2.slot? ref = some new ∧
      new.Reads (pps.tileScan hdr.address) (old.kept? hdr slice lists) ∧
      (new.Reads (pps.tileScan hdr.address) (some lists) ↔
        hdr.type ≠ .i ∨ old.table[slice]? = some {}) := by
  suffices ∃ ref pps old new, d.current = some ref ∧ d.pps = some pps ∧ d.slot? ref = some old ∧
      (d.buildLists hdr slice).2.slot? ref = some new ∧
      new.Reads (pps.tileScan hdr.address) (old.kept? hdr slice lists) by
    obtain ⟨ref, pps, old, new, hc, hp, hold, hnew, hreads⟩ := this
    refine ⟨ref, pps, old, new, hc, hp, hold, hnew, hreads, ?_⟩
    rw [← Slot.kept?_eq_iff (selects_of_buildLists h).2]
    exact ⟨fun hanswer => hreads.selected.symm.trans hanswer.selected, fun he => he ▸ hreads⟩
  have hbuilds := d.builds hdr slice
  rw [h] at hbuilds
  generalize (d.buildLists hdr slice).2 = d' at hbuilds
  cases hbuilds with
  | @unlisted ref pps slot selected hintra hselects =>
    refine ⟨ref, pps, slot, selected, hselects.current, hselects.pps_eq, hselects.slot_eq, ?_, ?_⟩
    · rw [slot?_modifySlot, if_pos rfl, hselects.slot_eq]
      rfl
    · rw [Slot.kept?, if_pos hintra, ← (Slot.kept_of_selectLists hselects.select_eq).1]
      exact (Slot.points_of_selectLists hselects.select_eq).reads
  | @listed ref pps slot selected _ collocated hinter hselects =>
    refine ⟨ref, pps, slot, selected.setCurrentLists lists, hselects.current, hselects.pps_eq,
      hselects.slot_eq, ?_, ?_⟩
    · rw [slot?_modifySlot, if_pos rfl, hselects.slot?, if_pos rfl]
      rfl
    · rw [Slot.kept?, if_neg hinter]
      exact (Slot.points_of_selectLists hselects.select_eq).reads_setCurrentLists lists

end Decoder

/-! ## Sessions -/

namespace Session

/-- The first slice refers back. -/
def backListed : Session := tilesStarted.afterAll [.run 0 (.buildLists refersBack 0)]

/-- The second tile is a slice whose second list names a picture that is not there. -/
def namesNone : SliceHeader where
  type := .b
  address := 2
  list0 := { numRefs := 1 }
  list1 := { numRefs := 1, modified := true, entries := [9] }

/-- A slice that fails in its second list has taken its blocks from the slice before, but the block
before it reads the lists that it read. -/
theorem backListed_leavesSlices : ∃ d, backListed.decoder? 0 = some d ∧
    (d.buildLists namesNone 1).1 = .error (.invalidReferenceIndex 9 1) ∧
    d.LeavesSlices namesNone 1 (.invalidReferenceIndex 9 1) (d.buildLists namesNone 1).2 ∧
    ((d.buildLists namesNone 1).2.slot? ⟨0, 1⟩).bind (·.listsAt? 3) = some backLists := by
  obtain ⟨d, hd⟩ : ∃ d, backListed.decoder? 0 = some d := ⟨_, rfl⟩
  have hfault : (d.buildLists namesNone 1).1 = .error (.invalidReferenceIndex 9 1) := by
    cases hd
    decide +kernel
  have hleaves := Decoder.leavesSlices_of_error hfault
  refine ⟨d, hd, hfault, hleaves, ?_⟩
  rw [hleaves.before ⟨0, 1⟩ twoTiles]
  all_goals
    cases hd
    decide +kernel

/-- The second tile is a slice that refers back twice. -/
def refersTwice : SliceHeader := { refersBack with address := 2, list0 := { numRefs := 2 } }

/-- The lists of a slice that refers back twice. -/
def twiceLists : SliceLists where
  list0 := ⟨[⟨0, ⟨0, 0⟩, false⟩, ⟨0, ⟨0, 0⟩, false⟩]⟩

/-- A slice that uses lists has them in the picture, although its index was used before. -/
theorem refersTwice_reads : ∃ d new, backListed.decoder? 0 = some d ∧
    (d.buildLists refersTwice 0).1 = .ok twiceLists ∧
    (d.buildLists refersTwice 0).2.slot? ⟨0, 1⟩ = some new ∧ new.Reads 4 (some twiceLists) := by
  obtain ⟨d, hd⟩ : ∃ d, backListed.decoder? 0 = some d := ⟨_, rfl⟩
  have hlists : (d.buildLists refersTwice 0).1 = .ok twiceLists := by
    cases hd
    decide +kernel
  obtain ⟨ref, pps, old, new, hc, hp, -, hnew, -, hreads⟩ := Decoder.reads_of_buildLists hlists
  have hturned : d.current = some ⟨0, 1⟩ ∧ d.pps = some twoTiles := by
    cases hd
    decide +kernel
  obtain rfl := Option.some.inj (hc.symm.trans hturned.1)
  obtain rfl := Option.some.inj (hp.symm.trans hturned.2)
  exact ⟨d, new, hd, hlists, hnew, hreads.mpr (Or.inl (by decide))⟩

/-- **A slice that uses no lists may be answered empty lists where the picture has others**: it
leaves those of an earlier slice under its index. So the picture does not always read the lists that
a slice was answered. -/
theorem not_always_answered : ¬ ∀ (config : Config) (provider : Provider) (log : List Moment)
    (s : Session) (i : Nat) (d : Decoder) (hdr : SliceHeader) (slice : Nat) (lists : SliceLists),
    Run config provider log s → s.decoder? i = some d →
    (d.buildLists hdr slice).1 = .ok lists →
    ∃ ref pps slot, d.current = some ref ∧ d.pps = some pps ∧
      (d.buildLists hdr slice).2.slot? ref = some slot ∧
      slot.Reads (pps.tileScan hdr.address) (some lists) := by
  intro h
  have run : Run {} {} _ backListed := run_all _ (run_all _ (@Run.start {} {}))
  obtain ⟨d, hd⟩ : ∃ d, backListed.decoder? 0 = some d := ⟨_, rfl⟩
  have hlists : (d.buildLists { type := .i, address := 2 } 0).1 = .ok {} := by
    cases hd
    decide +kernel
  obtain ⟨ref, pps, slot, hc, -, hslot, hreads⟩ := h {} {} _ _ 0 d _ 0 {} run hd hlists
  have hother : d.current = some ⟨0, 1⟩ ∧
      ((d.buildLists { type := .i, address := 2 } 0).2.slot? ⟨0, 1⟩).bind Slot.currentLists? =
        some backLists := by
    cases hd
    decide +kernel
  obtain rfl := Option.some.inj (hc.symm.trans hother.1)
  rw [hslot, Option.bind_some, hreads.selected] at hother
  exact absurd hother.2 (by decide)

end Session

end PictureBuffer
