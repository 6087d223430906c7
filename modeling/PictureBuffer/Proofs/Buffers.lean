import PictureBuffer.Decoder.Derivation
import PictureBuffer.Proofs.Origins

/-!
# One slot at a time

The operations on the picture buffers, each described by what it does to a single slot
(`Decoder.slot?_…`). Whatever is said of the slots of a decoder is proved through these and not by
opening an operation.

A new picture is described by `Dpb.slot?_insert`: all that a later theorem needs to know of its slot
is that it is `NewPicture.slot`. A stand-in is produced from the start (`Store.Produced`), and stays
so for as long as somebody holds it (`Store.Produced.evolves`).
-/

namespace PictureBuffer

/-! ## Produced frames -/

namespace Store

variable {store store' : Store} {id : FrameId}

/-- The frame is in the store, and it is produced. -/
def Produced (store : Store) (id : FrameId) : Prop :=
  ∃ frame, store.frame? id = some frame ∧ frame.progress = .produced

/-- A produced frame stays produced as long as it is held. -/
theorem Produced.evolves (h : store.Produced id) (he : store.Evolves store')
    (hp : 0 < store'.handles id) : store'.Produced id := by
  obtain ⟨cell, hc⟩ := cell?_of_handles_pos hp
  have hnew : store'.frame? id = some cell.frame := by rw [frame?, hc]; rfl
  obtain ⟨frame, hf, hprogress⟩ := h
  have hlt : id < store.cells.size := by
    rw [frame?] at hf
    obtain ⟨old, hold, -⟩ := Option.map_eq_some_iff.mp hf
    exact lt_size_of_cell? hold
  obtain ⟨old, hold, -, hkeep⟩ := he.frames hlt hnew
  obtain rfl : frame = old := Option.some.inj (hf.symm.trans hold)
  refine ⟨cell.frame, hnew, ?_⟩
  rw [hkeep (by rw [hprogress]; decide), hprogress]

/-- The frame is in the store, and its production has not ended. -/
def Pending (store : Store) (id : FrameId) : Prop :=
  ∃ frame, store.frame? id = some frame ∧ frame.progress = .pending

theorem frame?_update (store : Store) (id x : FrameId) (f : Frame → Frame) :
    (store.update id f).frame? x = if x = id then (store.frame? x).map f else store.frame? x := by
  unfold frame?
  rw [cell?_update]
  split
  · cases store.cell? x <;> rfl
  · rfl

/-- **The frame is new**, as the provider gives it for a picture of this format and size, but for
side data. -/
def Supplied (store : Store) (id : FrameId) (format : Format) (width height : Nat) : Prop :=
  ∃ planes sideData,
    store.frame? id = some { Frame.blank ⟨format, width, height, planes⟩ with sideData }

variable {format : Format} {width height : Nat}

theorem Supplied.pending (h : store.Supplied id format width height) : store.Pending id := by
  obtain ⟨planes, sideData, hf⟩ := h
  exact ⟨_, hf, rfl⟩

theorem supplied_acquire (h : store.acquire format width height = (some id, store')) :
    store'.Supplied id format width height := by
  have given : ∀ (planes : List PlaneGeometry) (pooled : Bool),
      (({ store with acquisitions := store.acquisitions + 1 } : Store).insert
        (.blank ⟨format, width, height, planes⟩) pooled).2.Supplied store.cells.size format width
          height := by
    intro planes pooled
    refine ⟨planes, [], ?_⟩
    rw [frame?, cell?_insert, if_pos rfl]
    rfl
  unfold acquire at h
  dsimp only at h
  split at h
  · cases h
  · cases h
    exact given _ _
  · split at h
    · cases h
      exact given _ _
    · cases h

/-- Side data leaves the samples alone, and does not end the production. -/
theorem supplied_attachAll (sideData : List SideData) : ∀ {store : Store},
    store.Supplied id format width height →
    (store.attachAll id sideData).2.Supplied id format width height := by
  induction sideData with
  | nil => exact fun h => h
  | cons data rest ih =>
    intro store h
    obtain ⟨planes, attached, hf⟩ := h
    unfold attachAll attach
    dsimp only
    split
    · rename_i hs
      split at hs
      · cases hs
        refine ih ⟨planes, attached ++ [data], ?_⟩
        rw [frame?_update, if_pos rfl]
        exact congrArg _ hf
      · cases hs
    · rename_i hs
      split at hs
      · cases hs
      · cases hs
        exact ⟨planes, attached, hf⟩

end Store

/-! ## Pictures entering a buffer -/

namespace Dpb

variable {dpb dpb' : Dpb} {store store' : Store} {sps : Sps} {new : NewPicture} {index : Nat}

/-- The slot of a picture that has entered. -/
theorem slot?_insert (h : dpb.insert store sps new = (.ok index, dpb', store')) :
    ∃ frame, dpb'.slot? index = some (new.slot sps frame) ∧
      store'.Supplied frame sps.format sps.width sps.height := by
  unfold insert at h
  cases hfree : dpb.slots.findIdx? (·.isFree) with
  | none =>
    rw [hfree] at h
    cases h
  | some free =>
    rw [hfree] at h
    dsimp only at h
    rcases ha : store.acquire sps.format sps.width sps.height with ⟨_ | frame, store₁⟩
    · rw [ha] at h
      cases h
    · rw [ha] at h
      dsimp only at h
      have hsupplied := Store.supplied_attachAll new.sideData (Store.supplied_acquire ha)
      rcases hs : store₁.attachAll frame new.sideData with ⟨_ | _, store₂⟩
      · rw [hs] at h
        cases h
      · rw [hs] at h hsupplied
        cases h
        obtain ⟨hlt, -⟩ := List.findIdx?_eq_some_iff_getElem.mp hfree
        exact ⟨frame, by rw [slot?_set hlt, if_pos rfl], hsupplied⟩

/-- What a stand-in shows: the frame that the provider gives, painted if `fill` is set. -/
def standInFrame (sps : Sps) (fill : Bool) (planes : List PlaneGeometry)
    (sideData : List SideData) : Frame :=
  let frame := { Frame.blank ⟨sps.format, sps.width, sps.height, planes⟩ with sideData }
  (if fill then frame.fillNeutral sps.bitDepth else frame).produce

/-- The slot of a stand-in that has entered, and its frame. -/
theorem frame?_insertStandIn {fill : Bool}
    (h : dpb.insertStandIn store sps new fill = (.ok index, dpb', store')) :
    ∃ frame planes sideData, store'.frame? frame = some (standInFrame sps fill planes sideData) ∧
      dpb'.slot? index = some
        (({ new with flags := .standIn, picStruct := .frame } : NewPicture).slot sps frame) := by
  unfold insertStandIn at h
  rcases hi : dpb.insert store sps { new with flags := .standIn, picStruct := .frame } with
    ⟨_ | entered, dpb₁, store₁⟩
  · rw [hi] at h
    cases h
  · rw [hi] at h
    obtain ⟨frame, hslot, planes, sideData, hf⟩ := slot?_insert hi
    have hframe : (dpb₁.slot? entered).bind (·.frame) = some frame := by
      rw [hslot]
      rfl
    dsimp only at h
    rw [hframe] at h
    cases h
    refine ⟨frame, planes, sideData, ?_, hslot⟩
    rw [Store.frame?_update, if_pos rfl, hf]
    rfl

/-- A stand-in is produced from the start. -/
theorem produced_standInFrame (sps : Sps) (fill : Bool) (planes : List PlaneGeometry)
    (sideData : List SideData) : (standInFrame sps fill planes sideData).progress = .produced := by
  unfold standInFrame
  split <;> rfl

theorem slot?_insertStandIn {fill : Bool}
    (h : dpb.insertStandIn store sps new fill = (.ok index, dpb', store')) :
    ∃ frame, store'.Produced frame ∧ dpb'.slot? index =
      some (({ new with flags := .standIn, picStruct := .frame } : NewPicture).slot sps frame) := by
  obtain ⟨frame, planes, sideData, hf, hslot⟩ := frame?_insertStandIn h
  exact ⟨frame, ⟨_, hf, produced_standInFrame sps fill planes sideData⟩, hslot⟩

/-- The look-up finds a picture that the reference names. -/
theorem slot?_of_find? {lookup : Lookup} {target : Int} (h : dpb.find? lookup target = some index) :
    ∃ slot, dpb.slot? index = some slot ∧ slot.isFree = false ∧
      lookup.names target slot.poc = true := by
  obtain ⟨hlt, hp, -⟩ := List.findIdx?_eq_some_iff_getElem.mp h
  rw [Bool.and_eq_true, Bool.not_eq_true'] at hp
  exact ⟨_, List.getElem?_eq_getElem hlt, hp⟩

/-- The look-up finds nothing if and only if no picture is named. -/
theorem find?_eq_none_iff {lookup : Lookup} {target : Int} :
    dpb.find? lookup target = none ↔
      ∀ i slot, dpb.slot? i = some slot → slot.isFree = false →
        lookup.names target slot.poc = false := by
  unfold find?
  rw [List.findIdx?_eq_none_iff]
  constructor
  · intro h i slot hs hfree
    have hslot := h slot (List.mem_of_getElem? hs)
    rw [hfree] at hslot
    exact hslot
  · intro h slot hm
    obtain ⟨i, hi⟩ := List.getElem?_of_mem hm
    cases hfree : slot.isFree with
    | true => rfl
    | false => exact h i slot hi hfree

/-- A buffer holds an order count if and only if one of its pictures has it. -/
theorem holds_iff {poc : Int} : dpb.holds poc = true ↔
    ∃ i slot, dpb.slot? i = some slot ∧ slot.isFree = false ∧ slot.poc = poc := by
  unfold holds
  rw [List.any_eq_true]
  constructor
  · rintro ⟨slot, hm, hp⟩
    rw [Bool.and_eq_true, Bool.not_eq_true', beq_iff_eq] at hp
    obtain ⟨i, hi⟩ := List.getElem?_of_mem hm
    exact ⟨i, slot, hi, hp⟩
  · rintro ⟨i, slot, hi, hfree, hp⟩
    refine ⟨slot, List.mem_of_getElem? hi, ?_⟩
    rw [Bool.and_eq_true, Bool.not_eq_true', beq_iff_eq]
    exact ⟨hfree, hp⟩

end Dpb

/-! ## The slots of a decoder -/

/-- One layer is replaced. -/
theorem Layers.get?_set {layers : Layers} {n : Nat} {old : Layer} (h : layers.get? n = some old)
    (new : Layer) (m : Nat) :
    (layers.set n new).get? m = if m = n then some new else layers.get? m := by
  by_cases hm : m = n
  · subst hm
    rw [if_pos rfl, get?_set_self h]
  · rw [if_neg hm]
    rcases n with _ | _ | n
    · rcases m with _ | _ | m
      · exact absurd rfl hm
      · rfl
      · rfl
    · rcases m with _ | _ | m
      · rfl
      · exact absurd rfl hm
      · rfl
    · rfl

namespace Decoder

variable {d d' : Decoder} {ref : SlotRef} {n : Nat}

theorem slot?_eq {l : Layer} (hg : d.layers.get? ref.layer = some l) :
    d.slot? ref = l.dpb.slot? ref.index := by
  rw [slot?, layer?, hg]
  rfl

theorem slot?_eq_none (hg : d.layers.get? ref.layer = none) : d.slot? ref = none := by
  rw [slot?, layer?, hg]
  rfl

theorem frameAt?_eq_some_iff {frame : FrameId} :
    d.frameAt? ref = some frame ↔ ∃ slot, d.slot? ref = some slot ∧ slot.frame = some frame :=
  Option.bind_eq_some_iff

/-- One layer is replaced. -/
theorem slot?_set {l l' : Layer} (hg : d.layers.get? n = some l)
    (hl : d'.layers = d.layers.set n l') (ref : SlotRef) :
    d'.slot? ref = if ref.layer = n then l'.dpb.slot? ref.index else d.slot? ref := by
  unfold slot? layer?
  rw [hl, Layers.get?_set hg]
  split <;> rfl

theorem slot?_onDpb {f : Dpb → Store → Dpb × Store} {g : Slot → Slot}
    (hf : ∀ dpb store i, (f dpb store).1.slot? i = (dpb.slot? i).map g) (d : Decoder) (n : Nat)
    (ref : SlotRef) :
    (d.onDpb n f).slot? ref = if ref.layer = n then (d.slot? ref).map g else d.slot? ref := by
  unfold onDpb layer?
  cases hg : d.layers.get? n with
  | none =>
    by_cases h : ref.layer = n
    · subst h
      rw [if_pos rfl, slot?_eq_none hg]
      rfl
    · rw [if_neg h]
  | some l =>
    dsimp only
    rw [slot?_set hg rfl]
    by_cases h : ref.layer = n
    · subst h
      rw [if_pos rfl, if_pos rfl, slot?_eq hg]
      exact hf _ _ _
    · rw [if_neg h, if_neg h]

/-- Flags are taken off the slots of a layer that satisfy a condition. -/
theorem slot?_stripWhere (d : Decoder) (n : Nat) (p : Slot → Bool) (mask : Flags)
    (ref : SlotRef) :
    (d.onDpb n fun dpb store => dpb.stripWhere store p mask).slot? ref =
      if ref.layer = n then
        (d.slot? ref).map fun slot => if p slot then slot.strip mask else slot
      else d.slot? ref :=
  slot?_onDpb (fun _ _ _ => List.getElem?_map) d n ref

theorem slot?_modifyDpb (d : Decoder) (n : Nat) (f : Dpb → Dpb) (ref : SlotRef) :
    (d.modifyDpb n f).slot? ref =
      if ref.layer = n then (d.layers.get? n).bind fun l => (f l.dpb).slot? ref.index
      else d.slot? ref := by
  unfold modifyDpb modifyLayer layer?
  cases hg : d.layers.get? n with
  | none =>
    by_cases h : ref.layer = n
    · subst h
      rw [if_pos rfl]
      exact slot?_eq_none hg
    · rw [if_neg h]
  | some l =>
    dsimp only
    rw [slot?_set hg rfl]
    rfl

/-- One slot is changed. -/
theorem slot?_modifySlot (d : Decoder) (x : SlotRef) (f : Slot → Slot) (ref : SlotRef) :
    (d.modifySlot x f).slot? ref = if ref = x then (d.slot? ref).map f else d.slot? ref := by
  obtain ⟨n, i⟩ := ref
  obtain ⟨m, j⟩ := x
  rw [modifySlot, slot?_modifyDpb]
  dsimp only
  by_cases hn : n = m
  · subst hn
    rw [if_pos rfl]
    cases hg : d.layers.get? n with
    | none =>
      rw [slot?_eq_none hg]
      split <;> rfl
    | some l =>
      rw [Option.bind_some, slot?_eq hg]
      simp only [Dpb.slot?, Dpb.modify, List.getElem?_modify, SlotRef.mk.injEq, true_and]
      by_cases hj : j = i
      · subst hj
        rw [if_pos rfl]
        simp
      · rw [if_neg (Ne.symm hj)]
        simp [hj]
  · rw [if_neg hn, if_neg]
    rintro ⟨rfl, rfl⟩
    exact hn rfl

/-- A slot is marked. -/
theorem slot?_mark (d : Decoder) (n i : Nat) (marking : Marking) (ref : SlotRef) :
    (d.modifyDpb n (·.mark i marking)).slot? ref =
      if ref = ⟨n, i⟩ then (d.slot? ref).map (·.mark marking) else d.slot? ref :=
  slot?_modifySlot d ⟨n, i⟩ (·.mark marking) ref

theorem currentIn_eq_some_iff {i : Nat} : d.currentIn n = some i ↔ d.current = some ⟨n, i⟩ := by
  unfold currentIn
  cases d.current with
  | none => simp
  | some ref =>
    obtain ⟨m, j⟩ := ref
    by_cases h : m = n
    · subst h
      simp
    · simp [h]

/-- All slots of a layer but the current picture's lose their marking. -/
theorem slot?_unmarkExcept (d : Decoder) (n : Nat) (ref : SlotRef) :
    (d.modifyDpb n (·.unmarkExcept (d.currentIn n))).slot? ref =
      if ref.layer = n ∧ d.current ≠ some ref then (d.slot? ref).map (·.mark .none)
      else d.slot? ref := by
  obtain ⟨m, i⟩ := ref
  rw [slot?_modifyDpb]
  dsimp only
  by_cases hm : m = n
  · subst hm
    rw [if_pos rfl]
    simp only [true_and]
    cases hg : d.layers.get? m with
    | none =>
      rw [slot?_eq_none hg]
      split <;> rfl
    | some l =>
      rw [Option.bind_some, slot?_eq hg]
      simp only [Dpb.slot?, Dpb.unmarkExcept, List.getElem?_mapIdx, currentIn_eq_some_iff]
      by_cases hc : d.current = some ⟨m, i⟩
      · simp [hc]
      · simp [hc]
  · rw [if_neg hm, if_neg (fun h => hm h.1)]

end Decoder

end PictureBuffer
