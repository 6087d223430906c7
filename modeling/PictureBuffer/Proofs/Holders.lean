import PictureBuffer.Decoder.Basic
import PictureBuffer.Proofs.Emission

/-!
# Who holds the frames of a decoder

A slot owns one handle to its frame, so a buffer takes a handle with every picture that enters and
gives one up with every picture that leaves (`Store.Exchange`). A decoder that does no more than
that leaves every handle with a holder (`Decoder.Accounted.of_exchange`).
-/

namespace PictureBuffer

/-! ## Pictures that enter and leave -/

namespace Slot

variable {mask : Flags} {slot : Slot}

/-- A picture gives up its frame with its last flag. -/
theorem frame_strip (mask : Flags) (slot : Slot) :
    (slot.strip mask).frame =
      if (slot.flags.without mask).isEmpty then none else slot.frame := by
  unfold strip isFree
  dsimp only
  by_cases he : (slot.flags.without mask).isEmpty = true
  · rw [if_pos he, he]
    cases hf : slot.frame with
    | none => simp
    | some frame => rfl
  · rw [Bool.not_eq_true] at he
    simp [he]

theorem poc_strip (mask : Flags) (slot : Slot) : (slot.strip mask).poc = slot.poc := by
  unfold strip
  dsimp only
  split <;> rfl

/-- The handle of a slot is either kept or given up. -/
theorem kept_append_freed (mask : Flags) (slot : Slot) :
    (slot.strip mask).frame.toList ++ (slot.freed mask).toList = slot.frame.toList := by
  rw [frame_strip, freed]
  split
  · rfl
  · rw [Option.toList_none, List.append_nil]

end Slot

theorem filterMap_cons_toList (f : Slot → Option FrameId) (slot : Slot) (slots : List Slot) :
    (slot :: slots).filterMap f = (f slot).toList ++ slots.filterMap f := by
  rw [List.filterMap_cons]
  cases f slot <;> rfl

namespace Dpb

/-- The frames kept and the frames given up when a slot of a buffer loses flags. -/
theorem count_frames_modify_strip (mask : Flags) (x : FrameId) (slots : List Slot) : ∀ i,
    ((slots.modify i (·.strip mask)).filterMap (·.frame)).count x
        + ((slots[i]?.bind (·.freed mask)).toList).count x
      = (slots.filterMap (·.frame)).count x := by
  induction slots with
  | nil =>
    intro i
    rw [List.modify_nil]
    rfl
  | cons slot slots ih =>
    intro i
    cases i with
    | zero =>
      have hk := congrArg (List.count x) (Slot.kept_append_freed mask slot)
      rw [List.count_append] at hk
      rw [List.modify_zero_cons, filterMap_cons_toList, filterMap_cons_toList,
        List.count_append, List.count_append, List.getElem?_cons_zero, Option.bind_some]
      omega
    | succ i =>
      have hi := ih i
      rw [List.modify_succ_cons, filterMap_cons_toList, filterMap_cons_toList,
        List.count_append, List.count_append, List.getElem?_cons_succ]
      omega

theorem exchange_strip (dpb : Dpb) (store : Store) (i : Nat) (mask : Flags) :
    Store.Exchange dpb.frames (dpb.strip store i mask).1.frames store
      (dpb.strip store i mask).2 :=
  Store.exchange_releaseAll (fun x => count_frames_modify_strip mask x dpb.slots i) store

/-- The frames kept and the frames given up when many slots of a buffer lose flags. -/
theorem count_frames_stripWhere (p : Slot → Bool) (mask : Flags) (x : FrameId)
    (slots : List Slot) :
    ((slots.map fun slot => if p slot then slot.strip mask else slot).filterMap (·.frame)).count x
        + (slots.filterMap fun slot => if p slot then slot.freed mask else none).count x
      = (slots.filterMap (·.frame)).count x := by
  induction slots with
  | nil => rfl
  | cons slot slots ih =>
    have hk := congrArg (List.count x) (Slot.kept_append_freed mask slot)
    rw [List.count_append] at hk
    rw [List.map_cons, filterMap_cons_toList, filterMap_cons_toList, filterMap_cons_toList,
      List.count_append, List.count_append, List.count_append]
    by_cases hp : p slot = true
    · rw [if_pos hp, if_pos hp]
      omega
    · rw [if_neg hp, if_neg hp, Option.toList_none, List.count_nil]
      omega

theorem exchange_stripWhere (dpb : Dpb) (store : Store) (p : Slot → Bool) (mask : Flags) :
    Store.Exchange dpb.frames (dpb.stripWhere store p mask).1.frames store
      (dpb.stripWhere store p mask).2 :=
  Store.exchange_releaseAll (fun x => count_frames_stripWhere p mask x dpb.slots) store

/-- A free slot that takes a picture takes a handle to its frame. -/
theorem count_frames_set {frame : FrameId} {slot : Slot} (hf : slot.frame = some frame)
    (x : FrameId) : ∀ {slots : List Slot} {index : Nat} {old : Slot}, slots[index]? = some old →
      old.frame = none → ((slots.set index slot).filterMap (·.frame)).count x =
        (slots.filterMap (·.frame)).count x + if frame = x then 1 else 0 := by
  intro slots
  induction slots with
  | nil =>
    intro index old h
    cases h
  | cons first slots ih =>
    intro index old h ho
    cases index with
    | zero =>
      obtain rfl : first = old := Option.some.inj h
      rw [List.set_cons_zero, filterMap_cons_toList, filterMap_cons_toList, hf, ho,
        Option.toList_some, Option.toList_none, List.nil_append, List.singleton_append,
        List.count_cons]
      simp
    | succ index =>
      have hi := ih h ho
      rw [List.set_cons_succ, filterMap_cons_toList, filterMap_cons_toList, List.count_append,
        List.count_append]
      omega

end Dpb

/-- One layer is replaced, and its buffer has taken and given up handles. -/
theorem Layers.exchange_set {layers : Layers} {n : Nat} {old new : Layer} {store store' : Store}
    (hg : layers.get? n = some old)
    (h : Store.Exchange old.dpb.frames new.dpb.frames store store') :
    Store.Exchange layers.frames (layers.set n new).frames store store' := by
  intro x hle
  rcases n with _ | _ | n
  · cases hg
    simp only [frames, set, List.count_append] at hle ⊢
    have hx := h x (by omega)
    omega
  · cases hg
    simp only [frames, set, List.count_append] at hle ⊢
    have hx := h x (by omega)
    omega
  · cases hg

/-! ## Decoders -/

namespace Decoder

variable {d d' : Decoder} {ref : SlotRef} {slot : Slot} {others : List FrameId}

/-- **Every handle has a holder**: the output process, a slot of the decoder, or somebody else,
who holds the frames `others`. -/
def Accounted (d : Decoder) (others : List FrameId) : Prop :=
  d.toShared.Accounted (d.layers.frames ++ others)

/-- The frame of a slot is among those the decoder holds. -/
theorem mem_frames {frame : FrameId} (h : d.slot? ref = some slot)
    (hf : slot.frame = some frame) : frame ∈ d.layers.frames := by
  obtain ⟨n, i⟩ := ref
  have mem : ∀ dpb : Dpb, dpb.slot? i = some slot → frame ∈ dpb.frames := by
    intro dpb hi
    exact List.mem_filterMap.mpr ⟨slot, List.mem_of_getElem? hi, hf⟩
  rw [Layers.frames, List.mem_append]
  match n with
  | 0 => exact Or.inl (mem _ h)
  | 1 => exact Or.inr (mem _ h)
  | n + 2 => cases h

/-- A frame that a slot holds is in the store. -/
theorem Accounted.frame? {frame : FrameId} (h : d.Accounted others)
    (hs : d.slot? ref = some slot) (hf : slot.frame = some frame) :
    ∃ held, d.store.frame? frame = some held := by
  have hp := Shared.Accounted.pos h (List.mem_append_left others (mem_frames hs hf))
  obtain ⟨cell, hc⟩ := Store.cell?_of_handles_pos hp
  exact ⟨cell.frame, by rw [Store.frame?, hc]; rfl⟩

/-- The decoder takes and gives up handles with its pictures, and the output process keeps its
own. -/
theorem Accounted.of_exchange (h : d.Accounted others)
    (he : Store.Exchange d.layers.frames d'.layers.frames d.store d'.store)
    (hs : d'.scheduler = d.scheduler) (hq : d'.queue = d.queue) : d'.Accounted others := by
  intro x
  have hx := h x
  have hframes : d'.toShared.frames = d.toShared.frames := by
    rw [Shared.frames, hs, hq, Shared.frames]
  rw [hframes]
  simp only [List.count_append] at hx ⊢
  have he := he x (by omega)
  omega

end Decoder

end PictureBuffer
