import PictureBuffer.Proofs.Passes
import PictureBuffer.Proofs.Slices
import PictureBuffer.Session

/-!
# Which picture a frame belongs to

A frame is acquired for one picture, and its identifier is never used again. So whatever happens
in a session, whoever holds a frame agrees on which picture it belongs to: its layer, its order
count and its structure, its `Origin`.

`Decoder.Described` says that all slots of a decoder and the stash agree with an assignment of
origins. Every command of a decoder keeps to it (`grows_run`): frames that exist keep their origin,
only new frames get one, and every handle still has a holder. The operations that a command is made
of come in two kinds:

* most only lose pictures or change what they are kept for (`Layers.Within`);
* `Dpb.insert` adds one, in a frame that nobody held before (`Dpb.Added`).

`Decoder.Quiet` and `Decoder.Steady` say what an operation leaves alone besides: the output
process, and also the picture being decoded.
-/

namespace PictureBuffer

/-- The picture that a frame was acquired for. -/
structure Origin where
  layer : Nat
  poc : Int
  picStruct : PicStruct

/-! ## Losing pictures -/

/-- The slot holds the picture that `old` holds, or none. -/
def Slot.Within (new old : Slot) : Prop :=
  ∀ frame, new.frame = some frame →
    old.frame = some frame ∧ new.poc = old.poc ∧ new.picStruct = old.picStruct

namespace Slot

theorem within_refl (slot : Slot) : slot.Within slot := fun _ h => ⟨h, rfl, rfl⟩

theorem within_strip (mask : Flags) (slot : Slot) : (slot.strip mask).Within slot := by
  intro frame h
  unfold strip at h ⊢
  dsimp only at h ⊢
  split at h
  · cases h
  · rename_i he
    rw [if_neg he]
    exact ⟨h, rfl, rfl⟩

/-- The picture in a slot: its frame, its order count and its structure. -/
def content (slot : Slot) : Option FrameId × Int × PicStruct :=
  (slot.frame, slot.poc, slot.picStruct)

theorem content_mark (marking : Marking) (slot : Slot) :
    (slot.mark marking).content = slot.content := by
  unfold mark
  split <;> rfl

theorem frame_mark (marking : Marking) (slot : Slot) : (slot.mark marking).frame = slot.frame :=
  congrArg Prod.fst (content_mark marking slot)

theorem poc_mark (marking : Marking) (slot : Slot) : (slot.mark marking).poc = slot.poc :=
  congrArg (·.2.1) (content_mark marking slot)

theorem isFree_mark (marking : Marking) (slot : Slot) :
    (slot.mark marking).isFree = slot.isFree := by
  rw [isFree, frame_mark, isFree]

end Slot

/-- Every slot holds the picture that it held in `old`, or none. -/
def Dpb.Within (new old : Dpb) : Prop :=
  ∀ i slot, new.slot? i = some slot → ∃ slot', old.slot? i = some slot' ∧ slot.Within slot'

namespace Dpb

theorem within_refl (dpb : Dpb) : dpb.Within dpb :=
  fun _ slot h => ⟨slot, h, slot.within_refl⟩

theorem within_modify (dpb : Dpb) (index : Nat) {f : Slot → Slot}
    (hf : ∀ slot, (f slot).Within slot) : (dpb.modify index f).Within dpb := by
  intro i slot h
  simp only [slot?, modify, List.getElem?_modify, Option.map_eq_map,
    Option.map_eq_some_iff] at h
  obtain ⟨old, hold, rfl⟩ := h
  refine ⟨old, hold, ?_⟩
  split
  · exact hf old
  · exact old.within_refl

theorem within_strip (dpb : Dpb) (store : Store) (index : Nat) (mask : Flags) :
    (dpb.strip store index mask).1.Within dpb :=
  dpb.within_modify index fun slot => slot.within_strip mask

theorem within_stripWhere (dpb : Dpb) (store : Store) (p : Slot → Bool) (mask : Flags) :
    (dpb.stripWhere store p mask).1.Within dpb := by
  intro i slot h
  simp only [slot?, stripWhere, List.getElem?_map, Option.map_eq_some_iff] at h
  obtain ⟨old, hold, rfl⟩ := h
  refine ⟨old, hold, ?_⟩
  split
  · exact old.within_strip mask
  · exact old.within_refl

/-- Every slot holds the same picture. -/
def Same (new old : Dpb) : Prop :=
  ∀ i, (new.slot? i).map Slot.content = (old.slot? i).map Slot.content

theorem same_refl (dpb : Dpb) : dpb.Same dpb := fun _ => rfl

theorem Same.within {a b : Dpb} (h : a.Same b) : a.Within b := by
  intro i slot hs
  have hi := h i
  rw [hs, Option.map_some] at hi
  obtain ⟨old, hold, hc⟩ := Option.map_eq_some_iff.mp hi.symm
  obtain ⟨hf, hps⟩ := Prod.mk.inj hc
  obtain ⟨hp, hst⟩ := Prod.mk.inj hps
  exact ⟨old, hold, fun frame hframe => ⟨hf.trans hframe, hp.symm, hst.symm⟩⟩

theorem Same.frames_eq {a b : Dpb} (h : a.Same b) : a.frames = b.frames := by
  have hmap : a.slots.map Slot.content = b.slots.map Slot.content := by
    apply List.ext_getElem?
    intro i
    rw [List.getElem?_map, List.getElem?_map]
    exact h i
  have held : ∀ dpb : Dpb, dpb.frames = (dpb.slots.map Slot.content).filterMap (·.1) := by
    intro dpb
    rw [List.filterMap_map]
    rfl
  rw [held, hmap, ← held]

theorem same_modify (dpb : Dpb) (index : Nat) {f : Slot → Slot}
    (hf : ∀ slot, dpb.slot? index = some slot → (f slot).content = slot.content) :
    (dpb.modify index f).Same dpb := by
  intro i
  simp only [slot?, modify, List.getElem?_modify, Option.map_eq_map]
  cases hs : dpb.slots[i]? with
  | none => rfl
  | some slot =>
    rw [Option.map_some, Option.map_some, Option.map_some]
    split
    · rename_i hi
      subst hi
      rw [hf slot hs]
    · rfl

theorem same_mark (dpb : Dpb) (index : Nat) (marking : Marking) :
    (dpb.mark index marking).Same dpb :=
  dpb.same_modify index fun slot _ => slot.content_mark marking

theorem same_unmarkExcept (dpb : Dpb) (kept : Option Nat) : (dpb.unmarkExcept kept).Same dpb := by
  intro i
  simp only [slot?, unmarkExcept, List.getElem?_mapIdx]
  cases dpb.slots[i]? with
  | none => rfl
  | some slot =>
    rw [Option.map_some, Option.map_some, Option.map_some]
    split
    · rfl
    · rw [Slot.content_mark]

end Dpb

/-- Every slot of every layer holds the picture that it held in `old`, or none. -/
structure Layers.Within (new old : Layers) : Prop where
  base : new.base.dpb.Within old.base.dpb
  enhancement : new.enhancement.dpb.Within old.enhancement.dpb

theorem Layers.within_refl (layers : Layers) : layers.Within layers :=
  ⟨layers.base.dpb.within_refl, layers.enhancement.dpb.within_refl⟩

theorem Layers.set_self {layers : Layers} {n : Nat} {layer : Layer}
    (h : layers.get? n = some layer) : layers.set n layer = layers := by
  rcases n with _ | _ | n
  · cases h
    rfl
  · cases h
    rfl
  · rfl

theorem Layers.get?_set_self {layers : Layers} {n : Nat} {old : Layer}
    (h : layers.get? n = some old) (new : Layer) : (layers.set n new).get? n = some new := by
  rcases n with _ | _ | n
  · rfl
  · rfl
  · cases h

/-- One layer replaced. -/
theorem Layers.within_set {layers : Layers} {n : Nat} {old new : Layer}
    (hg : layers.get? n = some old) (hw : new.dpb.Within old.dpb) :
    (layers.set n new).Within layers := by
  rcases n with _ | _ | n
  · cases hg
    exact ⟨hw, layers.enhancement.dpb.within_refl⟩
  · cases hg
    exact ⟨layers.base.dpb.within_refl, hw⟩
  · exact layers.within_refl

/-! ## Gaining a picture -/

namespace Store

variable {store : Store}

theorem evolves_attachAll (id : FrameId) (sideData : List SideData) : ∀ store : Store,
    store.Evolves (store.attachAll id sideData).2 := by
  have tame : ∀ data : SideData, Tame (·.addSideData data) := fun _ _ => ⟨rfl, fun _ => rfl⟩
  induction sideData with
  | nil => exact Evolves.refl
  | cons data rest ih =>
    intro store
    have asked : store.Evolves { store with attachments := store.attachments + 1 } :=
      .of_cells_eq rfl
    unfold attachAll attach
    dsimp only
    split
    · rename_i h
      split at h
      · cases h
        exact (asked.trans (evolves_update (tame data) _ id)).trans (ih _)
      · cases h
    · rename_i h
      split at h
      · cases h
      · cases h
        exact asked

end Store

namespace Dpb

variable {dpb dpb' : Dpb} {store store' : Store} {sps : Sps} {new : NewPicture}

/-- A new picture entered a free slot, in a frame that nobody held before. -/
structure Added (dpb : Dpb) (store : Store) (new : NewPicture) (index : Nat) (frame : FrameId)
    (dpb' : Dpb) (store' : Store) : Prop where
  fresh : store.cells.size ≤ frame
  known : frame < store'.cells.size
  free : ∃ slot, dpb.slot? index = some slot ∧ slot.frame = none
  entered : ∃ slot, dpb'.slot? index = some slot ∧ slot.frame = some frame ∧
    slot.poc = new.poc ∧ slot.picStruct = new.picStruct ∧ slot.flags = new.flags
  others : ∀ i, i ≠ index → dpb'.slot? i = dpb.slot? i
  exchange : Store.Exchange dpb.frames dpb'.frames store store'

theorem slot?_set {slot : Slot} {index : Nat} (h : index < dpb.slots.length) (i : Nat) :
    ({ dpb with slots := dpb.slots.set index slot } : Dpb).slot? i =
      if i = index then some slot else dpb.slot? i := by
  simp only [slot?, List.getElem?_set]
  by_cases hi : index = i
  · subst hi
    rw [if_pos rfl, if_pos h, if_pos rfl]
  · rw [if_neg hi, if_neg (Ne.symm hi)]

/-- **What an insertion can do**: fail for want of a slot or of memory, and leave the buffer and the
handles as they were; or add the picture. -/
theorem insert_cases (dpb : Dpb) (store : Store) (sps : Sps) (new : NewPicture) :
    (∃ fault store', dpb.insert store sps new = (.error fault, dpb, store') ∧
      (fault = .outOfSlots dpb.layer ∨ fault = .outOfMemory) ∧ store.Evolves store' ∧
      ∀ x, store'.handles x = store.handles x) ∨
    ∃ index frame dpb' store', dpb.insert store sps new = (.ok index, dpb', store') ∧
      dpb.Added store new index frame dpb' store' ∧ store.Evolves store' := by
  unfold insert
  cases hfree : dpb.slots.findIdx? (·.isFree) with
  | none => exact Or.inl ⟨_, store, rfl, Or.inl rfl, .refl store, fun _ => rfl⟩
  | some index =>
    dsimp only
    have acquired := Store.evolves_acquire store sps.format sps.width sps.height
    have hacquired := Store.handles_acquire store sps.format sps.width sps.height
    rcases ha : store.acquire sps.format sps.width sps.height with ⟨_ | frame, store₁⟩
    · rw [ha] at acquired hacquired
      exact Or.inl ⟨_, store₁, rfl, Or.inr rfl, acquired, hacquired⟩
    · rw [ha] at acquired hacquired
      simp only [Option.some.injEq] at hacquired
      dsimp only
      have attached := Store.evolves_attachAll frame new.sideData store₁
      have hattached := fun x => Store.handles_attachAll frame x new.sideData store₁
      rcases hs : store₁.attachAll frame new.sideData with ⟨_ | _, store₂⟩
      · rw [hs] at attached hattached
        refine Or.inl ⟨_, _, rfl, Or.inr rfl,
          (acquired.trans attached).trans (Store.evolves_release _ _), ?_⟩
        intro x
        rw [Store.handles_release, hattached, hacquired]
        simp only [eq_comm (a := x)]
        omega
      · rw [hs] at attached hattached
        obtain ⟨hfresh, hknown⟩ := Store.size_le_of_acquire ha
        obtain ⟨hlt, hisFree, -⟩ := List.findIdx?_eq_some_iff_getElem.mp hfree
        have hslot : dpb.slot? index = some dpb.slots[index] := List.getElem?_eq_getElem hlt
        have hnone : dpb.slots[index].frame = none := Option.isNone_iff_eq_none.mp hisFree
        refine Or.inr ⟨index, frame, _, _, rfl, ⟨hfresh, ?_, ⟨_, hslot, hnone⟩, ?_, ?_, ?_⟩,
          acquired.trans attached⟩
        · exact Nat.lt_of_lt_of_le hknown attached.size_le
        · exact ⟨new.slot sps frame, by rw [slot?_set hlt, if_pos rfl], rfl, rfl, rfl, rfl⟩
        · intro i hi
          rw [slot?_set hlt, if_neg hi]
        · intro x _
          have hc := @count_frames_set frame (new.slot sps frame) rfl x _ _ _ hslot hnone
          rw [hattached, hacquired, frames, frames, hc]
          omega

/-- A stand-in enters as a frame picture. -/
theorem insertStandIn_cases (dpb : Dpb) (store : Store) (sps : Sps) (new : NewPicture)
    (fill : Bool) :
    (∃ fault store', dpb.insertStandIn store sps new fill = (.error fault, dpb, store') ∧
      store.Evolves store' ∧ ∀ x, store'.handles x = store.handles x) ∨
    ∃ index frame dpb' store', dpb.insertStandIn store sps new fill = (.ok index, dpb', store') ∧
      dpb.Added store { new with flags := .standIn, picStruct := .frame } index frame dpb'
        store' ∧ store.Evolves store' := by
  have tame : Store.Tame fun f =>
      (if fill then f.fillNeutral sps.bitDepth else f).produce := by
    intro frame
    cases fill with
    | false => exact ⟨rfl, fun h => Store.settle_of_ne_pending h⟩
    | true => exact ⟨rfl, fun h => Store.settle_of_ne_pending h⟩
  unfold insertStandIn
  obtain ⟨fault, store', he, -, hev, hh⟩ | ⟨index, frame, dpb', store', he, hadd, hev⟩ :=
    dpb.insert_cases store sps { new with flags := .standIn, picStruct := .frame }
  · rw [he]
    exact Or.inl ⟨fault, store', rfl, hev, hh⟩
  · rw [he]
    obtain ⟨slot, hslot, hf, hp⟩ := hadd.entered
    dsimp only
    rw [hslot, Option.bind_some, hf]
    refine Or.inr ⟨index, frame, dpb', _, rfl, ?_, hev.trans (Store.evolves_update tame _ _)⟩
    refine ⟨hadd.fresh, ?_, hadd.free, ⟨slot, hslot, hf, hp⟩, hadd.others, ?_⟩
    · rw [Store.size_update]
      exact hadd.known
    · intro x hle
      rw [Store.handles_update]
      exact hadd.exchange x hle

end Dpb

/-! ## Agreeing on origins -/

/-- The origins of the frames that are known stay the same. -/
def Agree (bound : Nat) (origin origin' : FrameId → Origin) : Prop :=
  ∀ frame, frame < bound → origin' frame = origin frame

section

variable {origin origin' : FrameId → Origin} {bound bound' n : Nat}

/-- The frames of a buffer of layer `n` are known, and belong to the pictures in their slots. -/
def Dpb.Described (dpb : Dpb) (origin : FrameId → Origin) (bound n : Nat) : Prop :=
  ∀ i slot frame, dpb.slot? i = some slot → slot.frame = some frame →
    frame < bound ∧ origin frame = ⟨n, slot.poc, slot.picStruct⟩

structure Layers.Described (layers : Layers) (origin : FrameId → Origin) (bound : Nat) :
    Prop where
  base : layers.base.dpb.Described origin bound 0
  enhancement : layers.enhancement.dpb.Described origin bound 1

/-- The frame of a field is known, and belongs to it. -/
structure Field.Described (field : Field) (origin : FrameId → Origin) (bound : Nat) : Prop where
  known : field.frame < bound
  poc : (origin field.frame).poc = field.poc
  picStruct : (origin field.frame).picStruct = field.picStruct

theorem Dpb.Described.mono {dpb : Dpb} (h : dpb.Described origin bound n) (hb : bound ≤ bound')
    (ha : Agree bound origin origin') : dpb.Described origin' bound' n := by
  intro i slot frame hs hf
  obtain ⟨hlt, ho⟩ := h i slot frame hs hf
  exact ⟨Nat.lt_of_lt_of_le hlt hb, (ha frame hlt).trans ho⟩

theorem Dpb.Described.within {dpb dpb' : Dpb} (h : dpb.Described origin bound n)
    (hw : dpb'.Within dpb) : dpb'.Described origin bound n := by
  intro i slot frame hs hf
  obtain ⟨old, hold, hslot⟩ := hw i slot hs
  obtain ⟨hf', hp, hst⟩ := hslot frame hf
  rw [hp, hst]
  exact h i old frame hold hf'

theorem Layers.Described.mono {layers : Layers} (h : layers.Described origin bound)
    (hb : bound ≤ bound') (ha : Agree bound origin origin') :
    layers.Described origin' bound' :=
  ⟨h.base.mono hb ha, h.enhancement.mono hb ha⟩

theorem Layers.Described.within {layers layers' : Layers} (h : layers.Described origin bound)
    (hw : layers'.Within layers) : layers'.Described origin bound :=
  ⟨h.base.within hw.base, h.enhancement.within hw.enhancement⟩

theorem Field.Described.mono {field : Field} (h : field.Described origin bound)
    (hb : bound ≤ bound') (ha : Agree bound origin origin') : field.Described origin' bound' := by
  have he := ha field.frame h.known
  exact ⟨Nat.lt_of_lt_of_le h.known hb, by rw [he, h.poc], by rw [he, h.picStruct]⟩

/-- A buffer with a new picture. -/
theorem Dpb.Added.described {dpb dpb' : Dpb} {store store' : Store} {new : NewPicture}
    {index : Nat} {frame : FrameId} (h : dpb.Added store new index frame dpb' store')
    (hd : dpb.Described origin store.cells.size n)
    (ha : Agree store.cells.size origin origin') (hle : store.cells.size ≤ store'.cells.size)
    (hf : origin' frame = ⟨n, new.poc, new.picStruct⟩) :
    dpb'.Described origin' store'.cells.size n := by
  intro i slot f hs hsf
  by_cases hi : i = index
  · subst hi
    obtain ⟨entered, he, hef, hp, hst, -⟩ := h.entered
    obtain rfl : entered = slot := Option.some.inj (he.symm.trans hs)
    obtain rfl : frame = f := Option.some.inj (hef.symm.trans hsf)
    exact ⟨h.known, by rw [hf, hp, hst]⟩
  · rw [h.others i hi] at hs
    exact hd.mono hle ha i slot f hs hsf

end

namespace Decoder

variable {d d' d'' : Decoder} {origin : FrameId → Origin} {n : Nat}

/-- All slots of a decoder and the stash agree on the origins of their frames. -/
structure Described (d : Decoder) (origin : FrameId → Origin) : Prop where
  layers : d.layers.Described origin d.store.cells.size
  stash : ∀ field, d.scheduler.stash = some field →
    field.Described origin d.store.cells.size

/-- What a slot holds belongs to it. -/
theorem Described.slot {ref : SlotRef} {slot : Slot} {frame : FrameId} (h : d.Described origin)
    (hs : d.slot? ref = some slot) (hf : slot.frame = some frame) :
    frame < d.store.cells.size ∧ origin frame = ⟨ref.layer, slot.poc, slot.picStruct⟩ := by
  obtain ⟨layer, index⟩ := ref
  rcases layer with _ | _ | layer
  · exact h.layers.base index slot frame hs hf
  · exact h.layers.enhancement index slot frame hs hf
  · cases hs

/-- **What an operation may do**: frames keep their layout, no production is opened again, frames
that exist keep their origin, and every handle still has a holder. -/
structure Grows (d d' : Decoder) : Prop where
  evolves : d.store.Evolves d'.store
  described : ∀ origin, d.Described origin →
    ∃ origin', Agree d.store.cells.size origin origin' ∧ d'.Described origin'
  accounted : ∀ others, d.Accounted others → d'.Accounted others

theorem Grows.refl (d : Decoder) : d.Grows d :=
  ⟨.refl _, fun origin h => ⟨origin, fun _ _ => rfl, h⟩, fun _ h => h⟩

theorem Grows.trans (h : d.Grows d') (h' : d'.Grows d'') : d.Grows d'' := by
  refine ⟨h.evolves.trans h'.evolves, ?_, fun others ha => h'.accounted _ (h.accounted _ ha)⟩
  intro origin hd
  obtain ⟨origin', ha, hd'⟩ := h.described origin hd
  obtain ⟨origin'', ha', hd''⟩ := h'.described origin' hd'
  refine ⟨origin'', ?_, hd''⟩
  intro frame hlt
  exact (ha' frame (Nat.lt_of_lt_of_le hlt h.evolves.size_le)).trans (ha frame hlt)

/-- An operation that only loses pictures. -/
theorem grows_of_within (he : d.store.Evolves d'.store) (hl : d'.layers.Within d.layers)
    (hs : ∀ field, d'.scheduler.stash = some field → d.scheduler.stash = some field)
    (ha : ∀ others, d.Accounted others → d'.Accounted others) : d.Grows d' := by
  refine ⟨he, fun origin h => ⟨origin, fun _ _ => rfl, ?_⟩, ha⟩
  refine ⟨(h.layers.within hl).mono he.size_le fun _ _ => rfl, ?_⟩
  intro field hf
  exact (h.stash field (hs field hf)).mono he.size_le fun _ _ => rfl

/-- An operation that leaves the output process alone. -/
structure Quiet (d d' : Decoder) : Prop extends Grows d d' where
  scheduler : d'.scheduler = d.scheduler
  queue : d'.queue = d.queue

/-- An operation during which the decoder goes on with the picture that it is decoding. -/
structure Steady (d d' : Decoder) : Prop extends Quiet d d' where
  decoding : d'.decoding = d.decoding
  poc : d'.poc = d.poc

theorem Quiet.refl (d : Decoder) : d.Quiet d := ⟨.refl d, rfl, rfl⟩

theorem Quiet.trans (h : d.Quiet d') (h' : d'.Quiet d'') : d.Quiet d'' :=
  ⟨h.toGrows.trans h'.toGrows, h'.scheduler.trans h.scheduler, h'.queue.trans h.queue⟩

theorem Steady.refl (d : Decoder) : d.Steady d := ⟨.refl d, rfl, rfl⟩

theorem Steady.trans (h : d.Steady d') (h' : d'.Steady d'') : d.Steady d'' :=
  ⟨h.toQuiet.trans h'.toQuiet, h'.decoding.trans h.decoding, h'.poc.trans h.poc⟩

/-- Pictures leave, or are kept for something else. -/
theorem Quiet.of_within (he : d.store.Evolves d'.store) (hl : d'.layers.Within d.layers)
    (hx : Store.Exchange d.layers.frames d'.layers.frames d.store d'.store)
    (hs : d'.scheduler = d.scheduler) (hq : d'.queue = d.queue) : d.Quiet d' := by
  refine ⟨grows_of_within he hl ?_ fun others h => h.of_exchange hx hs hq, hs, hq⟩
  intro field hf
  rwa [hs] at hf

/-- A picture enters. -/
theorem Quiet.of_added {l l' : Layer} {new : NewPicture} {index : Nat} {frame : FrameId}
    (hg : d.layers.get? n = some l)
    (hadd : l.dpb.Added d.store new index frame l'.dpb d'.store)
    (he : d.store.Evolves d'.store) (hl : d'.layers = d.layers.set n l')
    (hs : d'.scheduler = d.scheduler) (hq : d'.queue = d.queue) : d.Quiet d' := by
  have hx := Layers.exchange_set hg hadd.exchange
  rw [← hl] at hx
  refine ⟨⟨he, fun origin h => ?_, fun others h => h.of_exchange hx hs hq⟩, hs, hq⟩
  let origin' (f : FrameId) : Origin :=
    if f = frame then ⟨n, new.poc, new.picStruct⟩ else origin f
  have ha : Agree d.store.cells.size origin origin' := by
    intro f hlt
    have hne : f ≠ frame := Nat.ne_of_lt (Nat.lt_of_lt_of_le hlt hadd.fresh)
    exact if_neg hne
  have hnew : ∀ {m}, l.dpb.Described origin d.store.cells.size m → m = n →
      l'.dpb.Described origin' d'.store.cells.size m := by
    rintro m hm rfl
    exact hadd.described hm ha he.size_le (if_pos rfl)
  have hmono := h.layers.mono he.size_le ha
  refine ⟨origin', ha, ?_, ?_⟩
  · rw [hl]
    rcases n with _ | _ | n
    · cases hg
      exact ⟨hnew h.layers.base rfl, hmono.enhancement⟩
    · cases hg
      exact ⟨hmono.base, hnew h.layers.enhancement rfl⟩
    · cases hg
  · intro field hf
    rw [hs] at hf
    exact (h.stash field hf).mono he.size_le ha

/-- Neither the buffers nor what is shared have changed. -/
theorem Quiet.of_eq (hl : d'.layers = d.layers) (hs : d'.toShared = d.toShared) : d.Quiet d' := by
  refine .of_within ?_ ?_ ?_ (congrArg Shared.scheduler hs) (congrArg Shared.queue hs)
  · rw [hs]
    exact .refl _
  · rw [hl]
    exact d.layers.within_refl
  · rw [hl, hs]
    exact Store.exchange_of_eq _ fun _ => rfl

/-! ## The operations of a decoder -/

/-- Pictures leave a buffer. -/
theorem steady_onDpb {f : Dpb → Store → Dpb × Store}
    (hf : ∀ dpb store, (f dpb store).1.Within dpb)
    (he : ∀ dpb store, Store.Evolves store (f dpb store).2)
    (hx : ∀ dpb store,
      Store.Exchange dpb.frames (f dpb store).1.frames store (f dpb store).2)
    (d : Decoder) (n : Nat) : d.Steady (d.onDpb n f) := by
  unfold onDpb layer?
  cases hg : d.layers.get? n with
  | none => exact .refl d
  | some layer =>
    have hw : (d.layers.set n { layer with dpb := (f layer.dpb d.store).1 }).Within d.layers :=
      Layers.within_set hg (hf layer.dpb d.store)
    have hx := @Layers.exchange_set _ _ _ { layer with dpb := (f layer.dpb d.store).1 } _ _ hg
      (hx layer.dpb d.store)
    exact ⟨.of_within (he _ _) hw hx rfl rfl, rfl, rfl⟩

/-- One layer changes, its buffer at most in what pictures are kept for. -/
theorem steady_modifyLayer {f : Layer → Layer}
    (hf : ∀ layer, d.layers.get? n = some layer → (f layer).dpb.Same layer.dpb) :
    d.Steady (d.modifyLayer n f) := by
  unfold modifyLayer layer?
  cases hg : d.layers.get? n with
  | none => exact .refl d
  | some layer =>
    have hs := hf layer hg
    have hw := Layers.within_set hg hs.within
    have hx : Store.Exchange layer.dpb.frames (f layer).dpb.frames d.store d.store := by
      rw [hs.frames_eq]
      exact Store.exchange_of_eq _ fun _ => rfl
    exact ⟨.of_within (.refl _) hw (Layers.exchange_set hg hx) rfl rfl, rfl, rfl⟩

theorem steady_modifyDpb {f : Dpb → Dpb} (hf : ∀ dpb, (f dpb).Same dpb) (d : Decoder)
    (n : Nat) : d.Steady (d.modifyDpb n f) :=
  steady_modifyLayer fun layer _ => hf layer.dpb

theorem steady_modifySlot {ref : SlotRef} {f : Slot → Slot}
    (hf : ∀ slot, d.slot? ref = some slot → (f slot).content = slot.content) :
    d.Steady (d.modifySlot ref f) := by
  refine steady_modifyLayer ?_
  intro layer hg
  refine layer.dpb.same_modify ref.index ?_
  intro slot hs
  refine hf slot ?_
  rw [slot?, layer?, hg]
  exact hs

theorem steady_updateFrame {f : Frame → Frame} (hf : Store.Tame f) (d : Decoder)
    (ref : SlotRef) : d.Steady (d.updateFrame ref f) := by
  unfold updateFrame
  split
  · exact .refl d
  · rename_i frame _
    have he := Store.evolves_update hf d.store frame
    have hx := Store.exchange_of_eq d.layers.frames
      fun x => Store.handles_update d.store frame x f
    exact ⟨.of_within he d.layers.within_refl hx rfl rfl, rfl, rfl⟩

theorem steady_stripWhere (d : Decoder) (n : Nat) (p : Slot → Bool) (mask : Flags) :
    d.Steady (d.onDpb n fun dpb store => dpb.stripWhere store p mask) :=
  steady_onDpb (fun dpb store => dpb.within_stripWhere store p mask)
    (fun _ _ => Store.evolves_releaseAll _ _)
    (fun dpb store => dpb.exchange_stripWhere store p mask) d n

theorem steady_stripOutput (d : Decoder) (ref : SlotRef) : d.Steady (d.stripOutput ref) :=
  steady_onDpb (fun dpb store => dpb.within_strip store ref.index .waiting)
    (fun _ _ => Store.evolves_releaseAll _ _)
    (fun dpb store => dpb.exchange_strip store ref.index .waiting) d ref.layer

/-! ### The current picture -/

theorem tame_produce : Store.Tame (·.produce) := fun _ => ⟨rfl, Store.settle_of_ne_pending⟩

theorem tame_cancel : Store.Tame (·.cancel) := fun _ => ⟨rfl, Store.settle_of_ne_pending⟩

theorem quiet_abandonPicture (d : Decoder) : d.Quiet d.abandonPicture := by
  unfold abandonPicture
  dsimp only
  split
  · exact (steady_updateFrame tame_cancel d _).toQuiet.trans (.of_eq rfl rfl)
  · exact .of_eq rfl rfl

theorem quiet_finishPicture (d : Decoder) : d.Quiet d.finishPicture := by
  unfold finishPicture
  dsimp only
  split
  · exact (steady_updateFrame tame_produce d _).toQuiet.trans (.of_eq rfl rfl)
  · exact .of_eq rfl rfl

/-- **What starting a picture can do**: be refused at once; fail to find room for the picture,
after the decoder turned to it; or add it. -/
theorem startPicture_cases (d : Decoder) (layer : Nat) (info : PictureInfo) :
    (∃ fault, d.startPicture layer info = (.error fault, d) ∧
      (fault = .noActiveSps layer ∨ fault = .duplicatePoc layer info.poc)) ∨
    (∃ fault store, d.startPicture layer info = (.error fault, { d.turnTo info with store }) ∧
      ((∃ n, fault = .outOfSlots n) ∨ fault = .outOfMemory) ∧ d.store.Evolves store ∧
      ∀ x, store.handles x = d.store.handles x) ∨
    ∃ l sps index frame dpb store, d.layers.get? layer = some l ∧
      d.startPicture layer info = (.ok ⟨layer, index⟩,
        { d.turnTo info with
          layers := d.layers.set layer { l with dpb, current := some index }
          store
          current := some ⟨layer, index⟩
          collocated := none
          decoding := true
          ownsCurrent := true }) ∧
      l.dpb.Added d.store ((d.turnTo info).newPicture layer sps info) index frame dpb store ∧
      d.store.Evolves store := by
  unfold startPicture activeLayer layer?
  cases hg : d.layers.get? layer with
  | none => exact Or.inl ⟨_, rfl, Or.inl rfl⟩
  | some l =>
    dsimp only
    cases hsps : l.sps with
    | none => exact Or.inl ⟨_, rfl, Or.inl rfl⟩
    | some sps =>
      dsimp only
      by_cases hh : l.dpb.holds info.poc = true
      · rw [if_pos hh]
        exact Or.inl ⟨_, rfl, Or.inr rfl⟩
      · rw [if_neg hh]
        obtain ⟨fault, store, he, hf, hev, hh⟩ | ⟨index, frame, dpb, store, he, hadd, hev⟩ :=
          l.dpb.insert_cases (d.turnTo info).store sps ((d.turnTo info).newPicture layer sps info)
        · rw [he]
          refine Or.inr (Or.inl ⟨fault, store, ?_, hf.imp (fun h => ⟨_, h⟩) id, hev, hh⟩)
          have hset : (d.turnTo info).layers.set layer l = d.layers := Layers.set_self hg
          dsimp only
          rw [hset]
          rfl
        · rw [he]
          exact Or.inr (Or.inr ⟨l, sps, index, frame, dpb, store, rfl, rfl, hadd, hev⟩)

theorem quiet_startPicture (d : Decoder) (layer : Nat) (info : PictureInfo) :
    d.Quiet (d.startPicture layer info).2 := by
  obtain ⟨fault, he, -⟩ | ⟨fault, store, he, -, hev, hh⟩ |
    ⟨l, sps, index, frame, dpb, store, hg, he, hadd, hev⟩ := d.startPicture_cases layer info
  · rw [he]
    exact .refl d
  · rw [he]
    exact .of_within hev d.layers.within_refl (Store.exchange_of_eq _ hh) rfl rfl
  · rw [he]
    exact .of_added hg hadd hev rfl rfl rfl

theorem quiet_clear (d : Decoder) : d.Quiet d.clear := by
  have hl : ∀ (d : Decoder) (n : Nat),
      d.Steady (d.modifyLayer n fun layer => { layer with current := none }) :=
    fun d n => steady_modifyLayer fun layer _ => layer.dpb.same_refl
  have hclear : ∀ (d : Decoder) (n : Nat), d.Steady (d.onDpb n Dpb.clear) :=
    fun d n => steady_stripWhere d n (fun _ => true) .all
  have h := d.quiet_abandonPicture.trans ((hclear _ 0).trans (hclear _ 1)).toQuiet
  exact (h.trans ((hl _ 0).trans (hl _ 1)).toQuiet).trans (.of_eq rfl rfl)

/-! ### Reference picture sets -/

theorem steady_locate {layer : Nat} {l : Layer} (hg : d.layers.get? layer = some l) (sps : Sps)
    (found : Option Nat) (poc : Int) : d.Steady (d.locate layer l sps found poc).2 := by
  cases found with
  | some index => exact .refl d
  | none =>
    unfold locate
    dsimp only
    obtain ⟨fault, store, he, hev, hh⟩ | ⟨index, frame, dpb, store, he, hadd, hev⟩ :=
      l.dpb.insertStandIn_cases d.store sps (d.describe layer sps poc .standIn)
        (!d.config.accelerated)
    · rw [he]
      have hset : d.layers.set layer l = d.layers := Layers.set_self hg
      dsimp only
      rw [hset]
      exact ⟨.of_within hev d.layers.within_refl (Store.exchange_of_eq _ hh) rfl rfl, rfl, rfl⟩
    · rw [he]
      exact ⟨.of_added hg hadd hev rfl rfl rfl, rfl, rfl⟩

theorem steady_addCandidate (d : Decoder) (layer : Nat) (c : Candidate) :
    d.Steady (d.addCandidate layer c).2 := by
  unfold addCandidate activeLayer layer?
  cases hg : d.layers.get? layer with
  | none => exact .refl d
  | some l =>
    dsimp only
    cases hsps : l.sps with
    | none => exact .refl d
    | some sps =>
      dsimp only
      generalize l.dpb.find? _ c.poc = found
      split
      · exact .refl d
      · have hl := steady_locate hg sps found c.poc
        rcases he : d.locate layer l sps found c.poc with ⟨_ | index, d'⟩
        · rw [he] at hl
          exact hl
        · rw [he] at hl
          have hm := steady_modifyDpb (fun dpb => dpb.same_mark index c.marking) d' layer
          exact (hl.trans hm).trans ⟨.of_eq rfl rfl, rfl, rfl⟩

theorem steady_addCandidates (layer : Nat) (candidates : List Candidate) : ∀ d : Decoder,
    d.Steady (d.addCandidates layer candidates).2 := by
  induction candidates with
  | nil => exact Steady.refl
  | cons c rest ih =>
    intro d
    have hc := d.steady_addCandidate layer c
    unfold addCandidates
    rcases he : d.addCandidate layer c with ⟨_ | _, d'⟩
    · rw [he] at hc
      exact hc
    · rw [he] at hc
      exact hc.trans (ih d')

theorem steady_addInterLayer (d : Decoder) (layer : Nat) :
    d.Steady (d.addInterLayer layer).2 := by
  unfold addInterLayer
  split
  · exact .refl d
  · split
    · exact .refl d
    · exact d.steady_addCandidate 0 _

theorem steady_addHeader (d : Decoder) (layer : Nat) (hdr : SliceHeader) :
    d.Steady (d.addHeader layer hdr).2 := by
  have hc := steady_addCandidates layer (hdr.candidates d.poc) d
  unfold addHeader
  rcases he : d.addCandidates layer (hdr.candidates d.poc) with ⟨_ | _, d'⟩
  · rw [he] at hc
    exact hc
  · rw [he] at hc
    dsimp only
    split
    · exact hc.trans (d'.steady_addInterLayer layer)
    · exact hc

theorem steady_clearSets (d : Decoder) (layer : Nat) : d.Steady (d.clearSets layer) := by
  have h := steady_stripWhere d layer (·.flags.placeholder) .all
  have hm := steady_modifyDpb (fun dpb => dpb.same_unmarkExcept
    ((d.onDpb layer Dpb.removeStandIns).currentIn layer)) (d.onDpb layer Dpb.removeStandIns) layer
  exact (h.trans hm).trans ⟨.of_eq rfl rfl, rfl, rfl⟩

theorem steady_deriveSets (d : Decoder) (layer : Nat) (hdr : SliceHeader) :
    d.Steady (d.deriveSets layer hdr).2 := by
  unfold deriveSets
  cases d.layer? layer with
  | none => exact .refl d
  | some l =>
    have h := (d.steady_clearSets layer).trans ((d.clearSets layer).steady_addHeader layer hdr)
    exact h.trans (steady_stripWhere _ layer (fun _ => true) .empty)

/-! ### Slices -/

/-- A slot whose lists are selected holds the same picture. -/
theorem Selects.steady {hdr : SliceHeader} {slice : Nat} {ref : SlotRef} {pps : Pps}
    {slot selected : Slot} (h : d.Selects hdr slice ref pps slot selected) :
    d.Steady (d.modifySlot ref fun _ => selected) := by
  refine steady_modifySlot fun old hold => ?_
  obtain rfl := Option.some.inj (h.slot_eq.symm.trans hold)
  obtain ⟨-, rfl⟩ := Slot.selectLists_ok h.select_eq
  rfl

theorem steady_startSlice (d : Decoder) (hdr : SliceHeader) (slice : Nat) :
    d.Steady (d.startSlice hdr slice).2 :=
  startSlice_preserves (.refl d) Selects.steady

theorem steady_buildLists (d : Decoder) (hdr : SliceHeader) (slice : Nat) :
    d.Steady (d.buildLists hdr slice).2 := by
  refine buildLists_preserves (.refl d) Selects.steady (fun _ h => ?_) fun _ h => ?_
  · exact h.trans ⟨.of_eq rfl rfl, rfl, rfl⟩
  · exact h.trans (steady_modifySlot fun _ _ => rfl)

/-! ### Output -/

theorem grows_recordOrphans (d : Decoder) (n : Nat) :
    d.Grows { d with scheduler := d.scheduler.recordOrphans n } :=
  grows_of_within (.refl _) d.layers.within_refl (fun _ h => h)
    fun _ h => Shared.Accounted.of_eq h rfl rfl rfl rfl

/-- What is emitted comes from a slot. -/
theorem grows_emitted {ref : SlotRef} {slot : Slot} {frame : FrameId}
    (hs : d.slot? ref = some slot) (hf : slot.frame = some frame) :
    d.Grows { d with toShared := (d.toShared.emit (slot.victim ref.layer frame) d.dts).2 } := by
  have hev := Shared.evolves_emit d.toShared (slot.victim ref.layer frame) d.dts
  refine ⟨hev, fun origin h => ⟨origin, fun _ _ => rfl, ?_⟩, fun others h => ?_⟩
  · refine ⟨h.layers.mono hev.size_le fun _ _ => rfl, ?_⟩
    intro field hfield
    obtain ⟨rfl, -⟩ := Shared.stash_emit hfield
    obtain ⟨hlt, ho⟩ := h.slot hs hf
    exact ⟨Nat.lt_of_lt_of_le hlt hev.size_le, congrArg Origin.poc ho,
      congrArg Origin.picStruct ho⟩
  · have hm : (slot.victim ref.layer frame).frame ∈ d.layers.frames ++ others :=
      List.mem_append_left others (mem_frames hs hf)
    exact Shared.accounted_emit h hm d.dts

theorem grows_bump (pass : OutputPass) {ref : SlotRef} {slot : Slot}
    (hs : d.slot? ref = some slot) : d.Grows (d.bump pass ref slot).2 :=
  bump_preserves (P := d.Grows) (.refl d) d.grows_recordOrphans (fun _ hf => grows_emitted hs hf)
    (fun d' h => h.trans (d'.steady_stripOutput ref).toGrows) pass

theorem grows_output (d : Decoder) (pass : OutputPass) :
    d.Grows (d.output pass).2 ∧ ∀ m ∈ d.moments pass, d.Grows m.decoder := by
  refine @output_preserves d pass (fun d' => d.Grows d') ?_ (.refl d)
  intro d' ref slot h hs
  exact h.trans (grows_bump pass hs)

theorem grows_dropStash (d : Decoder) : d.Grows { d with toShared := d.toShared.dropStash } := by
  refine grows_of_within (Shared.evolves_dropStash d.toShared) d.layers.within_refl ?_
    fun others h => Shared.accounted_dropStash h
  intro field h
  exact absurd ((Shared.stash_dropStash d.toShared).symm.trans h) (by simp)

theorem quiet_dropCurrent (d : Decoder) : d.Quiet d.dropCurrent := by
  unfold dropCurrent
  dsimp only
  split
  · exact (d.steady_stripOutput _).toQuiet.trans (quiet_abandonPicture _)
  · exact d.quiet_abandonPicture

theorem grows_flush (d : Decoder) : d.Grows d.flush.2 := by
  have ho := d.quiet_dropCurrent.toGrows.trans (d.dropCurrent.grows_output d.flushPass).1
  have hend := fun d' : Decoder => d'.quiet_clear.toGrows.trans d'.clear.grows_dropStash
  unfold flush
  rcases he : d.dropCurrent.output d.flushPass with ⟨fault | _ | _ | frame, d'⟩
  · rw [he] at ho
    exact ho.trans (hend d')
  · rw [he] at ho
    exact ho.trans (hend d')
  · rw [he] at ho
    exact ho.trans (hend d')
  · rw [he] at ho
    exact ho

/-- The commands that do no more than their decoder's own work on the current picture. -/
theorem steady_run (d : Decoder) {command : Command}
    (h : match command with
      | .startPicture .. | .finishPicture | .output _ | .flush | .clear | .dropStash => False
      | _ => True) : d.Steady (d.run command).2 := by
  cases command with
  | setVps | setSei | setDts | setDuration => exact ⟨.of_eq rfl rfl, rfl, rfl⟩
  | setSps layer sps =>
    dsimp only [run, setSps]
    split
    · exact .refl d
    · exact steady_modifyLayer fun layer _ => layer.dpb.same_refl
  | unmarkAll layer =>
    dsimp only [run, unmarkAll]
    split
    · exact .refl d
    · exact d.steady_stripWhere layer (fun _ => true) .references
  | deriveSets layer hdr => exact d.steady_deriveSets layer hdr
  | startSlice hdr slice => exact d.steady_startSlice hdr slice
  | buildLists hdr slice => exact d.steady_buildLists hdr slice
  | startPicture | finishPicture | output | flush | clear | dropStash => exact h.elim

/-- **No command makes the holders of a frame disagree** on its origin. -/
theorem grows_run (d : Decoder) (command : Command) : d.Grows (d.run command).2 := by
  cases command with
  | startPicture layer info => exact (d.quiet_startPicture layer info).toGrows
  | finishPicture => exact d.quiet_finishPicture.toGrows
  | output pass => exact (d.grows_output pass).1
  | flush => exact d.grows_flush
  | clear => exact d.quiet_clear.toGrows
  | dropStash => exact d.grows_dropStash
  | _ => exact (d.steady_run trivial).toGrows

end Decoder

end PictureBuffer
