import PictureBuffer.Proofs.ReferenceLists
import PictureBuffer.Proofs.Sending

/-!
# Frames that are left alone

Frames are shared, and yet few may write to one: the decoder that produces it, the output process if
it is the scratch frame, and a worker. This file says so of the commands, for the frames that are
known when a command begins.

* `Decoder.Confines`: a known frame does not get to a slot that has not held it, nor does it become
  the scratch frame. No command does otherwise (`confines_run`).
* `Store.Spares`: a frame is as it was, as long as it is held. Commands spare every known frame but
  the scratch frame and the one that the decoder is producing (`spares_run`).
-/

namespace PictureBuffer

/-! ## The store -/

namespace Store

variable {a b c store store' : Store} {id x : FrameId}

/-- **The frame is as it was**, or gone. -/
def Spares (x : FrameId) (a b : Store) : Prop := ∀ frame, b.frame? x = some frame →
  a.frame? x = some frame

theorem Spares.refl (x : FrameId) (a : Store) : Spares x a a := fun _ h => h

theorem Spares.trans (h : Spares x a b) (h' : Spares x b c) : Spares x a c :=
  fun frame hf => h frame (h' frame hf)

/-- A frame that is spared and still held is the same. -/
theorem Spares.frame?_eq (h : Spares x a b) (hp : 0 < b.handles x) : b.frame? x = a.frame? x := by
  obtain ⟨cell, hc⟩ := cell?_of_handles_pos hp
  have hb : b.frame? x = some cell.frame := by rw [frame?, hc]; rfl
  rw [hb, h _ hb]

theorem spares_retain (store : Store) (id x : FrameId) : Spares x store (store.retain id) := by
  intro frame hf
  rwa [frame?_retain] at hf

theorem spares_retainAll (ids : List FrameId) (x : FrameId) : ∀ store : Store,
    Spares x store (store.retainAll ids) := by
  induction ids with
  | nil => exact Spares.refl x
  | cons id ids ih => exact fun store => (spares_retain store id x).trans (ih (store.retain id))

theorem spares_release (store : Store) (id x : FrameId) : Spares x store (store.release id) := by
  intro frame hf
  unfold frame? at hf ⊢
  rw [cell?_release] at hf
  split at hf
  · cases hc : store.cell? x with
    | none => rw [hc] at hf; cases hf
    | some cell =>
      rw [hc, Option.bind_some] at hf
      split at hf
      · cases hf
      · exact hf
  · exact hf

theorem spares_releaseAll (ids : List FrameId) (x : FrameId) : ∀ store : Store,
    Spares x store (store.releaseAll ids) := by
  induction ids with
  | nil => exact Spares.refl x
  | cons id ids ih => exact fun store => (spares_release store id x).trans (ih (store.release id))

/-- Writing to one frame spares the others. -/
theorem spares_update (hx : x ≠ id) (store : Store) (f : Frame → Frame) :
    Spares x store (store.update id f) := by
  intro frame hf
  rwa [frame?_update, if_neg hx] at hf

/-- A request to the provider spares the frames that are known. -/
theorem spares_acquire (hx : x < store.cells.size) (format : Format) (width height : Nat) :
    Spares x store (store.acquire format width height).2 := by
  have inserted : ∀ (frame : Frame) (pooled : Bool),
      Spares x store (({ store with acquisitions := store.acquisitions + 1 } : Store).insert frame
        pooled).2 := by
    intro frame pooled held hf
    unfold frame? at hf ⊢
    rwa [cell?_insert, if_neg (Nat.ne_of_lt hx)] at hf
  unfold acquire
  dsimp only
  split
  · exact fun _ hf => hf
  · exact inserted _ _
  · split
    · exact inserted _ _
    · exact fun _ hf => hf

theorem spares_attachAll (hx : x ≠ id) (sideData : List SideData) : ∀ store : Store,
    Spares x store (store.attachAll id sideData).2 := by
  induction sideData with
  | nil => exact Spares.refl x
  | cons data rest ih =>
    intro store
    unfold attachAll attach
    dsimp only
    split
    · rename_i h
      split at h
      · cases h
        exact (spares_update hx { store with attachments := store.attachments + 1 } _).trans (ih _)
      · cases h
    · rename_i h
      split at h
      · cases h
      · cases h
        exact fun _ hf => hf

end Store

/-! ## The output process -/

namespace Shared

variable {sh : Shared} {x : FrameId}

theorem scratch_dropStash (sh : Shared) :
    sh.dropStash.scheduler.scratch = sh.scheduler.scratch := by
  unfold dropStash
  split <;> rfl

theorem spares_dropStash (sh : Shared) (x : FrameId) :
    Store.Spares x sh.store sh.dropStash.store := by
  unfold dropStash
  split
  · exact .refl x _
  · exact Store.spares_release _ _ x

theorem spares_weavingFrame (hx : x < sh.store.cells.size) (layout : Layout) :
    Store.Spares x sh.store (sh.weavingFrame layout).2.store := by
  have acquired := Store.spares_acquire hx layout.format layout.width layout.height
  unfold weavingFrame
  dsimp only
  split
  · exact acquired
  · split
    · exact .refl x _
    · exact acquired.trans (Store.spares_release _ _ x)

/-- **Fields are woven into the scratch frame**, if nobody else holds it, or into a new one. -/
theorem spares_weave (hx : x < sh.store.cells.size)
    (hs : sh.scheduler.scratch = some x → sh.store.isUnique x = false) (top bottom : FrameId) :
    Store.Spares x sh.store (sh.weave top bottom).2.store := by
  have acquired := spares_weavingFrame hx (sh.store.frame top).wovenLayout
  obtain ⟨_, hw, he⟩ | ⟨woven, sh', hw, he⟩ := weave_cases sh top bottom
  · rw [hw] at acquired
    rw [he]
    exact acquired
  · have hne : x ≠ woven := by
      rintro rfl
      rcases fst_weavingFrame (congrArg Prod.fst hw) with ⟨hscratch, hunique⟩ | hfresh
      · rw [hs hscratch] at hunique
        cases hunique
      · exact absurd hx (Nat.not_lt.mpr hfresh)
    rw [hw] at acquired
    rw [he]
    exact (acquired.trans (Store.spares_update hne _ _)).trans (Store.spares_retain _ _ x)

theorem spares_complete (hx : x < sh.store.cells.size)
    (hs : sh.scheduler.scratch = some x → sh.store.isUnique x = false) (layer : Nat)
    (first second : Field) : Store.Spares x sh.store (sh.complete layer first second).2.store := by
  have hweave := spares_weave hx hs (evenLines first second).frame (oddLines first second).frame
  obtain ⟨_, hw, he⟩ | ⟨_, _, hw, he⟩ := complete_cases sh layer first second
  · rw [hw] at hweave
    rw [he]
    exact hweave.trans (Store.spares_release _ _ x)
  · rw [hw] at hweave
    rw [he]
    exact hweave.trans (Store.spares_release _ _ x)

theorem spares_pair (hx : x < sh.store.cells.size)
    (hs : sh.scheduler.scratch = some x → sh.store.isUnique x = false) (victim : Victim) :
    Store.Spares x sh.store (sh.pair victim).2.store := by
  obtain ⟨-, he⟩ | ⟨-, -, he⟩ | ⟨first, -, -, -, he⟩ | ⟨first, -, -, -, he⟩ :=
    pair_cases sh victim
  · rw [he]
    exact (sh.spares_dropStash x).trans (Store.spares_retain _ _ x)
  · rw [he]
    exact .refl x _
  · rw [he]
    exact @spares_complete sh.takeStash x hx hs _ _ _
  · rw [he]
    exact sh.spares_dropStash x

theorem spares_send (sh : Shared) (picture : Picture) (x : FrameId) :
    Store.Spares x sh.store (sh.send picture).2.store := by
  obtain ⟨-, he⟩ | ⟨-, he⟩ := send_cases sh picture
  · rw [he]
    exact .refl x _
  · rw [he]
    exact Store.spares_release _ _ x

/-- **An emission writes to no known frame**, but for a scratch frame that nobody else holds. -/
theorem spares_emit (hx : x < sh.store.cells.size)
    (hs : sh.scheduler.scratch = some x → sh.store.isUnique x = false) (victim : Victim)
    (dts : Option Int) : Store.Spares x sh.store (sh.emit victim dts).2.store := by
  have hpair := @spares_pair (sh.pop victim.poc) x hx hs victim
  obtain ⟨-, he⟩ | ⟨picture, sh', -, hp, he⟩ | ⟨result, sh', -, hp, -, he⟩ :=
    emit_cases sh victim dts
  · rw [he]
    exact (((sh.pop victim.poc).spares_dropStash x).trans (Store.spares_retain _ _ x)).trans
      (spares_send _ _ x)
  · rw [hp] at hpair
    rw [he]
    exact hpair.trans (spares_send _ _ x)
  · rw [hp] at hpair
    rw [he]
    exact hpair

/-- The scratch frame after fields were woven is the one before, or a new one. -/
theorem scratch_weave {top bottom : FrameId}
    (h : (sh.weave top bottom).2.scheduler.scratch = some x) :
    sh.scheduler.scratch = some x ∨ sh.store.cells.size ≤ x := by
  rw [scheduler_weave] at h
  obtain ⟨_, -, he⟩ | ⟨woven, _, hw, he⟩ := weave_cases sh top bottom
  · rw [he] at h
    cases h
  · rw [he] at h
    cases h
    exact (fst_weavingFrame (congrArg Prod.fst hw)).imp_left And.left

theorem scratch_pair {victim : Victim} (h : (sh.pair victim).2.scheduler.scratch = some x) :
    sh.scheduler.scratch = some x ∨ sh.store.cells.size ≤ x := by
  obtain ⟨-, he⟩ | ⟨-, -, he⟩ | ⟨first, -, -, -, he⟩ | ⟨first, -, -, -, he⟩ :=
    pair_cases sh victim
  · rw [he] at h
    exact Or.inl ((scratch_dropStash sh).symm.trans h)
  · rw [he] at h
    exact Or.inl h
  · rw [he] at h
    refine @scratch_weave sh.takeStash x (evenLines first victim.field).frame
      (oddLines first victim.field).frame ?_
    obtain ⟨_, hw, hc⟩ | ⟨_, _, hw, hc⟩ :=
      complete_cases sh.takeStash victim.layer first victim.field
    · rw [hc] at h
      rw [hw]
      exact h
    · rw [hc] at h
      rw [hw]
      exact h
  · rw [he] at h
    exact Or.inl ((scratch_dropStash sh).symm.trans h)

theorem scratch_send (sh : Shared) (picture : Picture) :
    (sh.send picture).2.scheduler.scratch = sh.scheduler.scratch := by
  obtain ⟨-, he⟩ | ⟨-, he⟩ := send_cases sh picture <;> rw [he] <;> rfl

/-- **No known frame becomes the scratch frame** by an emission. -/
theorem scratch_emit {victim : Victim} {dts : Option Int}
    (h : (sh.emit victim dts).2.scheduler.scratch = some x) :
    sh.scheduler.scratch = some x ∨ sh.store.cells.size ≤ x := by
  have hpair := @scratch_pair (sh.pop victim.poc) x victim
  obtain ⟨-, he⟩ | ⟨picture, sh', -, hp, he⟩ | ⟨result, sh', -, hp, -, he⟩ :=
    emit_cases sh victim dts
  · rw [he, scratch_send] at h
    exact Or.inl ((scratch_dropStash (sh.pop victim.poc)).symm.trans h)
  · rw [hp] at hpair
    rw [he, scratch_send] at h
    exact hpair h
  · rw [hp] at hpair
    rw [he] at h
    exact hpair h

end Shared

/-! ## Pictures entering a buffer -/

namespace Dpb

variable {store : Store} {x : FrameId}

theorem spares_insert (hx : x < store.cells.size) (dpb : Dpb) (sps : Sps) (new : NewPicture) :
    Store.Spares x store (dpb.insert store sps new).2.2 := by
  have acquired := Store.spares_acquire hx sps.format sps.width sps.height
  unfold insert
  split
  · exact .refl x store
  · rcases ha : store.acquire sps.format sps.width sps.height with ⟨_ | frame, store₁⟩
    · rw [ha] at acquired
      exact acquired
    · rw [ha] at acquired
      have hne : x ≠ frame :=
        Nat.ne_of_lt (Nat.lt_of_lt_of_le hx (Store.size_le_of_acquire ha).1)
      have attached := acquired.trans (Store.spares_attachAll hne new.sideData store₁)
      dsimp only
      rcases hs : store₁.attachAll frame new.sideData with ⟨_ | _, store₂⟩
      · rw [hs] at attached
        exact attached.trans (Store.spares_release _ _ x)
      · rw [hs] at attached
        exact attached

theorem spares_insertStandIn (hx : x < store.cells.size) (dpb : Dpb) (sps : Sps)
    (new : NewPicture) (fill : Bool) :
    Store.Spares x store (dpb.insertStandIn store sps new fill).2.2 := by
  have inserted := dpb.spares_insert hx sps { new with flags := .standIn, picStruct := .frame }
  unfold insertStandIn
  obtain ⟨_, _, he, -⟩ | ⟨index, frame, dpb', store', he, hadd, -⟩ :=
    dpb.insert_cases store sps { new with flags := .standIn, picStruct := .frame }
  · rw [he] at inserted ⊢
    exact inserted
  · rw [he] at inserted ⊢
    obtain ⟨slot, hslot, hf, -⟩ := hadd.entered
    have hne : x ≠ frame := Nat.ne_of_lt (Nat.lt_of_lt_of_le hx hadd.fresh)
    dsimp only
    rw [hslot, Option.bind_some, hf]
    exact inserted.trans (Store.spares_update hne _ _)

end Dpb

/-! ## Decoders -/

/-- A slot that has aged holds its frame, or none. -/
theorem Slot.Ages.frame {old new : Slot} (h : old.Ages new) {frame : FrameId}
    (hf : new.frame = some frame) : old.frame = some frame := by
  induction h with
  | refl => exact hf
  | strip _ mask ih => exact ih (Slot.within_strip mask _ frame hf).1
  | selectLists _ hs ih =>
    obtain ⟨-, rfl⟩ := Slot.selectLists_ok hs
    exact ih hf
  | setLists _ _ ih => exact ih hf

namespace Decoder

variable {d d' d'' : Decoder} {ref : SlotRef} {x : FrameId}

/-- **A known frame stays where it is**: it gets to no slot that has not held it, and does not become
the scratch frame. -/
structure Confines (d d' : Decoder) : Prop where
  size_le : d.store.cells.size ≤ d'.store.cells.size
  slots : ∀ ref x, x < d.store.cells.size → d'.frameAt? ref = some x → d.frameAt? ref = some x
  scratch : ∀ x, x < d.store.cells.size → d'.scheduler.scratch = some x →
    d.scheduler.scratch = some x

theorem Confines.refl (d : Decoder) : d.Confines d :=
  ⟨Nat.le_refl _, fun _ _ _ h => h, fun _ _ h => h⟩

theorem Confines.trans (h : d.Confines d') (h' : d'.Confines d'') : d.Confines d'' :=
  ⟨Nat.le_trans h.size_le h'.size_le,
    fun ref x hx hf => h.slots ref x hx (h'.slots ref x (Nat.lt_of_lt_of_le hx h.size_le) hf),
    fun x hx hs => h.scratch x hx (h'.scratch x (Nat.lt_of_lt_of_le hx h.size_le) hs)⟩

theorem Confines.slot {slot : Slot} (h : d.Confines d') (hx : x < d.store.cells.size)
    (hs : d'.slot? ref = some slot) (hf : slot.frame = some x) :
    ∃ old, d.slot? ref = some old ∧ old.frame = some x :=
  frameAt?_eq_some_iff.mp (h.slots ref x hx (frameAt?_eq_some_iff.mpr ⟨slot, hs, hf⟩))

/-- The frame is known, and it is not the scratch frame. -/
structure Apart (d : Decoder) (x : FrameId) : Prop where
  known : x < d.store.cells.size
  scratch : d.scheduler.scratch ≠ some x

theorem Confines.apart (h : d.Confines d') (hx : d.Apart x) : d'.Apart x :=
  ⟨Nat.lt_of_lt_of_le hx.known h.size_le, fun hs => hx.scratch (h.scratch x hx.known hs)⟩

/-- A known frame stays where it is, and is spared unless it is the scratch frame. -/
structure Spares (d d' : Decoder) : Prop extends Confines d d' where
  frames : ∀ x, d.Apart x → Store.Spares x d.store d'.store

theorem Spares.refl (d : Decoder) : d.Spares d := ⟨.refl d, fun x _ => .refl x d.store⟩

theorem Spares.trans (h : d.Spares d') (h' : d'.Spares d'') : d.Spares d'' :=
  ⟨h.toConfines.trans h'.toConfines, fun x hx => (h.frames x hx).trans (h'.frames x (h.apart hx))⟩

/-- A known frame stays where it is, and is spared, the scratch frame too. -/
structure SparesAll (d d' : Decoder) : Prop extends Confines d d' where
  frames : ∀ x, x < d.store.cells.size → Store.Spares x d.store d'.store

theorem SparesAll.refl (d : Decoder) : d.SparesAll d := ⟨.refl d, fun x _ => .refl x d.store⟩

theorem SparesAll.trans (h : d.SparesAll d') (h' : d'.SparesAll d'') : d.SparesAll d'' :=
  ⟨h.toConfines.trans h'.toConfines,
    fun x hx => (h.frames x hx).trans (h'.frames x (Nat.lt_of_lt_of_le hx h.size_le))⟩

theorem SparesAll.spares (h : d.SparesAll d') : d.Spares d' :=
  ⟨h.toConfines, fun x hx => h.frames x hx.known⟩

theorem frameAt?_congr (hl : d'.layers = d.layers) (ref : SlotRef) :
    d'.frameAt? ref = d.frameAt? ref := by
  rw [frameAt?, slot?, layer?, hl]
  rfl

/-- A frame of a slot that has aged was there before. -/
theorem Ages.frameAt? (h : d.Ages d') (hf : d'.frameAt? ref = some x) :
    d.frameAt? ref = some x := by
  obtain ⟨slot, hs, hslot⟩ := frameAt?_eq_some_iff.mp hf
  obtain ⟨old, hold, hages⟩ := h.slot hs
  exact frameAt?_eq_some_iff.mpr ⟨old, hold, hages.frame hslot⟩

/-- Slots age, and the output process is left alone. -/
theorem Confines.of_ages (h : d.Ages d') (hsize : d.store.cells.size ≤ d'.store.cells.size)
    (hs : d'.scheduler.scratch = d.scheduler.scratch) : d.Confines d' :=
  ⟨hsize, fun _ _ _ => h.frameAt?, fun _ _ hx => hs.symm.trans hx⟩

/-- The slots hold the same frames, and what is shared is left alone. -/
theorem SparesAll.of_frames (hf : ∀ ref, d'.frameAt? ref = d.frameAt? ref)
    (hs : d'.toShared = d.toShared) : d.SparesAll d' := by
  refine ⟨⟨?_, fun ref x _ hx => (hf ref).symm.trans hx, fun x _ hx => ?_⟩, fun x _ => ?_⟩
  · exact Nat.le_of_eq (congrArg (·.store.cells.size) hs.symm)
  · rwa [hs] at hx
  · rw [hs]
    exact .refl x d.store

/-- Slots age, and what is shared is left alone. -/
theorem SparesAll.of_ages (h : d.Ages d') (hs : d'.toShared = d.toShared) : d.SparesAll d' := by
  refine ⟨.of_ages h (Nat.le_of_eq ?_) ?_, fun x _ => ?_⟩
  · rw [hs]
  · rw [hs]
  · rw [hs]
    exact .refl x d.store

/-- Slots age, and frames are given back. -/
theorem SparesAll.of_released (h : d.Ages d') (hs : d'.scheduler = d.scheduler)
    (hst : ∃ ids, d'.store = d.store.releaseAll ids) : d.SparesAll d' := by
  obtain ⟨ids, hst⟩ := hst
  refine ⟨.of_ages h (Nat.le_of_eq ?_) (congrArg Scheduler.scratch hs), fun x _ => ?_⟩
  · rw [hst, Store.size_releaseAll]
  · rw [hst]
    exact Store.spares_releaseAll ids x d.store

theorem spares_stripWhere (d : Decoder) (n : Nat) (p : Slot → Bool) (mask : Flags) :
    d.SparesAll (d.onDpb n fun dpb store => dpb.stripWhere store p mask) := by
  refine .of_released (d.ages_stripWhere n p mask) ?_ ?_
  · exact (d.steady_stripWhere n p mask).scheduler
  · unfold onDpb
    split
    · exact ⟨[], rfl⟩
    · exact ⟨_, rfl⟩

theorem spares_stripOutput (d : Decoder) (ref : SlotRef) : d.SparesAll (d.stripOutput ref) := by
  refine .of_released (d.ages_stripOutput ref) (d.steady_stripOutput ref).scheduler ?_
  unfold stripOutput onDpb
  split
  · exact ⟨[], rfl⟩
  · exact ⟨_, rfl⟩

/-! ### Pictures entering -/

/-- A picture enters a buffer, in a new frame. -/
theorem SparesAll.of_added {n : Nat} {l l' : Layer} {new : NewPicture} {index : Nat}
    {frame : FrameId} (hg : d.layers.get? n = some l)
    (hadd : l.dpb.Added d.store new index frame l'.dpb d'.store)
    (hl : d'.layers = d.layers.set n l') (hs : d'.scheduler = d.scheduler)
    (he : d.store.Evolves d'.store)
    (hf : ∀ x, x < d.store.cells.size → Store.Spares x d.store d'.store) : d.SparesAll d' := by
  refine ⟨⟨he.size_le, fun ref x hx hat => ?_, fun x _ hx => by rwa [hs] at hx⟩,
    hf⟩
  rw [frameAt?, slot?_set hg hl] at hat
  split at hat
  · rename_i hn
    subst hn
    rw [frameAt?, slot?_eq hg]
    by_cases hi : ref.index = index
    · obtain ⟨slot, hslot, hframe, -⟩ := hadd.entered
      rw [hi, hslot, Option.bind_some, hframe] at hat
      cases hat
      exact absurd hx (Nat.not_lt.mpr hadd.fresh)
    · rwa [hadd.others ref.index hi] at hat
  · exact hat

/-- Neither the slots nor the output process change. -/
theorem SparesAll.of_layers (hl : d'.layers = d.layers) (hs : d'.scheduler = d.scheduler)
    (he : d.store.Evolves d'.store)
    (hf : ∀ x, x < d.store.cells.size → Store.Spares x d.store d'.store) : d.SparesAll d' := by
  exact ⟨⟨he.size_le, fun ref x _ hat => (frameAt?_congr hl ref).symm.trans hat,
    fun x _ hx => by rwa [hs] at hx⟩, hf⟩

theorem spares_startPicture (d : Decoder) (layer : Nat) (info : PictureInfo) :
    d.SparesAll (d.startPicture layer info).2 := by
  unfold startPicture activeLayer layer?
  cases hg : d.layers.get? layer with
  | none => exact .refl d
  | some l =>
    dsimp only
    cases hsps : l.sps with
    | none => exact .refl d
    | some sps =>
      dsimp only
      split
      · exact .refl d
      · have inserted := fun x hx => @Dpb.spares_insert (d.turnTo info).store x hx l.dpb sps
          ((d.turnTo info).newPicture layer sps info)
        obtain ⟨fault, store, he, -, hev, -⟩ | ⟨index, frame, dpb, store, he, hadd, hev⟩ :=
          l.dpb.insert_cases (d.turnTo info).store sps ((d.turnTo info).newPicture layer sps info)
        · rw [he] at inserted ⊢
          exact .of_layers (Layers.set_self hg) rfl hev inserted
        · rw [he] at inserted ⊢
          exact @SparesAll.of_added d _ layer l { l with dpb, current := some index } _ _ _ hg hadd rfl
            rfl hev inserted

theorem spares_locate {layer : Nat} {l : Layer} (hg : d.layers.get? layer = some l) (sps : Sps)
    (found : Option Nat) (poc : Int) : d.SparesAll (d.locate layer l sps found poc).2 := by
  cases found with
  | some index => exact .refl d
  | none =>
    have inserted := fun x hx => @Dpb.spares_insertStandIn d.store x hx l.dpb sps
      (d.describe layer sps poc .standIn) (!d.config.accelerated)
    unfold locate
    dsimp only
    obtain ⟨fault, store, he, hev, -⟩ | ⟨index, frame, dpb, store, he, hadd, hev⟩ :=
      l.dpb.insertStandIn_cases d.store sps (d.describe layer sps poc .standIn)
        (!d.config.accelerated)
    · rw [he] at inserted ⊢
      exact .of_layers (Layers.set_self hg) rfl hev inserted
    · rw [he] at inserted ⊢
      exact .of_added hg hadd rfl rfl hev inserted

/-! ### Derivations -/

/-- What pictures are kept for changes, and nothing else. -/
theorem spares_modifyDpb {f : Dpb → Dpb} (hf : ∀ dpb, (f dpb).Same dpb) (d : Decoder) (n : Nat) :
    d.SparesAll (d.modifyDpb n f) := by
  refine .of_frames (fun ref => ?_) ?_
  · rw [frameAt?, slot?_modifyDpb]
    split
    · rename_i hn
      subst hn
      rw [frameAt?]
      cases hg : d.layers.get? ref.layer with
      | none => rw [slot?_eq_none hg, Option.bind_none]
      | some l =>
        have hsame := congrArg (·.bind Prod.fst) (hf l.dpb ref.index)
        rw [Option.bind_map, Option.bind_map] at hsame
        rw [slot?_eq hg, Option.bind_some]
        exact hsame
    · rfl
  · unfold modifyDpb modifyLayer
    split <;> rfl

theorem spares_addCandidate (d : Decoder) (layer : Nat) (c : Candidate) :
    d.SparesAll (d.addCandidate layer c).2 := by
  unfold addCandidate activeLayer layer?
  cases hg : d.layers.get? layer with
  | none => exact .refl d
  | some l =>
    dsimp only
    cases hsps : l.sps with
    | none => exact .refl d
    | some sps =>
      dsimp only
      generalize l.dpb.find? _ c.poc = found
      split
      · exact .refl d
      · have hl := spares_locate hg sps found c.poc
        rcases he : d.locate layer l sps found c.poc with ⟨_ | index, d'⟩
        · rw [he] at hl
          exact hl
        · rw [he] at hl
          have hm := spares_modifyDpb (fun dpb => dpb.same_mark index c.marking) d' layer
          exact (hl.trans hm).trans (.of_frames (fun _ => rfl) rfl)

theorem spares_addCandidates (layer : Nat) (candidates : List Candidate) : ∀ d : Decoder,
    d.SparesAll (d.addCandidates layer candidates).2 := by
  induction candidates with
  | nil => exact SparesAll.refl
  | cons c rest ih =>
    intro d
    have hc := d.spares_addCandidate layer c
    unfold addCandidates
    rcases he : d.addCandidate layer c with ⟨_ | _, d'⟩
    · rw [he] at hc
      exact hc
    · rw [he] at hc
      exact hc.trans (ih d')

theorem spares_addInterLayer (d : Decoder) (layer : Nat) :
    d.SparesAll (d.addInterLayer layer).2 := by
  unfold addInterLayer
  split
  · exact .refl d
  · split
    · exact .refl d
    · exact d.spares_addCandidate 0 _

theorem spares_clearSets (d : Decoder) (layer : Nat) : d.SparesAll (d.clearSets layer) := by
  have h := d.spares_stripWhere layer (·.flags.placeholder) .all
  have hm := spares_modifyDpb (fun dpb => dpb.same_unmarkExcept
    ((d.onDpb layer Dpb.removeStandIns).currentIn layer)) (d.onDpb layer Dpb.removeStandIns) layer
  exact (h.trans hm).trans (.of_frames (fun _ => rfl) rfl)

theorem spares_deriveSets (d : Decoder) (layer : Nat) (hdr : SliceHeader) :
    d.SparesAll (d.deriveSets layer hdr).2 := by
  cases hg : d.layers.get? layer with
  | none =>
    rw [deriveSets_of_invalid hg]
    exact .refl d
  | some l =>
    have hadd : d.SparesAll ((d.clearSets layer).addHeader layer hdr).2 := by
      refine addHeader_induction ?_ fun h => h.trans (spares_addInterLayer _ layer)
      exact (d.spares_clearSets layer).trans (spares_addCandidates layer _ _)
    rw [deriveSets_eq hg]
    exact hadd.trans (spares_stripWhere _ layer (fun _ => true) .empty)

/-! ### Slices -/

theorem shared_modifyLayer (d : Decoder) (n : Nat) (f : Layer → Layer) :
    (d.modifyLayer n f).toShared = d.toShared := by
  unfold modifyLayer
  split <;> rfl

/-! ### Output -/

theorem spares_bump (pass : OutputPass) (d : Decoder) (ref : SlotRef) (slot : Slot) :
    d.Spares (d.bump pass ref slot).2 := by
  refine bump_preserves (P := d.Spares) (.refl d) (fun n => ?_) (fun frame _ => ?_) ?_ pass
  · exact ⟨⟨Nat.le_refl _, fun _ _ _ hf => hf, fun _ _ hs => hs⟩, fun x _ => .refl x d.store⟩
  · have hev := Shared.evolves_emit d.toShared (slot.victim ref.layer frame) d.dts
    refine ⟨⟨hev.size_le, fun _ _ _ hf => hf, fun x hx hs => ?_⟩, fun x hx => ?_⟩
    · rcases Shared.scratch_emit hs with hold | hfresh
      · exact hold
      · exact absurd hx (Nat.not_lt.mpr hfresh)
    · exact Shared.spares_emit hx.known (fun hs => absurd hs hx.scratch) _ _
  · exact fun d' h => h.trans (d'.spares_stripOutput ref).spares

theorem spares_output (d : Decoder) (pass : OutputPass) :
    d.Spares (d.output pass).2 ∧ ∀ m ∈ d.moments pass, d.Spares m.decoder := by
  refine @output_preserves d pass (fun d' => d.Spares d') ?_ (.refl d)
  exact fun h _ => h.trans (spares_bump pass _ _ _)

theorem spares_dropStash (d : Decoder) :
    d.SparesAll { d with toShared := d.toShared.dropStash } := by
  refine ⟨⟨(Shared.evolves_dropStash d.toShared).size_le, fun _ _ _ hf => hf, fun x _ hs => ?_⟩,
    fun x _ => d.toShared.spares_dropStash x⟩
  exact (Shared.scratch_dropStash d.toShared).symm.trans hs

/-! ### The picture that a decoder is producing -/

/-- The frame is that of the picture which the decoder has started and not given up. -/
def Owns (d : Decoder) (x : FrameId) : Prop :=
  d.ownsCurrent = true ∧ ∃ ref, d.current = some ref ∧ d.frameAt? ref = some x

theorem spares_updateFrame (hx : d.frameAt? ref ≠ some x) (f : Frame → Frame) :
    Store.Spares x d.store (d.updateFrame ref f).store := by
  unfold updateFrame
  split
  · exact .refl x d.store
  · rename_i frame hf
    have hne : x ≠ frame := by
      rintro rfl
      exact hx hf
    exact Store.spares_update hne d.store f

theorem spares_finishPicture (hx : ¬ d.Owns x) : Store.Spares x d.store d.finishPicture.store := by
  unfold finishPicture
  dsimp only
  split
  · rename_i ref howns hcur
    exact spares_updateFrame (fun hf => hx ⟨howns, ref, hcur, hf⟩) _
  · exact .refl x d.store

theorem spares_abandonPicture (hx : d.decoding = true → ¬ d.Owns x) :
    Store.Spares x d.store d.abandonPicture.store := by
  unfold abandonPicture
  dsimp only
  split
  · rename_i ref hdecoding hcur
    obtain ⟨hdecoding, howns⟩ := Bool.and_eq_true_iff.mp hdecoding
    exact spares_updateFrame (fun hf => hx hdecoding ⟨howns, ref, hcur, hf⟩) _
  · exact .refl x d.store

theorem confines_abandonPicture (d : Decoder) : d.Confines d.abandonPicture :=
  .of_ages d.ages_abandonPicture d.quiet_abandonPicture.evolves.size_le
    (congrArg Scheduler.scratch d.quiet_abandonPicture.scheduler)

theorem confines_dropCurrent (d : Decoder) : d.Confines d.dropCurrent :=
  .of_ages d.ages_dropCurrent d.quiet_dropCurrent.evolves.size_le
    (congrArg Scheduler.scratch d.quiet_dropCurrent.scheduler)

theorem confines_clear (d : Decoder) : d.Confines d.clear :=
  .of_ages d.ages_clear d.quiet_clear.evolves.size_le
    (congrArg Scheduler.scratch d.quiet_clear.scheduler)

/-- Once the current picture is given up, removing pictures spares every frame. -/
theorem spares_removed (hx : x < d.store.cells.size) :
    Store.Spares x d.abandonPicture.store d.clear.store := by
  have hclear : ∀ (d : Decoder) (n : Nat), d.SparesAll (d.onDpb n Dpb.clear) :=
    fun d n => d.spares_stripWhere n (fun _ => true) .all
  have hforget : ∀ (d : Decoder) (n : Nat),
      d.SparesAll (d.modifyLayer n ({ · with current := none })) :=
    fun d n => .of_ages (ages_modifyLayer (fun _ => rfl) fun _ _ h => by cases h)
      (d.shared_modifyLayer n _)
  have h := ((hclear d.abandonPicture 0).trans (hclear _ 1)).trans
    ((hforget _ 0).trans (hforget _ 1))
  exact h.frames x (Nat.lt_of_lt_of_le hx d.confines_abandonPicture.size_le)

theorem spares_clear (hap : d.Apart x) (hx : ¬ d.Owns x) :
    Store.Spares x d.store d.clear.store :=
  (spares_abandonPicture fun _ => hx).trans (spares_removed hap.known)

/-- What a decoder that has aged owns it has owned before. -/
theorem Owns.of_ages (hx : d'.Owns x) (h : d.Ages d') (ho : d'.ownsCurrent = d.ownsCurrent) :
    d.Owns x := by
  obtain ⟨howns, ref, hcur, hf⟩ := hx
  exact ⟨ho.symm.trans howns, ref, h.current ref hcur, h.frameAt? hf⟩

theorem spares_dropCurrent (hap : d.Apart x) (hx : d.decoding = true → ¬ d.Owns x) :
    Store.Spares x d.store d.dropCurrent.store := by
  unfold dropCurrent
  dsimp only
  split
  · rename_i ref hdecoding _
    have hs := d.spares_stripOutput ref
    have howns : ¬ (d.stripOutput ref).Owns x := by
      obtain ⟨_, _, he⟩ := d.stripOutput_eq ref
      exact fun h => hx hdecoding (h.of_ages (d.ages_stripOutput ref) (by rw [he]))
    exact (hs.frames x hap.known).trans (spares_abandonPicture fun _ => howns)
  · exact spares_abandonPicture hx

/-- The pass of a flush spares what it is not about to give up. -/
theorem spares_flushPass (d : Decoder) :
    d.dropCurrent.Spares (d.dropCurrent.output d.flushPass).2 :=
  (d.dropCurrent.spares_output d.flushPass).1

theorem confines_flush (d : Decoder) : d.Confines d.flush.2 := by
  have hpass := d.confines_dropCurrent.trans d.spares_flushPass.toConfines
  obtain ⟨frame, -, he⟩ | ⟨-, he⟩ := d.flush_cases
  · rw [he]
    exact hpass
  · rw [he]
    exact hpass.trans ((confines_clear _).trans (spares_dropStash _).toConfines)

/-- The current picture was given up before the pass. -/
theorem ownsCurrent_flushPass (d : Decoder) :
    (d.dropCurrent.output d.flushPass).2.ownsCurrent = false := by
  obtain ⟨layers, shared, he⟩ := (d.dropCurrent.output_eq d.flushPass).1
  rw [he]
  rfl

/-- Once the current picture is dropped, a flush spares every frame. -/
theorem spares_flushed (hap : d.Apart x) :
    Store.Spares x d.dropCurrent.store d.flush.2.store := by
  have hap' := d.confines_dropCurrent.apart hap
  have hpass := d.spares_flushPass.frames x hap'
  have hend := d.spares_flushPass.toConfines.apart hap'
  obtain ⟨frame, -, he⟩ | ⟨-, he⟩ := d.flush_cases
  · rw [he]
    exact hpass
  · have hnone : ¬ (d.dropCurrent.output d.flushPass).2.Owns x := by
      rintro ⟨howns, -⟩
      rw [d.ownsCurrent_flushPass] at howns
      cases howns
    rw [he]
    exact (hpass.trans (spares_clear hend hnone)).trans
      ((spares_dropStash _).frames x ((confines_clear _).apart hend).known)

theorem spares_flush (hap : d.Apart x) (hx : ¬ d.Owns x) :
    Store.Spares x d.store d.flush.2.store :=
  (spares_dropCurrent hap fun _ => hx).trans (spares_flushed hap)

/-! ### The commands -/

/-- A command that neither outputs pictures nor brings the current one to an end spares every
frame. -/
theorem sparesAll_run (d : Decoder) {command : Command}
    (h : match command with
      | .finishPicture | .output _ | .flush | .clear => False
      | _ => True) : d.SparesAll (d.run command).2 := by
  cases command with
  | setVps | setSei | setDts | setDuration => exact .of_frames (fun _ => rfl) rfl
  | setSps n sps =>
    refine .of_ages (d.ages_setSps n sps) ?_
    dsimp only [run, setSps]
    split
    · rfl
    · exact d.shared_modifyLayer n _
  | startPicture layer info => exact d.spares_startPicture layer info
  | unmarkAll n =>
    dsimp only [run, unmarkAll]
    split
    · exact .refl d
    · exact d.spares_stripWhere n (fun _ => true) .references
  | deriveSets layer hdr => exact d.spares_deriveSets layer hdr
  | startSlice hdr slice =>
    obtain ⟨layers, he⟩ := d.startSlice_eq hdr slice
    have hs : (d.startSlice hdr slice).2.toShared = d.toShared := by rw [he]
    exact .of_ages (d.ages_startSlice hdr slice) hs
  | buildLists hdr slice =>
    obtain ⟨layers, collocated, he⟩ := d.buildLists_eq hdr slice
    have hs : (d.buildLists hdr slice).2.toShared = d.toShared := by rw [he]
    exact .of_ages (d.ages_buildLists hdr slice) hs
  | dropStash => exact d.spares_dropStash
  | finishPicture | output | flush | clear => exact h.elim

/-- A command that does not bring the current picture to an end. -/
theorem spares_run_of_ongoing (d : Decoder) {command : Command}
    (h : match command with
      | .finishPicture | .flush | .clear => False
      | _ => True) : d.Spares (d.run command).2 := by
  cases command with
  | output pass => exact (d.spares_output pass).1
  | finishPicture | flush | clear => exact h.elim
  | _ => exact (d.sparesAll_run trivial).spares

/-- **No command moves a known frame** to another slot, nor makes it the scratch frame. -/
theorem confines_run (d : Decoder) (command : Command) : d.Confines (d.run command).2 := by
  cases command with
  | finishPicture =>
    exact .of_ages d.ages_finishPicture d.quiet_finishPicture.evolves.size_le
      (congrArg Scheduler.scratch d.quiet_finishPicture.scheduler)
  | flush => exact d.confines_flush
  | clear => exact d.confines_clear
  | _ => exact (d.spares_run_of_ongoing trivial).toConfines

/-- **Commands spare every known frame** but the scratch frame and the one that the decoder is
producing. -/
theorem spares_run (hap : d.Apart x) (hx : ¬ d.Owns x) (command : Command) :
    Store.Spares x d.store (d.run command).2.store := by
  cases command with
  | finishPicture => exact spares_finishPicture hx
  | flush => exact spares_flush hap hx
  | clear => exact spares_clear hap hx
  | _ => exact (d.spares_run_of_ongoing trivial).frames x hap

/-- **The current picture stays** the decoder's own, or somebody else's, under the same parameters,
until it is finished or given up, or another one is started. -/
theorem current_run {command : Command}
    (h : match command with
      | .startPicture .. | .finishPicture | .flush | .clear => False
      | _ => True) :
    (d.run command).2.current = d.current ∧ (d.run command).2.ownsCurrent = d.ownsCurrent ∧
      (d.run command).2.pps = d.pps := by
  cases command with
  | setVps | setSei | setDts | setDuration | dropStash => exact ⟨rfl, rfl, rfl⟩
  | setSps n sps =>
    dsimp only [run, setSps]
    split
    · exact ⟨rfl, rfl, rfl⟩
    · unfold modifyLayer
      split <;> exact ⟨rfl, rfl, rfl⟩
  | unmarkAll n =>
    dsimp only [run, unmarkAll]
    split
    · exact ⟨rfl, rfl, rfl⟩
    · unfold onDpb
      split <;> exact ⟨rfl, rfl, rfl⟩
  | deriveSets layer hdr =>
    obtain ⟨layers, store, sets, he⟩ := (d.deriving_deriveSets layer hdr).eq
    exact ⟨congrArg (·.current) he, congrArg (·.ownsCurrent) he, congrArg (·.pps) he⟩
  | startSlice hdr slice =>
    obtain ⟨layers, he⟩ := d.startSlice_eq hdr slice
    exact ⟨congrArg (·.current) he, congrArg (·.ownsCurrent) he, congrArg (·.pps) he⟩
  | buildLists hdr slice =>
    obtain ⟨layers, collocated, he⟩ := d.buildLists_eq hdr slice
    exact ⟨congrArg (·.current) he, congrArg (·.ownsCurrent) he, congrArg (·.pps) he⟩
  | output pass =>
    obtain ⟨layers, shared, he⟩ := (d.output_eq pass).1
    exact ⟨congrArg (·.current) he, congrArg (·.ownsCurrent) he, congrArg (·.pps) he⟩
  | startPicture | finishPicture | flush | clear => exact h.elim

/-- Only a picture that is started may become the decoder's own. -/
theorem ownsCurrent_run {command : Command}
    (h : match command with
      | .startPicture .. => False
      | _ => True) (ho : (d.run command).2.ownsCurrent = true) : d.ownsCurrent = true := by
  cases command with
  | finishPicture =>
    refine Eq.trans (Eq.symm ?_) ho
    dsimp only [run, finishPicture]
    split
    · obtain ⟨store, he⟩ := d.updateFrame_eq _ (·.produce)
      exact congrArg (·.ownsCurrent) he
    · rfl
  | flush =>
    have hpass := d.ownsCurrent_flushPass
    dsimp only [run] at ho
    obtain ⟨frame, -, he⟩ | ⟨-, he⟩ := d.flush_cases
    · rw [he, hpass] at ho
      cases ho
    · rw [he] at ho
      cases ho
  | clear => cases ho
  | startPicture => exact h.elim
  | _ => exact (current_run trivial).2.1.symm.trans ho

/-- **No command makes a known frame the decoder's own.** -/
theorem Owns.of_run {command : Command} (h : (d.run command).2.Owns x)
    (hx : x < d.store.cells.size) : d.Owns x := by
  obtain ⟨howns, ref, hcur, hf⟩ := h
  have hold := (d.confines_run command).slots ref x hx hf
  have aged : (∀ ref, (d.run command).2.current = some ref → d.current = some ref) →
      ((d.run command).2.ownsCurrent = true → d.ownsCurrent = true) → d.Owns x :=
    fun hc ho => ⟨ho howns, ref, hc ref hcur, hold⟩
  cases command with
  | startPicture layer info =>
    dsimp only [run] at howns hcur hf
    obtain ⟨_, he, -⟩ | ⟨_, _, he, -⟩ | ⟨l, _, index, frame, dpb, _, hg, he, hadd, -⟩ :=
      d.startPicture_cases layer info
    · rw [he] at howns hcur
      exact ⟨howns, ref, hcur, hold⟩
    · rw [he] at howns hcur
      exact ⟨howns, ref, hcur, hold⟩
    · -- The slot of the picture was free.
      rw [he] at hcur
      cases hcur
      obtain ⟨free, hfree, hnone⟩ := hadd.free
      rw [frameAt?, slot?_eq hg, hfree, Option.bind_some, hnone] at hold
      cases hold
  | deriveSets layer hdr =>
    exact aged (fun r hr => (d.deriving_deriveSets layer hdr).current_eq.symm.trans hr)
      (ownsCurrent_run trivial)
  | _ => exact aged (d.ages_run trivial).current (ownsCurrent_run trivial)

end Decoder

/-! ## Sessions -/

namespace Session

variable {s : Session} {e : Event} {k : Nat} {d : Decoder} {ref : SlotRef} {x : FrameId}

/-- The frame is known, and it is not the scratch frame. -/
structure Apart (s : Session) (x : FrameId) : Prop where
  known : x < s.known
  scratch : s.shared.scheduler.scratch ≠ some x

theorem Apart.decoder (h : s.Apart x) (hd : s.decoder? k = some d) : d.Apart x := by
  obtain ⟨-, hshared⟩ := decoder?_eq hd
  refine ⟨?_, ?_⟩
  · rw [hshared]
    exact h.known
  · rw [hshared]
    exact h.scratch

theorem scratch_close (s : Session) (i : Nat) (context : Context) :
    (s.close i context).shared.scheduler.scratch = s.shared.scheduler.scratch ∨
      (s.close i context).shared.scheduler.scratch = none := by
  unfold close
  dsimp only
  split
  · exact Or.inr rfl
  · exact Or.inl rfl

/-- Only a command brings in another scratch frame. -/
theorem scratch_of_step (he : ∀ i command, e ≠ .run i command)
    (hs : (s.step e).2.shared.scheduler.scratch = some x) :
    s.shared.scheduler.scratch = some x := by
  cases e with
  | run i command => exact absurd rfl (he i command)
  | close i =>
    dsimp only [step] at hs
    cases hc : s.context? i with
    | none =>
      rw [hc] at hs
      exact hs
    | some context =>
      rw [hc] at hs
      rcases s.scratch_close i context with hsame | hnone
      · exact hsame.symm.trans hs
      · cases hnone.symm.trans hs
  | take i all keep =>
    obtain ⟨queue, hq⟩ := s.dequeue_eq all
    dsimp only [step] at hs
    split at hs
    · exact hs
    · dsimp only at hs
      rw [hq] at hs
      split at hs
      · exact hs
      · exact hs
  | fork | work | letGo =>
    dsimp only [step] at hs
    split at hs
    · exact hs
    · exact hs

/-- **A known frame never becomes the scratch frame**, whatever happens. -/
theorem apart_step (h : s.Apart x) (e : Event) : (s.step e).2.Apart x := by
  refine ⟨Nat.lt_of_lt_of_le h.known (evolves_step s e).size_le, fun hs => ?_⟩
  cases e with
  | run i command =>
    dsimp only [step] at hs
    cases hd : s.decoder? i with
    | none =>
      rw [hd] at hs
      exact h.scratch hs
    | some d =>
      rw [hd] at hs
      exact ((d.confines_run command).apart (h.decoder hd)).scratch hs
  | _ => exact h.scratch (scratch_of_step (by simp) hs)

/-- A decoder that was there before an event carried out a command, or is as it was. -/
theorem decoder?_of_step (hk : k < s.contexts.length) (hd : (s.step e).2.decoder? k = some d) :
    ∃ old, s.decoder? k = some old ∧
      ((∃ command, e = .run k command ∧ d = (old.run command).2) ∨
        d.toContext = old.toContext) := by
  have kept : ∀ {context}, s.context? k = some context → d.toContext = context →
      ∃ old, s.decoder? k = some old ∧
        ((∃ command, e = .run k command ∧ d = (old.run command).2) ∨
          d.toContext = old.toContext) := by
    intro context hc he
    exact ⟨{ toContext := context, toShared := s.shared }, by rw [decoder?, hc]; rfl, Or.inr he⟩
  obtain ⟨hc, hshared⟩ := decoder?_eq hd
  have hstepped := s.stepped e
  generalize (s.step e).2 = s' at hstepped hc hshared
  cases hstepped with
  | @ran i old command hold =>
    rw [context?_setDecoder hold] at hc
    split at hc
    · rename_i hi
      subst hi
      have hcontext := Option.some.inj hc
      refine ⟨old, hold, Or.inl ⟨command, rfl, ?_⟩⟩
      obtain ⟨context, shared⟩ := d
      dsimp only at hcontext hshared
      rw [← hcontext, hshared]
      rfl
    · exact kept hc rfl
  | forked =>
    refine kept ?_ rfl
    rw [← hc, context?, context?]
    exact congrArg Option.join (List.getElem?_append_left hk).symm
  | closed => exact kept (context?_set_none hc) rfl
  | served => exact kept hc rfl

/-- **What a decoder's commands carry on** of its own state, every event carries on. -/
theorem carried_step {P : Decoder → Prop} (hk : k < s.contexts.length)
    (own : ∀ {d d' : Decoder}, P d → d'.toContext = d.toContext → P d')
    (ran : ∀ {d : Decoder} {command : Command}, e = .run k command → s.decoder? k = some d →
      P d → P (d.run command).2)
    (h : ∀ d, s.decoder? k = some d → P d) : ∀ d, (s.step e).2.decoder? k = some d → P d := by
  intro d hd
  obtain ⟨old, hold, ⟨command, he, rfl⟩ | hcontext⟩ := decoder?_of_step hk hd
  · exact ran he hold (h old hold)
  · exact own (h old hold) hcontext

/-- **A known frame does not get to other slots** of a decoder, whatever happens. -/
theorem frameAt?_of_step (hk : k < s.contexts.length) (hx : x < s.known)
    (hd : (s.step e).2.decoder? k = some d) (hf : d.frameAt? ref = some x) :
    ∃ old, s.decoder? k = some old ∧ old.frameAt? ref = some x := by
  obtain ⟨old, hold, ⟨command, -, rfl⟩ | hcontext⟩ := decoder?_of_step hk hd
  · refine ⟨old, hold, (old.confines_run command).slots ref x ?_ hf⟩
    rw [(decoder?_eq hold).2]
    exact hx
  · have hlayers : d.layers = old.layers := congrArg Context.layers hcontext
    exact ⟨old, hold, (Decoder.frameAt?_congr hlayers ref).symm.trans hf⟩

end Session

end PictureBuffer
