import PictureBuffer.Proofs.Buffers
import PictureBuffer.Proofs.Ranges

/-!
# Pictures enter as a whole or not at all

A picture needs a free slot, a frame from the provider, and all its side data attached to it. Each
of the three can fail, the last one at any of the pieces, when the frame has been acquired already.
Whichever fails, the buffer is as it was, and so are the frames in use and the pool. If all succeed,
the lowest free slot holds the picture and nothing else has changed (`Dpb.Entry`).

The store is followed through an attempt by two relations. `Store.Gained` says that one frame came
in, and holds from the acquisition on, however many pieces of side data were attached; giving up its
only handle leads back to where the attempt began (`Store.Undone`, `Gained.release`).
-/

namespace PictureBuffer

namespace Store

variable {before after : Store} {id : FrameId} {frame : Frame}

/-- **The frames in use and the pool are as they were.** Requests to the provider may have been
made. -/
structure Undone (before after : Store) : Prop where
  provider : after.provider = before.provider
  outstanding : after.outstanding = before.outstanding
  cells : ∀ x, after.cell? x = before.cell? x

/-- **One frame came in**, and has one handle. All others are as they were. -/
structure Gained (before : Store) (id : FrameId) (frame : Frame) (after : Store) : Prop where
  provider : after.provider = before.provider
  fresh : before.cell? id = none
  entered : ∃ pooled, after.cell? id = some ⟨frame, pooled, 1⟩ ∧
    after.outstanding = before.outstanding + pooled.toNat
  others : ∀ x, x ≠ id → after.cell? x = before.cell? x

/-- Giving up the only handle to it leads back. -/
theorem Gained.release (h : before.Gained id frame after) : before.Undone (after.release id) := by
  obtain ⟨pooled, hc, ho⟩ := h.entered
  have hrelease : (after.release id).provider = after.provider ∧
      (after.release id).outstanding = after.outstanding - pooled.toNat := by
    unfold Store.release
    rw [hc]
    exact ⟨rfl, rfl⟩
  refine ⟨hrelease.1.trans h.provider, ?_, fun x => ?_⟩
  · rw [hrelease.2, ho, Nat.add_sub_cancel]
  · rw [cell?_release]
    by_cases hx : x = id
    · subst hx
      rw [if_pos rfl, hc, h.fresh]
      rfl
    · rw [if_neg hx, h.others x hx]

theorem Gained.handles (h : before.Gained id frame after) (x : FrameId) :
    after.handles x = if x = id then 1 else before.handles x := by
  obtain ⟨pooled, hc, -⟩ := h.entered
  by_cases hx : x = id
  · subst hx
    rw [if_pos rfl, Store.handles, hc]
    rfl
  · rw [if_neg hx, Store.handles, h.others x hx, Store.handles]

/-- It may change in place. -/
theorem Gained.update (h : before.Gained id frame after) (f : Frame → Frame) :
    before.Gained id (f frame) (after.update id f) := by
  obtain ⟨pooled, hc, ho⟩ := h.entered
  refine ⟨h.provider, h.fresh, ⟨pooled, ?_, ho⟩, fun x hx => ?_⟩
  · rw [cell?_update, if_pos rfl, hc]
    rfl
  · rw [cell?_update, if_neg hx, h.others x hx]

/-! ### Requests to the provider -/

/-- One more request was made. -/
def asked (store : Store) : Store := { store with acquisitions := store.acquisitions + 1 }

/-- What the provider has to give at the next request, and whether it is a frame of the pool. -/
def offer? (store : Store) (format : Format) (width height : Nat) : Option (Frame × Bool) :=
  match store.provider.supply store.acquisitions with
  | .refused => none
  | .own planes => some (.blank ⟨format, width, height, planes⟩, false)
  | .pooled =>
    if store.provider.budget.all (store.outstanding < ·) then
      some (.blank (.unpadded format width height), true)
    else none

theorem acquire_eq (store : Store) (format : Format) (width height : Nat) :
    store.acquire format width height =
      match store.offer? format width height with
      | none => (none, store.asked)
      | some (frame, pooled) =>
        (some (store.asked.insert frame pooled).1, (store.asked.insert frame pooled).2) := by
  unfold acquire offer?
  cases store.provider.supply store.acquisitions with
  | refused => rfl
  | own planes => rfl
  | pooled =>
    dsimp only
    split <;> rfl

theorem isSome_offer?_iff (store : Store) (format : Format) (width height : Nat) :
    (store.offer? format width height).isSome = true ↔ store.Supplies := by
  rw [← isSome_acquire_iff store format width height, acquire_eq]
  cases store.offer? format width height <;> rfl

/-- A frame that is offered is a new one of the given format and size. -/
theorem blank_of_offer? {store : Store} {format : Format} {width height : Nat} {pooled : Bool}
    (h : store.offer? format width height = some (frame, pooled)) :
    ∃ planes, frame = .blank ⟨format, width, height, planes⟩ := by
  unfold offer? at h
  split at h
  · cases h
  · cases h
    exact ⟨_, rfl⟩
  · split at h
    · cases h
      exact ⟨_, rfl⟩
    · cases h

theorem gained_insert (store : Store) (frame : Frame) (pooled : Bool) :
    store.Gained store.cells.size frame (store.asked.insert frame pooled).2 := by
  refine ⟨rfl, cell?_of_le (Nat.le_refl _), ⟨pooled, ?_, rfl⟩, fun x hx => ?_⟩
  · rw [cell?_insert]
    exact if_pos rfl
  · rw [cell?_insert]
    exact if_neg hx

/-- What a request for a frame comes to. -/
theorem acquire_cases (store : Store) (format : Format) (width height : Nat) :
    (¬store.Supplies ∧ ∃ store', store.acquire format width height = (none, store') ∧
      store.Undone store') ∨
    (store.Supplies ∧ ∃ id store' planes,
      store.acquire format width height = (some id, store') ∧
        store.Gained id (.blank ⟨format, width, height, planes⟩) store' ∧
        store'.attachments = store.attachments) := by
  rw [← isSome_offer?_iff store format width height, acquire_eq]
  cases ho : store.offer? format width height with
  | none => exact .inl ⟨by simp, store.asked, rfl, rfl, rfl, fun _ => rfl⟩
  | some offer =>
    obtain ⟨frame, pooled⟩ := offer
    obtain ⟨planes, rfl⟩ := blank_of_offer? ho
    exact .inr ⟨rfl, _, _, planes, rfl, gained_insert store _ pooled, rfl⟩

/-- The provider attaches side data at each of the next `n` requests. -/
def Attaches (store : Store) (n : Nat) : Prop :=
  ∀ k < n, store.provider.attaches (store.attachments + k) = true

theorem attaches_succ_iff {store : Store} {n : Nat} :
    store.Attaches (n + 1) ↔ store.provider.attaches store.attachments = true ∧
      Store.Attaches { store with attachments := store.attachments + 1 } n := by
  constructor
  · intro h
    refine ⟨h 0 (Nat.succ_pos n), fun k hk => ?_⟩
    have hk' := h (k + 1) (Nat.succ_lt_succ hk)
    rwa [Nat.add_comm k 1, ← Nat.add_assoc] at hk'
  · rintro ⟨hfirst, hrest⟩ k hk
    cases k with
    | zero => exact hfirst
    | succ k =>
      rw [Nat.add_comm k 1, ← Nat.add_assoc]
      exact hrest k (Nat.lt_of_succ_lt_succ hk)

/-- **What attaching side data comes to**: every piece is attached, in order, if the provider can
attach each of them. Otherwise those before the first that it cannot attach are. -/
theorem Gained.attachAll (sideData : List SideData) : ∀ {after : Store} {frame : Frame},
    before.Gained id frame after →
    ((after.attachAll id sideData).1 = true ↔ after.Attaches sideData.length) ∧
      ∃ attached, before.Gained id { frame with sideData := frame.sideData ++ attached }
          (after.attachAll id sideData).2 ∧
        ((after.attachAll id sideData).1 = true → attached = sideData) := by
  induction sideData with
  | nil =>
    intro after frame h
    refine ⟨iff_of_true rfl fun k hk => absurd hk (Nat.not_lt_zero k), [], ?_, fun _ => rfl⟩
    rw [List.append_nil]
    exact h
  | cons data rest ih =>
    intro after frame h
    have hasked : before.Gained id frame { after with attachments := after.attachments + 1 } :=
      ⟨h.provider, h.fresh, h.entered, h.others⟩
    rw [List.length_cons, attaches_succ_iff]
    unfold Store.attachAll attach
    dsimp only
    by_cases ha : after.provider.attaches after.attachments = true
    · rw [if_pos ha]
      obtain ⟨hiff, attached, hgained, hall⟩ := ih (hasked.update (·.addSideData data))
      refine ⟨hiff.trans ⟨fun hrest => ⟨ha, hrest⟩, And.right⟩, data :: attached, ?_, ?_⟩
      · have happend : frame.sideData ++ data :: attached =
            (frame.addSideData data).sideData ++ attached := by
          rw [Frame.addSideData, List.append_assoc]
          rfl
        rw [happend]
        exact hgained
      · intro hs
        rw [hall hs]
    · rw [if_neg ha]
      refine ⟨iff_of_false (by simp) fun hs => ha hs.1, [], ?_, fun hs => by cases hs⟩
      rw [List.append_nil]
      exact hasked

end Store

namespace Dpb

variable {dpb : Dpb} {store : Store} {sps : Sps} {new : NewPicture}

/-- The lowest free slot. -/
structure LowestFree (dpb : Dpb) (index : Nat) : Prop where
  free : ∃ slot, dpb.slot? index = some slot ∧ slot.isFree = true
  taken : ∀ i < index, ∀ slot, dpb.slot? i = some slot → slot.isFree = false

/-- **An attempt to enter the picture `new`, and what it comes to**: an error without a trace,
or the picture in the lowest free slot, with a frame of its own that holds its side data. -/
structure Entry (dpb : Dpb) (store : Store) (sps : Sps) (new : NewPicture) (progress : Progress)
    (result : Except Fault Nat) (dpb' : Dpb) (store' : Store) : Prop where
  /-- All that is asked for must be granted. -/
  ok_iff : (∃ index, result = .ok index) ↔ (∃ slot ∈ dpb.slots, slot.isFree = true) ∧
    store.Supplies ∧ store.Attaches new.sideData.length
  error : ∀ fault, result = .error fault →
    (fault = .outOfSlots dpb.layer ∨ fault = .outOfMemory) ∧ dpb' = dpb ∧ store.Undone store'
  full_iff : result = .error (.outOfSlots dpb.layer) ↔ ∀ slot ∈ dpb.slots, slot.isFree = false
  /-- The provider is not asked for anything if there is no free slot. -/
  full : result = .error (.outOfSlots dpb.layer) → store' = store
  entered : ∀ index, result = .ok index → dpb.LowestFree index ∧ dpb'.layer = dpb.layer ∧
    (∀ i, i ≠ index → dpb'.slot? i = dpb.slot? i) ∧
    ∃ id frame, store.Gained id frame store' ∧
      frame.layout.format = sps.format ∧ frame.layout.width = sps.width ∧
      frame.layout.height = sps.height ∧
      frame.sideData = new.sideData ∧ frame.progress = progress ∧
      dpb'.slot? index = some
        { poc := new.poc
          flags := new.flags
          frame := some id
          picStruct := new.picStruct
          props := new.props
          base := new.base
          pps := new.pps
          table := List.replicate (max 1 new.numSlices) {}
          blockLists := List.replicate sps.ctbCount 0
          current := 0 }

/-- The attempt fails for want of a slot. -/
theorem entry_full (progress : Progress) (hfree : ∀ slot ∈ dpb.slots, slot.isFree = false) :
    dpb.Entry store sps new progress (.error (.outOfSlots dpb.layer)) dpb store where
  ok_iff := by
    refine iff_of_false (by simp) ?_
    rintro ⟨⟨slot, hslot, hf⟩, -⟩
    rw [hfree slot hslot] at hf
    cases hf
  error := by
    rintro fault ⟨⟩
    exact ⟨.inl rfl, rfl, rfl, rfl, fun _ => rfl⟩
  full_iff := iff_of_true rfl hfree
  full _ := rfl
  entered := by
    rintro index ⟨⟩

/-- The attempt fails because the provider does not grant all that is asked for. -/
theorem entry_refused {store' : Store} (progress : Progress)
    (hfree : ∃ slot ∈ dpb.slots, slot.isFree = true)
    (hrefused : ¬(store.Supplies ∧ store.Attaches new.sideData.length))
    (hundone : store.Undone store') :
    dpb.Entry store sps new progress (.error .outOfMemory) dpb store' where
  ok_iff := iff_of_false (by simp) fun h => hrefused h.2
  error := by
    rintro fault ⟨⟩
    exact ⟨.inr rfl, rfl, hundone⟩
  full_iff := by
    refine iff_of_false (by simp) fun h => ?_
    obtain ⟨slot, hslot, hf⟩ := hfree
    rw [h slot hslot] at hf
    cases hf
  full := by
    rintro ⟨⟩
  entered := by
    rintro index ⟨⟩

/-- **An insertion succeeds or fails as a whole.** -/
theorem entry_insert (dpb : Dpb) (store : Store) (sps : Sps) (new : NewPicture) :
    dpb.Entry store sps new .pending (dpb.insert store sps new).1 (dpb.insert store sps new).2.1
      (dpb.insert store sps new).2.2 := by
  unfold insert
  cases hfind : dpb.slots.findIdx? (·.isFree) with
  | none => exact entry_full .pending (List.findIdx?_eq_none_iff.mp hfind)
  | some index =>
    obtain ⟨hlt, hf, hbelow⟩ := List.findIdx?_eq_some_iff_getElem.mp hfind
    have hfree : ∃ slot ∈ dpb.slots, slot.isFree = true := ⟨_, List.getElem_mem hlt, hf⟩
    dsimp only
    obtain ⟨hnone, store₁, ha, hundone⟩ | ⟨hsupplies, id, store₁, planes, ha, hgained, hcount⟩ :=
      store.acquire_cases sps.format sps.width sps.height
    · rw [ha]
      exact entry_refused .pending hfree (fun h => hnone h.1) hundone
    · rw [ha]
      dsimp only
      have hattaches : store₁.Attaches new.sideData.length ↔
          store.Attaches new.sideData.length := by
        rw [Store.Attaches, Store.Attaches, hcount, hgained.provider]
      obtain ⟨hiff, attached, hgained₂, hall⟩ := hgained.attachAll new.sideData
      rcases hs : store₁.attachAll id new.sideData with ⟨_ | _, store₂⟩
      · rw [hs] at hiff hgained₂
        refine entry_refused .pending hfree (fun h => ?_) hgained₂.release
        cases hiff.mpr (hattaches.mpr h.2)
      · rw [hs] at hiff hgained₂ hall
        have hgranted := hattaches.mp (hiff.mp rfl)
        refine ⟨iff_of_true ⟨index, rfl⟩ ⟨hfree, hsupplies, hgranted⟩, by rintro fault ⟨⟩,
          iff_of_false (by simp) fun h => ?_, by rintro ⟨⟩, ?_⟩
        · rw [h _ (List.getElem_mem hlt)] at hf
          cases hf
        · rintro entered ⟨⟩
          refine ⟨⟨⟨_, List.getElem?_eq_getElem hlt, hf⟩, fun i hi slot hslot => ?_⟩, rfl,
            fun i hi => ?_, id, _, hgained₂, rfl, rfl, rfl, hall rfl, rfl, ?_⟩
          · obtain ⟨hlt', rfl⟩ := List.getElem?_eq_some_iff.mp hslot
            exact Bool.eq_false_iff.mpr (hbelow i hi)
          · rw [slot?_set hlt, if_neg hi]
          · rw [slot?_set hlt, if_pos rfl]
            rfl

/-- The same picture may be entered and its frame changed at once. -/
theorem Entry.update {progress : Progress} {index : Nat} {dpb' : Dpb} {store' : Store}
    {id : FrameId} (h : dpb.Entry store sps new .pending (.ok index) dpb' store')
    (hid : (dpb'.slot? index).bind (·.frame) = some id) {f : Frame → Frame}
    (hf : ∀ frame, (f frame).layout = frame.layout ∧ (f frame).sideData = frame.sideData ∧
      (frame.progress = .pending → (f frame).progress = progress)) :
    dpb.Entry store sps new progress (.ok index) dpb' (store'.update id f) where
  ok_iff := h.ok_iff
  error := by
    rintro fault ⟨⟩
  full_iff := h.full_iff
  full := by
    rintro ⟨⟩
  entered := by
    rintro entered ⟨⟩
    obtain ⟨hlowest, hlayer, hothers, x, frame, hgained, hformat, hwidth, hheight, hside, hp,
      hslot⟩ := h.entered index rfl
    rw [hslot] at hid
    obtain rfl : x = id := Option.some.inj hid
    obtain ⟨hl, hs, hprogress⟩ := hf frame
    refine ⟨hlowest, hlayer, hothers, x, f frame, hgained.update f, ?_, ?_, ?_, ?_,
      hprogress hp, hslot⟩
    · rw [hl, hformat]
    · rw [hl, hwidth]
    · rw [hl, hheight]
    · rw [hs, hside]

/-- **A stand-in is made as a whole or not at all.** -/
theorem entry_insertStandIn (dpb : Dpb) (store : Store) (sps : Sps) (new : NewPicture)
    (fill : Bool) :
    dpb.Entry store sps { new with flags := .standIn, picStruct := .frame } .produced
      (dpb.insertStandIn store sps new fill).1 (dpb.insertStandIn store sps new fill).2.1
      (dpb.insertStandIn store sps new fill).2.2 := by
  have h := dpb.entry_insert store sps { new with flags := .standIn, picStruct := .frame }
  unfold insertStandIn
  rcases hi : dpb.insert store sps { new with flags := .standIn, picStruct := .frame } with
    ⟨fault | index, dpb', store'⟩
  · rw [hi] at h
    exact ⟨h.ok_iff, h.error, h.full_iff, h.full, by rintro index ⟨⟩⟩
  · rw [hi] at h
    obtain ⟨-, -, -, id, frame, -, -, -, -, -, -, hslot⟩ := h.entered index rfl
    have hid : (dpb'.slot? index).bind (·.frame) = some id := by
      rw [hslot]
      rfl
    let paint (frame : Frame) := (if fill then frame.fillNeutral sps.bitDepth else frame).produce
    have hpaint : ∀ frame, (paint frame).layout = frame.layout ∧
        (paint frame).sideData = frame.sideData ∧
        (frame.progress = .pending → (paint frame).progress = .produced) := by
      intro frame
      have hproduced : ∀ painted : Frame, painted.progress = frame.progress →
          frame.progress = .pending → painted.produce.progress = .produced := by
        intro painted hkept hp
        rw [Frame.produce, hkept, hp]
        rfl
      cases fill with
      | false => exact ⟨rfl, rfl, hproduced frame rfl⟩
      | true => exact ⟨rfl, rfl, hproduced (frame.fillNeutral sps.bitDepth) rfl⟩
    dsimp only
    rw [hid]
    exact h.update hid hpaint

/-- **A picture enters the buffer as a whole or not at all**, and so does a stand-in, whatever the
buffer holds and whatever the provider grants or refuses. Its slot has an index for each of the
blocks that cover the picture, if a word of 64 bits can be shifted by the logarithm of their
size. -/
theorem enters_whole (dpb : Dpb) (store : Store) (sps : Sps) (new : NewPicture) (fill : Bool) :
    dpb.Entry store sps new .pending (dpb.insert store sps new).1 (dpb.insert store sps new).2.1
        (dpb.insert store sps new).2.2 ∧
      dpb.Entry store sps { new with flags := { placeholder := true }, picStruct := .frame }
        .produced (dpb.insertStandIn store sps new fill).1
        (dpb.insertStandIn store sps new fill).2.1 (dpb.insertStandIn store sps new fill).2.2 ∧
      (sps.log2Ctb < 64 → sps.ctbCount =
        (sps.width + 2 ^ sps.log2Ctb - 1) / 2 ^ sps.log2Ctb *
          ((sps.height + 2 ^ sps.log2Ctb - 1) / 2 ^ sps.log2Ctb)) :=
  ⟨dpb.entry_insert store sps new, dpb.entry_insertStandIn store sps new fill, Sps.ctbCount_of_lt⟩

/-- A buffer whose upper slot is free. -/
def upperFree : Dpb where
  layer := 0
  slots := [{ flags := { output := true }, frame := some 0 }, {}]

/-- The frame of the picture in the lower slot is in use. -/
def lowerHeld : Store where
  cells := #[some ⟨.blank (.unpadded .i420 40 32), true, 1⟩]
  outstanding := 1

/-- The first picture of another view. -/
def viewStart : NewPicture where
  poc := 1
  flags := { output := true }
  sideData := [.view 3, .stereo .left]

/-- A picture with two rows of three blocks enters the upper slot, and its side data the frame. -/
theorem viewStart_entered : ∃ id frame slot,
    (upperFree.insert lowerHeld { width := 40, height := 32 } viewStart).1 = .ok 1 ∧
    (upperFree.insert lowerHeld { width := 40, height := 32 } viewStart).2.1.slot? 1 = some slot ∧
    slot.poc = 1 ∧ slot.frame = some id ∧ slot.blockLists = List.replicate 6 0 ∧
    lowerHeld.Gained id frame
      (upperFree.insert lowerHeld { width := 40, height := 32 } viewStart).2.2 ∧
    frame.sideData = [.view 3, .stereo .left] := by
  obtain ⟨hentry, -, hcount⟩ :=
    enters_whole upperFree lowerHeld { width := 40, height := 32 } viewStart false
  have hok : (upperFree.insert lowerHeld { width := 40, height := 32 } viewStart).1 = .ok 1 := rfl
  obtain ⟨-, -, -, id, frame, hgained, -, -, -, hside, -, hslot⟩ := hentry.entered 1 hok
  refine ⟨id, frame, _, hok, hslot, rfl, rfl, ?_, hgained, hside⟩
  exact congrArg (List.replicate · 0) (hcount (by decide))

end Dpb

end PictureBuffer
