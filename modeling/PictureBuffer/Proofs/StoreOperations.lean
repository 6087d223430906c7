import PictureBuffer.Proofs.PlaneSizes
import PictureBuffer.Proofs.Sending
import PictureBuffer.Proofs.Untouched

/-!
# Whatever is done to a store is done by its operations

`Store.Leads` says that one store comes of another by the operations of a store alone: handles that
are taken and given back, frames that change in place with their planes kept at their sizes
(`Frame.Sized`), and requests to the provider. It holds of the
store before and after every function of the model, with one lemma for each; the last ones are about
a command (`leads_run`) and an event (`leads_step`).

A property of stores that each operation keeps is therefore kept by every event, and need not look
at who carries out which operation and why.
-/

namespace PictureBuffer

namespace Store

variable {a b c store : Store} {id : FrameId}

/-- **`b` comes of `a`** by operations of the store alone. -/
inductive Leads (a : Store) : Store → Prop
  | refl : Leads a a
  | retain {b : Store} (h : Leads a b) (id : FrameId) : Leads a (b.retain id)
  | release {b : Store} (h : Leads a b) (id : FrameId) : Leads a (b.release id)
  | update {b : Store} (h : Leads a b) (id : FrameId) (f : Frame → Frame)
      (hf : ∀ frame, frame.Sized → (f frame).Sized) : Leads a (b.update id f)
  | acquire {b : Store} (h : Leads a b) (format : Format) (width height : Nat) :
      Leads a (b.acquire format width height).2
  | attach {b : Store} (h : Leads a b) (id : FrameId) (data : SideData) :
      Leads a (b.attach id data).2

theorem Leads.trans (h : Leads a b) (h' : Leads b c) : Leads a c := by
  induction h' with
  | refl => exact h
  | retain _ id ih => exact ih.retain id
  | release _ id ih => exact ih.release id
  | update _ id f hf ih => exact ih.update id f hf
  | acquire _ format width height ih => exact ih.acquire format width height
  | attach _ id data ih => exact ih.attach id data

theorem Leads.retainAll (ids : List FrameId) :
    ∀ {b : Store}, Leads a b → Leads a (b.retainAll ids) := by
  induction ids with
  | nil => exact fun h => h
  | cons id ids ih => exact fun h => ih (h.retain id)

theorem Leads.releaseAll (ids : List FrameId) : ∀ {b : Store}, Leads a b →
    Leads a (b.releaseAll ids) := by
  induction ids with
  | nil => exact fun h => h
  | cons id ids ih => exact fun h => ih (h.release id)

theorem Leads.attachAll (id : FrameId) (sideData : List SideData) : ∀ {b : Store}, Leads a b →
    Leads a (b.attachAll id sideData).2 := by
  induction sideData with
  | nil => exact fun h => h
  | cons data rest ih =>
    intro b h
    have hd := h.attach id data
    unfold Store.attachAll
    rcases he : b.attach id data with ⟨_ | _, b'⟩
    · rw [he] at hd
      exact hd
    · rw [he] at hd
      exact ih hd

end Store

/-! ## Every change to a store comes of its operations -/

namespace Shared

theorem leads_dropStash (sh : Shared) : sh.store.Leads sh.dropStash.store := by
  unfold dropStash
  split
  · exact .refl
  · exact .release .refl _

theorem leads_putStash (sh : Shared) (field : Field) : sh.store.Leads (sh.putStash field).store :=
  (leads_dropStash sh).retain field.frame

theorem leads_weavingFrame (sh : Shared) (layout : Layout) :
    sh.store.Leads (sh.weavingFrame layout).2.store := by
  unfold weavingFrame
  dsimp only
  split
  · exact .acquire .refl _ _ _
  · split
    · exact .refl
    · exact .release (.acquire .refl _ _ _) _

theorem leads_weave (sh : Shared) (top bottom : FrameId) :
    sh.store.Leads (sh.weave top bottom).2.store := by
  have hl := leads_weavingFrame sh (sh.store.frame top).wovenLayout
  obtain ⟨sh', hw, he⟩ | ⟨woven, sh', hw, he⟩ := weave_cases sh top bottom
  · rw [hw] at hl
    rw [he]
    exact hl
  · rw [hw] at hl
    rw [he]
    exact (hl.update woven _ fun _ hs => hs.weave _ _).retain woven

theorem leads_complete (sh : Shared) (layer : Nat) (first second : Field) :
    sh.store.Leads (sh.complete layer first second).2.store := by
  have hl := leads_weave sh (evenLines first second).frame (oddLines first second).frame
  obtain ⟨sh', hw, he⟩ | ⟨woven, sh', hw, he⟩ := complete_cases sh layer first second
  · rw [hw] at hl
    rw [he]
    exact hl.release first.frame
  · rw [hw] at hl
    rw [he]
    exact hl.release first.frame

theorem leads_pair (sh : Shared) (victim : Victim) : sh.store.Leads (sh.pair victim).2.store := by
  obtain ⟨-, he⟩ | ⟨-, -, he⟩ | ⟨first, -, -, -, he⟩ | ⟨first, -, -, -, he⟩ :=
    pair_cases sh victim
  · rw [he]
    exact leads_putStash sh _
  · rw [he]
    exact .refl
  · rw [he]
    exact leads_complete sh.takeStash _ _ _
  · rw [he]
    exact leads_dropStash sh

theorem leads_send (sh : Shared) (picture : Picture) :
    sh.store.Leads (sh.send picture).2.store := by
  obtain ⟨-, he⟩ | ⟨-, he⟩ := send_cases sh picture
  · rw [he]
    exact .refl
  · rw [he]
    exact .release .refl _

theorem leads_emit (sh : Shared) (victim : Victim) (dts : Option Int) :
    sh.store.Leads (sh.emit victim dts).2.store := by
  have hl := leads_pair (sh.pop victim.poc) victim
  obtain ⟨-, he⟩ | ⟨picture, sh', -, hpair, he⟩ | ⟨result, sh', -, hpair, -, he⟩ :=
    emit_cases sh victim dts
  · rw [he]
    have hs := leads_send { (sh.pop victim.poc).dropStash with
      store := (sh.pop victim.poc).dropStash.store.retain victim.frame } (victim.picture dts)
    exact ((leads_dropStash (sh.pop victim.poc)).retain victim.frame).trans hs
  · rw [hpair] at hl
    rw [he]
    exact hl.trans (leads_send _ _)
  · rw [hpair] at hl
    rw [he]
    exact hl

theorem leads_close (sh : Shared) : sh.store.Leads sh.close.store :=
  ((Store.Leads.refl.releaseAll _).releaseAll _).releaseAll _

end Shared

namespace Dpb

theorem leads_insert (dpb : Dpb) (store : Store) (sps : Sps) (new : NewPicture) :
    store.Leads (dpb.insert store sps new).2.2 := by
  unfold insert
  split
  · exact .refl
  · have acquired : store.Leads (store.acquire sps.format sps.width sps.height).2 :=
      .acquire .refl _ _ _
    rcases ha : store.acquire sps.format sps.width sps.height with ⟨_ | frame, store₁⟩
    · rw [ha] at acquired
      exact acquired
    · rw [ha] at acquired
      have attached := acquired.attachAll frame new.sideData
      dsimp only at attached ⊢
      rcases hs : store₁.attachAll frame new.sideData with ⟨_ | _, store₂⟩
      · rw [hs] at attached
        exact attached.release frame
      · rw [hs] at attached
        exact attached

theorem leads_insertStandIn (dpb : Dpb) (store : Store) (sps : Sps) (new : NewPicture)
    (fill : Bool) : store.Leads (dpb.insertStandIn store sps new fill).2.2 := by
  have inserted := leads_insert dpb store sps { new with flags := .standIn, picStruct := .frame }
  unfold insertStandIn
  rcases he : dpb.insert store sps { new with flags := .standIn, picStruct := .frame } with
    ⟨_ | index, dpb', store'⟩
  · rw [he] at inserted
    exact inserted
  · rw [he] at inserted
    dsimp only at inserted ⊢
    split
    · exact inserted
    · dsimp only
      refine inserted.update _ _ fun frame hs => ?_
      split
      · exact (hs.fillNeutral _).produce
      · exact hs.produce

end Dpb

namespace Decoder

variable {d d' : Decoder} {pass : OutputPass}

theorem leads_onDpb {f : Dpb → Store → Dpb × Store}
    (hf : ∀ dpb store, Store.Leads store (f dpb store).2) (d : Decoder) (n : Nat) :
    d.store.Leads (d.onDpb n f).store := by
  unfold onDpb
  split
  · exact .refl
  · exact hf _ _

theorem leads_stripWhere (d : Decoder) (n : Nat) (p : Slot → Bool) (mask : Flags) :
    d.store.Leads (d.onDpb n fun dpb store => dpb.stripWhere store p mask).store :=
  leads_onDpb (fun _ _ => .releaseAll _ .refl) d n

theorem leads_stripOutput (d : Decoder) (ref : SlotRef) :
    d.store.Leads (d.stripOutput ref).store :=
  leads_onDpb (fun _ _ => .releaseAll _ .refl) d ref.layer

theorem leads_updateFrame (d : Decoder) (ref : SlotRef) {f : Frame → Frame}
    (hf : ∀ frame, frame.Sized → (f frame).Sized) :
    d.store.Leads (d.updateFrame ref f).store := by
  unfold updateFrame
  split
  · exact .refl
  · exact .update .refl _ _ hf

theorem leads_finishPicture (d : Decoder) : d.store.Leads d.finishPicture.store := by
  unfold finishPicture
  dsimp only
  split
  · exact d.leads_updateFrame _ fun _ hs => hs.produce
  · exact .refl

theorem leads_abandonPicture (d : Decoder) : d.store.Leads d.abandonPicture.store := by
  unfold abandonPicture
  dsimp only
  split
  · exact d.leads_updateFrame _ fun _ hs => hs.cancel
  · exact .refl

theorem leads_startPicture (d : Decoder) (layer : Nat) (info : PictureInfo) :
    d.store.Leads (d.startPicture layer info).2.store := by
  unfold startPicture
  split
  · exact .refl
  · rename_i l sps _
    split
    · exact .refl
    · have inserted := l.dpb.leads_insert (d.turnTo info).store sps
        ((d.turnTo info).newPicture layer sps info)
      dsimp only
      rcases he : l.dpb.insert (d.turnTo info).store sps
        ((d.turnTo info).newPicture layer sps info) with ⟨_ | index, dpb, store⟩
      · rw [he] at inserted
        exact inserted
      · rw [he] at inserted
        exact inserted

theorem leads_clear (d : Decoder) : d.store.Leads d.clear.store := by
  unfold clear
  dsimp only
  rw [shared_modifyLayer, shared_modifyLayer]
  exact (d.leads_abandonPicture.trans (leads_stripWhere _ 0 (fun _ => true) .all)).trans
    (leads_stripWhere _ 1 (fun _ => true) .all)

/-! ### Reference picture sets -/

theorem shared_modifyDpb (d : Decoder) (n : Nat) (f : Dpb → Dpb) :
    (d.modifyDpb n f).toShared = d.toShared :=
  shared_modifyLayer d n _

theorem leads_locate (d : Decoder) (layer : Nat) (l : Layer) (sps : Sps) (found : Option Nat)
    (poc : Int) : d.store.Leads (d.locate layer l sps found poc).2.store := by
  cases found with
  | some index => exact .refl
  | none => exact l.dpb.leads_insertStandIn d.store sps _ _

theorem leads_addCandidate (d : Decoder) (layer : Nat) (c : Candidate) :
    d.store.Leads (d.addCandidate layer c).2.store := by
  unfold addCandidate
  split
  · exact .refl
  · rename_i l sps _
    dsimp only
    generalize l.dpb.find? _ c.poc = found
    split
    · exact .refl
    · have located := d.leads_locate layer l sps found c.poc
      rcases he : d.locate layer l sps found c.poc with ⟨_ | index, d'⟩
      · rw [he] at located
        exact located
      · rw [he] at located
        dsimp only
        rw [shared_modifyDpb]
        exact located

theorem leads_addCandidates (layer : Nat) (candidates : List Candidate) : ∀ d : Decoder,
    d.store.Leads (d.addCandidates layer candidates).2.store := by
  induction candidates with
  | nil => exact fun _ => .refl
  | cons c rest ih =>
    intro d
    have hc := d.leads_addCandidate layer c
    unfold addCandidates
    rcases he : d.addCandidate layer c with ⟨_ | _, d'⟩
    · rw [he] at hc
      exact hc
    · rw [he] at hc
      exact hc.trans (ih d')

theorem leads_addInterLayer (d : Decoder) (layer : Nat) :
    d.store.Leads (d.addInterLayer layer).2.store := by
  unfold addInterLayer
  split
  · exact .refl
  · split
    · exact .refl
    · exact d.leads_addCandidate 0 _

theorem leads_addHeader (d : Decoder) (layer : Nat) (hdr : SliceHeader) :
    d.store.Leads (d.addHeader layer hdr).2.store := by
  have hc := leads_addCandidates layer (hdr.candidates d.poc) d
  unfold addHeader
  rcases he : d.addCandidates layer (hdr.candidates d.poc) with ⟨_ | _, d'⟩
  · rw [he] at hc
    exact hc
  · rw [he] at hc
    dsimp only
    split
    · exact hc.trans (d'.leads_addInterLayer layer)
    · exact hc

theorem leads_clearSets (d : Decoder) (layer : Nat) :
    d.store.Leads (d.clearSets layer).store := by
  unfold clearSets
  dsimp only
  rw [shared_modifyDpb]
  exact d.leads_stripWhere layer (·.flags.placeholder) .all

theorem leads_deriveSets (d : Decoder) (layer : Nat) (hdr : SliceHeader) :
    d.store.Leads (d.deriveSets layer hdr).2.store := by
  unfold deriveSets
  split
  · exact .refl
  · have h := (d.leads_clearSets layer).trans ((d.clearSets layer).leads_addHeader layer hdr)
    exact h.trans (leads_stripWhere _ layer (fun _ => true) .empty)

/-! ### Output -/

theorem leads_bump (d : Decoder) (pass : OutputPass) (ref : SlotRef) (slot : Slot) :
    d.store.Leads (d.bump pass ref slot).2.store :=
  bump_preserves (P := fun d' => d.store.Leads d'.store) .refl (fun _ => .refl)
    (fun _ _ => Shared.leads_emit d.toShared _ _) (fun d' h => h.trans (d'.leads_stripOutput ref))
    pass

theorem leads_output (d : Decoder) (pass : OutputPass) :
    d.store.Leads (d.output pass).2.store :=
  (@output_preserves d pass (fun d' => d.store.Leads d'.store)
    (fun h _ => h.trans (leads_bump _ pass _ _)) .refl).1

theorem leads_dropCurrent (d : Decoder) : d.store.Leads d.dropCurrent.store := by
  unfold dropCurrent
  dsimp only
  split
  · exact (d.leads_stripOutput _).trans (leads_abandonPicture _)
  · exact d.leads_abandonPicture

theorem leads_flush (d : Decoder) : d.store.Leads d.flush.2.store := by
  have ho := d.leads_dropCurrent.trans (d.dropCurrent.leads_output d.flushPass)
  obtain ⟨frame, -, he⟩ | ⟨-, he⟩ := d.flush_cases
  · rw [he]
    exact ho
  · rw [he]
    exact (ho.trans (leads_clear _)).trans (Shared.leads_dropStash _)

/-- **Whatever a decoder does to the store, it does by the operations of the store.** -/
theorem leads_run (d : Decoder) (command : Command) : d.store.Leads (d.run command).2.store := by
  cases command with
  | setVps | setSei | setDts | setDuration => exact .refl
  | setSps n sps =>
    dsimp only [run, setSps]
    split
    · exact .refl
    · rw [shared_modifyLayer]
      exact .refl
  | startPicture layer info => exact d.leads_startPicture layer info
  | finishPicture => exact d.leads_finishPicture
  | unmarkAll n =>
    dsimp only [run, unmarkAll]
    split
    · exact .refl
    · exact d.leads_stripWhere n (fun _ => true) .references
  | deriveSets layer hdr => exact d.leads_deriveSets layer hdr
  | startSlice hdr slice =>
    obtain ⟨layers, he⟩ := d.startSlice_eq hdr slice
    dsimp only [run]
    rw [he]
    exact .refl
  | buildLists hdr slice =>
    obtain ⟨layers, collocated, he⟩ := d.buildLists_eq hdr slice
    dsimp only [run]
    rw [he]
    exact .refl
  | output pass => exact d.leads_output pass
  | flush => exact d.leads_flush
  | clear => exact d.leads_clear
  | dropStash => exact Shared.leads_dropStash d.toShared

end Decoder

namespace Session

variable {s : Session} {i : Nat} {d : Decoder}

/-- A worker leaves the planes at their sizes. -/
theorem sized_apply (work : Work) {frame : Frame} (h : frame.Sized) : (work.apply frame).Sized := by
  cases work with
  | render sample => exact h.render sample
  | produce => exact h.produce
  | cancel => exact h.cancel

/-- **Whatever happens to the store of a session comes of the operations of the store.** -/
theorem leads_step (s : Session) (e : Event) :
    s.shared.store.Leads (s.step e).2.shared.store := by
  cases e with
  | run i command =>
    dsimp only [step]
    cases hd : s.decoder? i with
    | none => exact .refl
    | some d =>
      have hl := d.leads_run command
      rw [(decoder?_eq hd).2] at hl
      exact hl
  | fork i =>
    dsimp only [step]
    split
    · exact .refl
    · exact .retainAll _ .refl
  | close i =>
    dsimp only [step]
    split
    · exact .refl
    · rename_i context _
      let shared : Shared :=
        { s.shared with store := s.shared.store.releaseAll context.layers.frames }
      have released : s.shared.store.Leads shared.store := .releaseAll _ .refl
      dsimp only [close]
      split
      · exact released.trans shared.leads_close
      · exact released
  | work i slot work =>
    dsimp only [step]
    split
    · exact .refl
    · exact .update .refl _ _ fun _ hs => sized_apply work hs
  | take i all keep =>
    dsimp only [step]
    split
    · exact .refl
    · obtain ⟨queue, hq⟩ := s.dequeue_eq all
      dsimp only
      rw [hq]
      split
      · exact .refl
      · exact .releaseAll _ .refl
  | letGo i =>
    dsimp only [step]
    split
    · exact .refl
    · exact .release .refl _

end Session

end PictureBuffer
