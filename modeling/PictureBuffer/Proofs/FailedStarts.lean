import Mathlib.Data.List.Forall2
import PictureBuffer.Proofs.Custody
import PictureBuffer.Proofs.Partners
import PictureBuffer.Proofs.RenamedDecoders

/-!
# Pictures that could not be started

A picture that finds no slot, no frame, or whose side data cannot be attached, is not started. What
the attempt leaves behind is told by comparing two sessions, one with the attempt and one without,
through all that may happen later (`Session.Alike`).

* `Session.Renamed.step`: sessions that differ in the names of frames answer every event alike.
* `Session.alike_failed_start`: **the attempt leaves behind that the decoder has turned to the
  picture, and nothing else**: the order count, the parameters and the number of slices are those
  of the picture that was not started. Nobody can tell the attempt from no attempt exactly if they
  were the same before.
-/

namespace PictureBuffer

variable {ρ : FrameId → FrameId}

/-! ## Sessions under other names -/

/-- The output process ends. -/
theorem Shared.Renamed.close {sh sh' : Shared} (h : sh.Renamed ρ sh') :
    sh.close.Renamed ρ sh'.close := by
  obtain ⟨h⟩ := h
  rename_i store'
  have hqueue : (sh.recast ρ store').queue.pictures.map (·.frame) =
      (sh.queue.pictures.map (·.frame)).map ρ := by
    refine List.map_map.trans (Eq.trans ?_ List.map_map.symm)
    rfl
  have hstash : ((sh.recast ρ store').scheduler.stash.map (·.frame)).toList =
      (sh.scheduler.stash.map (·.frame)).toList.map ρ := by
    rw [Renamed.stash_recast]
    cases sh.scheduler.stash <;> rfl
  have hscratch : (sh.recast ρ store').scheduler.scratch.toList =
      sh.scheduler.scratch.toList.map ρ := by
    refine Eq.trans ?_ Option.toList_map
    rfl
  have hreleased := ((h.releaseAll (sh.queue.pictures.map (·.frame))).releaseAll
    (sh.scheduler.stash.map (·.frame)).toList).releaseAll sh.scheduler.scratch.toList
  unfold Shared.close
  dsimp only
  rw [hqueue, hstash, hscratch]
  exact Renamed.withStore hreleased { sh.scheduler with stash := none, scratch := none }
    sh.queue.drain.2

namespace Session

/-- **A session under other names.** -/
structure Renamed (ρ : FrameId → FrameId) (s s' : Session) : Prop where
  shared : s.shared.Renamed ρ s'.shared
  contexts : List.Forall₂ (Option.Rel (Context.Renamed ρ)) s.contexts s'.contexts
  kept : s'.kept = s.kept.map (·.map (·.rename ρ))

section Lists

variable {α β : Type} {R : α → β → Prop} {l : List (Option α)} {l' : List (Option β)}

/-- Entries that are there or not, in the same places of related lists. -/
theorem rel_getElem?_join (h : List.Forall₂ (Option.Rel R) l l') :
    ∀ i : Nat, Option.Rel R l[i]?.join l'[i]?.join := by
  induction h with
  | nil => exact fun i => .none
  | cons hab _ ih =>
    intro i
    cases i with
    | zero => exact hab
    | succ i => exact ih i

theorem rel_set (h : List.Forall₂ (Option.Rel R) l l') {a : Option α} {b : Option β}
    (hab : Option.Rel R a b) : ∀ i, List.Forall₂ (Option.Rel R) (l.set i a) (l'.set i b) := by
  induction h with
  | nil => exact fun i => .nil
  | cons hfirst hrest ih =>
    intro i
    cases i with
    | zero => exact .cons hab hrest
    | succ i => exact .cons hfirst (ih i)

theorem countP_isSome_eq (h : List.Forall₂ (Option.Rel R) l l') :
    l'.countP (·.isSome) = l.countP (·.isSome) := by
  induction h with
  | nil => rfl
  | cons hab _ ih =>
    rw [List.countP_cons, List.countP_cons, ih]
    cases hab <;> rfl

end Lists

namespace Renamed

variable {s s' : Session}

theorem context? (h : s.Renamed ρ s') (i : Nat) :
    Option.Rel (Context.Renamed ρ) (s.context? i) (s'.context? i) :=
  rel_getElem?_join h.contexts i

theorem decoder? (h : s.Renamed ρ s') (i : Nat) :
    Option.Rel (Decoder.Renamed ρ) (s.decoder? i) (s'.decoder? i) := by
  have hc := h.context? i
  unfold Session.decoder?
  generalize s.context? i = c, s'.context? i = c' at hc
  cases hc with
  | none => exact .none
  | some hc => exact .some ⟨hc, h.shared⟩

theorem setDecoder (h : s.Renamed ρ s') (i : Nat) {d d' : Decoder} (hd : d.Renamed ρ d') :
    (s.setDecoder i d).Renamed ρ (s'.setDecoder i d') :=
  ⟨hd.shared, rel_set h.contexts (.some hd.context) i, h.kept⟩

theorem modifyStore (h : s.Renamed ρ s') {f f' : Store → Store}
    (hf : ∀ {store store'}, store.Renamed ρ store' → (f store).Renamed ρ (f' store')) :
    (s.modifyStore f).Renamed ρ (s'.modifyStore f') := by
  obtain ⟨shared, contexts, kept⟩ := s
  obtain ⟨shared', contexts', kept'⟩ := s'
  obtain ⟨⟨hs⟩, hc, hk⟩ := h
  exact ⟨Shared.Renamed.withStore (hf hs) shared.scheduler shared.queue, hc, hk⟩

theorem numDecoders (h : s.Renamed ρ s') : s'.numDecoders = s.numDecoders :=
  countP_isSome_eq h.contexts

theorem fork (h : s.Renamed ρ s') {c c' : Context} (hc : c.Renamed ρ c') :
    (s.fork c).Renamed ρ (s'.fork c') := by
  obtain ⟨nalu⟩ := hc
  have hframes : (c.rename ρ nalu).layers.frames = c.layers.frames.map ρ :=
    c.layers.frames_rename
  have hcontexts : Session.Renamed ρ { s with contexts := s.contexts ++ [some c.fork] }
      { s' with contexts := s'.contexts ++ [some (c.rename ρ nalu).fork] } :=
    ⟨h.shared, List.rel_append h.contexts (.cons (.some (.intro nalu)) .nil), h.kept⟩
  refine hcontexts.modifyStore fun hs => ?_
  rw [hframes]
  exact hs.retainAll _

theorem close (h : s.Renamed ρ s') (i : Nat) {c c' : Context} (hc : c.Renamed ρ c') :
    (s.close i c).Renamed ρ (s'.close i c') := by
  obtain ⟨nalu⟩ := hc
  have hframes : (c.rename ρ nalu).layers.frames = c.layers.frames.map ρ :=
    c.layers.frames_rename
  have hcontexts : Session.Renamed ρ { s with contexts := s.contexts.set i none }
      { s' with contexts := s'.contexts.set i none } :=
    ⟨h.shared, rel_set h.contexts .none i, h.kept⟩
  have hstore : Session.Renamed ρ
      ({ s with contexts := s.contexts.set i none }.modifyStore (·.releaseAll c.layers.frames))
      ({ s' with contexts := s'.contexts.set i none }.modifyStore
        (·.releaseAll (c.rename ρ nalu).layers.frames)) := by
    rw [hframes]
    exact hcontexts.modifyStore fun hs => hs.releaseAll _
  unfold Session.close
  dsimp only
  rw [hstore.numDecoders]
  split
  · exact ⟨hstore.shared.close, hstore.contexts, hstore.kept⟩
  · exact hstore

theorem dequeue (h : s.Renamed ρ s') (all : Bool) :
    Matches (List.map (·.rename ρ)) (Session.Renamed ρ) (s.dequeue all) (s'.dequeue all) := by
  obtain ⟨shared, contexts, kept⟩ := s
  obtain ⟨shared', contexts', kept'⟩ := s'
  obtain ⟨⟨hs⟩, hc, hk⟩ := h
  have withQueue : ∀ queue : Queue, Session.Renamed ρ ⟨{ shared with queue }, contexts, kept⟩
      ⟨⟨_, shared.scheduler.rename ρ, queue.rename ρ⟩, contexts', kept'⟩ := fun queue =>
    ⟨Shared.Renamed.withStore hs shared.scheduler queue, hc, hk⟩
  unfold Session.dequeue
  cases all with
  | true => exact ⟨shared.queue.pictures, _, _, rfl, rfl, withQueue shared.queue.drain.2⟩
  | false =>
    have hpop : (shared.queue.rename ρ).pop? =
        shared.queue.pop?.map fun p => (p.1.rename ρ, p.2.rename ρ) := by
      unfold Queue.pop?
      dsimp only [Queue.rename]
      cases shared.queue.pictures <;> rfl
    dsimp only [Shared.recast]
    rw [hpop]
    cases shared.queue.pop? with
    | none => exact ⟨[], _, _, rfl, rfl, withQueue shared.queue⟩
    | some p => exact ⟨[p.1], _, _, rfl, rfl, withQueue p.2⟩

theorem work (h : s.Renamed ρ s') (i : Nat) (slot : SlotRef) (work : Work) :
    Matches (·.rename ρ) (Session.Renamed ρ) (s.step (.work i slot work))
      (s'.step (.work i slot work)) := by
  have hframe : (s'.decoder? i).bind (·.frameAt? slot) =
      ((s.decoder? i).bind (·.frameAt? slot)).map ρ := by
    have hd := h.decoder? i
    generalize s.decoder? i = d, s'.decoder? i = d' at hd
    cases hd with
    | none => rfl
    | some hd => exact hd.frameAt? slot
  unfold Session.step
  dsimp only
  rw [hframe]
  cases (s.decoder? i).bind (·.frameAt? slot) with
  | none => exact .of_rel h
  | some frame => exact .of_rel (h.modifyStore fun hs => hs.update frame work.apply)

theorem take (h : s.Renamed ρ s') (i : Nat) (all keep : Bool) :
    Matches (·.rename ρ) (Session.Renamed ρ) (s.step (.take i all keep))
      (s'.step (.take i all keep)) := by
  have hc := h.context? i
  obtain ⟨taken, s₁, s₁', he, he', h₁⟩ := h.dequeue all
  unfold Session.step
  dsimp only
  rw [he, he']
  generalize s.context? i = c, s'.context? i = c' at hc
  cases hc with
  | none => exact .of_rel h
  | some _ =>
    refine ⟨.pictures taken, _, _, rfl, rfl, ?_⟩
    cases keep with
    | true =>
      refine ⟨h₁.shared, h₁.contexts, ?_⟩
      simp only [if_true, h₁.kept, List.map_append, List.map_map]
      rfl
    | false =>
      have hframes : (taken.map (·.rename ρ)).map (·.frame) = (taken.map (·.frame)).map ρ := by
        rw [List.map_map, List.map_map]
        rfl
      dsimp only
      rw [hframes]
      exact h₁.modifyStore fun hs => hs.releaseAll _

theorem letGo (h : s.Renamed ρ s') (i : Nat) :
    Matches (·.rename ρ) (Session.Renamed ρ) (s.step (.letGo i)) (s'.step (.letGo i)) := by
  have hkept : s'.kept[i]?.join = (s.kept[i]?.join).map (·.rename ρ) := by
    rw [h.kept, List.getElem?_map]
    cases s.kept[i]? <;> rfl
  unfold Session.step
  dsimp only
  rw [hkept]
  cases s.kept[i]?.join with
  | none => exact .of_rel h
  | some picture =>
    have hset : Session.Renamed ρ { s with kept := s.kept.set i none }
        { s' with kept := s'.kept.set i none } := by
      refine ⟨h.shared, h.contexts, ?_⟩
      rw [h.kept, List.map_set]
      rfl
    exact ⟨.pictures [picture], _, _, rfl, rfl,
      hset.modifyStore fun hs => hs.release picture.frame⟩

/-- **A session does the same under other names.** -/
theorem step (h : s.Renamed ρ s') (e : Event) :
    Matches (·.rename ρ) (Session.Renamed ρ) (s.step e) (s'.step e) := by
  cases e with
  | run i command =>
    have hd := h.decoder? i
    unfold Session.step
    dsimp only
    generalize s.decoder? i = d, s'.decoder? i = d' at hd
    cases hd with
    | none => exact .of_rel h
    | some hd =>
      obtain ⟨reply, d₁, d₁', he, he', h₁⟩ := hd.run command
      dsimp only
      rw [he, he']
      exact .of_rel (h.setDecoder i h₁)
  | fork i =>
    have hc := h.context? i
    have hlen : s'.contexts.length = s.contexts.length := h.contexts.length_eq.symm
    unfold Session.step
    dsimp only
    rw [hlen]
    generalize s.context? i = c, s'.context? i = c' at hc
    cases hc with
    | none => exact .of_rel h
    | some hc => exact .of_rel (h.fork hc)
  | close i =>
    have hc := h.context? i
    unfold Session.step
    dsimp only
    generalize s.context? i = c, s'.context? i = c' at hc
    cases hc with
    | none => exact .of_rel h
    | some hc => exact .of_rel (h.close i hc)
  | work i slot work => exact h.work i slot work
  | take i all keep => exact h.take i all keep
  | letGo i => exact h.letGo i

end Renamed

/-! ## Sessions that cannot be told apart -/

/-- What some events answer. -/
def answers (s : Session) : List Event → List Reply
  | [] => []
  | e :: events => (s.step e).1 :: (s.step e).2.answers events

/-- **Two sessions cannot be told apart**: whatever happens, they answer alike, and are left alike.
Frames that exist have the same names in both, but those to come may have others; and the decoders
may differ in the NAL unit type, which no answer depends on. -/
def Alike (s s' : Session) : Prop :=
  ∃ ρ : FrameId → FrameId, (∀ id < s.known, ρ id = id) ∧ ∀ events : List Event,
    s'.answers events = (s.answers events).map (·.rename ρ) ∧
      (s.afterAll events).Renamed ρ (s'.afterAll events)

theorem Renamed.all (events : List Event) : ∀ {s s' : Session}, s.Renamed ρ s' →
    s'.answers events = (s.answers events).map (·.rename ρ) ∧
      (s.afterAll events).Renamed ρ (s'.afterAll events) := by
  induction events with
  | nil => exact fun h => ⟨rfl, h⟩
  | cons e events ih =>
    intro s s' h
    obtain ⟨reply, s₁, s₁', he, he', h₁⟩ := h.step e
    obtain ⟨hanswers, hafter⟩ := ih h₁
    unfold answers afterAll
    rw [he, he', hanswers]
    exact ⟨rfl, hafter⟩

end Session

/-! ## A frame that was taken and given back -/

/-- Frame `n` is left out: the frames from there on have the next name each. -/
def skip (n id : Nat) : FrameId := if id < n then id else id + 1

theorem skip_injective (n : Nat) : Function.Injective (skip n) := by
  intro a b h
  have h : (if a < n then a else a + 1 : Nat) = if b < n then b else b + 1 := h
  split at h <;> split at h <;> omega

namespace Store

variable {store store' : Store} {pooled : Bool}

/-- The store, had its provider been asked as often as that of `store'`. -/
def asking (store store' : Store) : Store :=
  { store with acquisitions := store'.acquisitions, attachments := store'.attachments }

/-- A frame was taken from the provider, and has one handle. -/
structure Took (store store' : Store) (pooled : Bool) : Prop where
  provider : store'.provider = store.provider
  size : store'.cells.size = store.cells.size + 1
  outstanding : store'.outstanding = store.outstanding + pooled.toNat
  taken : ∃ frame, store'.cell? store.cells.size = some ⟨frame, pooled, 1⟩
  others : ∀ id, id ≠ store.cells.size → store'.cell? id = store.cell? id

theorem took_insert (store : Store) (frame : Frame) (pooled : Bool) :
    store.Took (store.insert frame pooled).2 pooled where
  provider := rfl
  size := Array.size_push _
  outstanding := rfl
  taken := ⟨frame, by rw [cell?_insert, if_pos rfl]⟩
  others := fun id hid => by rw [cell?_insert, if_neg hid]

/-- A request to the provider takes a frame, or nothing. -/
theorem took_acquire (store : Store) (format : Format) (width height : Nat) :
    store.acquire format width height =
        (none, { store with acquisitions := store.acquisitions + 1 }) ∨
      ∃ store' pooled, store.acquire format width height = (some store.cells.size, store') ∧
        store.Took store' pooled := by
  have given : ∀ frame pooled, store.Took
      (({ store with acquisitions := store.acquisitions + 1 } : Store).insert frame pooled).2
      pooled := fun frame pooled =>
    have h := took_insert { store with acquisitions := store.acquisitions + 1 } frame pooled
    ⟨h.provider, h.size, h.outstanding, h.taken, h.others⟩
  unfold acquire
  dsimp only
  split
  · exact Or.inl rfl
  · exact Or.inr ⟨_, _, rfl, given _ _⟩
  · split
    · exact Or.inr ⟨_, _, rfl, given _ _⟩
    · exact Or.inl rfl

theorem Took.attachAll (sideData : List SideData) : ∀ {store' : Store},
    store.Took store' pooled →
      store.Took (store'.attachAll store.cells.size sideData).2 pooled := by
  induction sideData with
  | nil => exact fun h => h
  | cons data rest ih =>
    intro store' h
    have hasked : store.Took { store' with attachments := store'.attachments + 1 } pooled :=
      ⟨h.provider, h.size, h.outstanding, h.taken, h.others⟩
    have hupdate : store.Took (({ store' with attachments := store'.attachments + 1 } :
        Store).update store.cells.size (·.addSideData data)) pooled := by
      obtain ⟨frame, hframe⟩ := hasked.taken
      refine ⟨h.provider, (size_update ..).trans h.size, h.outstanding, ?_, fun id hid => ?_⟩
      · rw [cell?_update, if_pos rfl, hframe]
        exact ⟨_, rfl⟩
      · rw [cell?_update, if_neg hid]
        exact h.others id hid
    unfold Store.attachAll attach
    dsimp only
    split
    · rename_i he
      split at he
      · cases he
        exact ih hupdate
      · cases he
    · rename_i he
      split at he
      · cases he
      · cases he
        exact hasked

/-- A frame that was given back leaves nothing behind but its name. -/
theorem Took.release (h : store.Took store' pooled) :
    (store.asking (store'.release store.cells.size)).Renamed (skip store.cells.size)
      (store'.release store.cells.size) := by
  obtain ⟨frame, hframe⟩ := h.taken
  have hrelease : store'.release store.cells.size = { store' with
      cells := store'.cells.setIfInBounds store.cells.size none
      outstanding := store'.outstanding - pooled.toNat } := by
    rw [Store.release, hframe]
    rfl
  have hcell : ∀ id : Nat, (store'.release store.cells.size).cell? (skip store.cells.size id) =
      store.cell? id := by
    intro id
    rw [cell?_release]
    unfold skip
    by_cases hlt : id < store.cells.size
    · rw [if_pos hlt, if_neg (Nat.ne_of_lt hlt)]
      exact h.others id (Nat.ne_of_lt hlt)
    · have hle : store.cells.size ≤ id := Nat.le_of_not_lt hlt
      have hne : id + 1 ≠ store.cells.size := by omega
      rw [if_neg hlt, if_neg hne, h.others _ hne, cell?_of_le (Nat.le_succ_of_le hle),
        cell?_of_le hle]
  have hsize : (store'.release store.cells.size).cells.size = store.cells.size + 1 :=
    (size_release ..).trans h.size
  have hout : (store'.release store.cells.size).outstanding = store.outstanding := by
    rw [hrelease]
    exact (congrArg (· - pooled.toNat) h.outstanding).trans (Nat.add_sub_cancel ..)
  refine ⟨skip_injective _, ?_, hout, rfl, rfl, hcell, fun k => ?_⟩
  · rw [hrelease]
    exact h.provider
  · have hge : ¬store.cells.size + k < store.cells.size := by omega
    rw [hsize]
    exact (if_neg hge).trans (Nat.add_right_comm store.cells.size k 1)

theorem Renamed.refl (store : Store) : store.Renamed id store where
  injective := Function.injective_id
  provider := rfl
  outstanding := rfl
  acquisitions := rfl
  attachments := rfl
  cell := fun _ => rfl
  fresh := fun _ => rfl

end Store

/-- **A picture that cannot enter the buffer changes nothing**: at most, the name of a frame was
used up, and the provider has been asked. -/
theorem Dpb.insert_error {dpb dpb' : Dpb} {store store' : Store} {sps : Sps} {new : NewPicture}
    {fault : Fault} (h : dpb.insert store sps new = (.error fault, dpb', store')) :
    dpb' = dpb ∧ fault.kind = .outOfResources ∧ ∃ ρ : FrameId → FrameId,
      (∀ id < store.cells.size, ρ id = id) ∧ (store.asking store').Renamed ρ store' := by
  unfold insert at h
  split at h
  · cases h
    exact ⟨rfl, rfl, id, fun _ _ => rfl, .refl store⟩
  · obtain he | ⟨taken, pooled, he, htook⟩ :=
      store.took_acquire sps.format sps.width sps.height
    · rw [he] at h
      cases h
      exact ⟨rfl, rfl, id, fun _ _ => rfl, .refl _⟩
    · have hattached := htook.attachAll new.sideData
      rw [he] at h
      dsimp only at h
      split at h
      · rename_i attached hs
        rw [hs] at hattached
        cases h
        exact ⟨rfl, rfl, skip store.cells.size, fun id hid => if_pos hid, hattached.release⟩
      · cases h

/-- **A picture that is not started** is refused, or else leaves the decoder turned to it. The
name of a frame may have been used up then. -/
theorem Decoder.startPicture_failed {d : Decoder} {layer : Nat} {info : PictureInfo}
    {fault : Fault} (hs : (d.startPicture layer info).1 = .error fault) :
    (fault.kind ≠ .outOfResources ∧ (d.startPicture layer info).2 = d) ∨
      fault.kind = .outOfResources ∧ ∃ (ρ : FrameId → FrameId) (store : Store),
        (∀ id < d.store.cells.size, ρ id = id) ∧ (d.store.asking store).Renamed ρ store ∧
        (d.startPicture layer info).2 = { d.turnTo info with store } := by
  unfold startPicture activeLayer layer? at hs ⊢
  cases hg : d.layers.get? layer with
  | none =>
    rw [hg] at hs
    cases hs
    exact Or.inl ⟨nofun, rfl⟩
  | some l =>
    rw [hg] at hs
    dsimp only at hs ⊢
    cases hsps : l.sps with
    | none =>
      rw [hsps] at hs
      cases hs
      exact Or.inl ⟨nofun, rfl⟩
    | some sps =>
      rw [hsps] at hs
      dsimp only at hs ⊢
      by_cases hholds : l.dpb.holds info.poc = true
      · rw [if_pos hholds] at hs ⊢
        cases hs
        exact Or.inl ⟨nofun, rfl⟩
      · rw [if_neg hholds] at hs ⊢
        rcases hi : l.dpb.insert (d.turnTo info).store sps
          ((d.turnTo info).newPicture layer sps info) with ⟨fault' | index, dpb, store⟩
        · rw [hi] at hs
          cases hs
          obtain ⟨rfl, hkind, ρ, hρ, hrenamed⟩ := Dpb.insert_error hi
          have hset : (d.turnTo info).layers.set layer l = d.layers := Layers.set_self hg
          refine Or.inr ⟨hkind, ρ, store, hρ, hrenamed, ?_⟩
          dsimp only
          rw [hset]
          rfl
        · rw [hi] at hs
          cases hs

/-- The picture that a decoder has turned to last is the same under other names. -/
theorem Context.Renamed.same {c c' : Context} (h : c.Renamed ρ c') :
    c.poc = c'.poc ∧ c.pps = c'.pps ∧ c.numSlices = c'.numSlices := by
  obtain ⟨nalu⟩ := h
  exact ⟨rfl, rfl, rfl⟩

/-- Nobody can tell whether a decoder has turned to the same picture again. -/
theorem Decoder.Renamed.turnTo_right {d d' : Decoder} {info : PictureInfo} (h : d.Renamed ρ d')
    (hpoc : d.poc = info.poc) (hpps : d.pps = some info.pps)
    (hnum : d.numSlices = info.numSlices) : d.Renamed ρ (d'.turnTo info) := by
  obtain ⟨nalu, shared, rfl, hs⟩ := h.eq
  have hcontext : (Decoder.turnTo { toContext := d.toContext.rename ρ nalu, toShared := shared }
      info).toContext = d.toContext.rename ρ info.nalu := by
    unfold Decoder.turnTo Context.rename
    rw [← hpoc, ← hpps, ← hnum]
  refine ⟨?_, hs⟩
  rw [hcontext]
  exact .intro info.nalu

/-! ## Frames that keep their names -/

theorem Picture.rename_eq {picture : Picture} (h : ρ picture.frame = picture.frame) :
    picture.rename ρ = picture := by
  unfold rename
  rw [h]

theorem Slot.rename_eq {slot : Slot} (h : ∀ frame, slot.frame = some frame → ρ frame = frame) :
    slot.rename ρ = slot := by
  have hframe : slot.frame.map ρ = slot.frame := by
    cases hf : slot.frame with
    | none => rfl
    | some frame => exact congrArg some (h frame hf)
  unfold rename
  rw [hframe]

theorem Dpb.rename_eq {dpb : Dpb} (h : ∀ frame ∈ dpb.frames, ρ frame = frame) :
    dpb.rename ρ = dpb := by
  have hslots : dpb.slots.map (·.rename ρ) = dpb.slots := by
    refine (List.map_congr_left fun slot hslot => ?_).trans (List.map_id _)
    exact Slot.rename_eq fun frame hf => h frame (List.mem_filterMap.mpr ⟨slot, hslot, hf⟩)
  unfold rename
  rw [hslots]

theorem Layers.rename_eq {layers : Layers} (h : ∀ frame ∈ layers.frames, ρ frame = frame) :
    layers.rename ρ = layers := by
  have hbase : layers.base.dpb.rename ρ = layers.base.dpb :=
    Dpb.rename_eq fun frame hf => h frame (List.mem_append_left _ hf)
  have henhancement : layers.enhancement.dpb.rename ρ = layers.enhancement.dpb :=
    Dpb.rename_eq fun frame hf => h frame (List.mem_append_right _ hf)
  unfold rename Layer.rename
  rw [hbase, henhancement]

/-- What the output process holds. -/
theorem Shared.renamed_of_fixed {sh : Shared} {store : Store}
    (h : ∀ frame ∈ sh.frames, ρ frame = frame) (hs : sh.store.Renamed ρ store) :
    sh.Renamed ρ { sh with store } := by
  have hpictures : sh.queue.pictures.map (·.rename ρ) = sh.queue.pictures := by
    refine (List.map_congr_left fun picture hp => ?_).trans (List.map_id _)
    refine Picture.rename_eq (h _ ?_)
    exact List.mem_append_left _ (List.mem_append_left _ (List.mem_map.mpr ⟨picture, hp, rfl⟩))
  have hstash : sh.scheduler.stash.map (·.rename ρ) = sh.scheduler.stash := by
    cases hf : sh.scheduler.stash with
    | none => rfl
    | some field =>
      have hframe : ρ field.frame = field.frame := h _ (by simp [frames, hf])
      rw [Option.map_some, Field.rename, hframe]
  have hscratch : sh.scheduler.scratch.map ρ = sh.scheduler.scratch := by
    cases hf : sh.scheduler.scratch with
    | none => rfl
    | some frame => exact congrArg some (h frame (by simp [frames, hf]))
  have hrenamed := Renamed.intro hs
  unfold recast Scheduler.rename Queue.rename at hrenamed
  rw [hpictures, hstash, hscratch] at hrenamed
  exact hrenamed

namespace Session

variable {s : Session} {i : Nat} {d : Decoder}

/-- Held frames that keep their names are the same under other names. -/
theorem renamed_of_fixed (ha : s.Accounted) (hρ : ∀ id < s.known, ρ id = id) {store : Store}
    (hs : s.shared.store.Renamed ρ store) : s.Renamed ρ (s.modifyStore fun _ => store) := by
  have fixed : ∀ frame ∈ s.shared.frames ++ (held (·.layers.frames) s.contexts ++
      held (fun picture => [picture.frame]) s.kept), ρ frame = frame := by
    intro frame hf
    refine hρ frame (Store.lt_size_of_handles_pos ?_)
    rw [ha frame]
    exact List.count_pos_iff.mpr hf
  have hshared : ∀ frame ∈ s.shared.frames, ρ frame = frame := fun frame hf =>
    fixed frame (List.mem_append_left _ hf)
  refine ⟨Shared.renamed_of_fixed hshared hs, List.forall₂_same.mpr fun context hc => ?_, ?_⟩
  · cases context with
    | none => exact .none
    | some context =>
      have hlayers : context.layers.rename ρ = context.layers := Layers.rename_eq fun frame hf =>
        fixed frame (List.mem_append_right _ (List.mem_append_left _
          (List.mem_flatMap.mpr ⟨some context, hc, hf⟩)))
      have hcontext : context.rename ρ context.nalu = context := by
        unfold Context.rename
        rw [hlayers]
      have hrenamed : context.Renamed ρ (context.rename ρ context.nalu) := .intro context.nalu
      rw [hcontext] at hrenamed
      exact .some hrenamed
  · refine ((List.map_congr_left fun picture hp => ?_).trans (List.map_id _)).symm
    cases picture with
    | none => rfl
    | some picture =>
      have hframe : ρ picture.frame = picture.frame :=
        fixed _ (List.mem_append_right _ (List.mem_append_right _
          (List.mem_flatMap.mpr ⟨some picture, hp, List.mem_singleton.mpr rfl⟩)))
      exact congrArg some (Picture.rename_eq hframe)

theorem decoder?_modifyStore (h : s.decoder? i = some d) (f : Store → Store) :
    (s.modifyStore f).decoder? i = some { d with store := f d.store } := by
  obtain ⟨hc, hshared⟩ := decoder?_eq h
  have hcontext : (s.modifyStore f).context? i = some d.toContext := hc
  unfold decoder?
  rw [hcontext]
  unfold modifyStore
  rw [← hshared]
  rfl

/-- The store goes on as if its provider had been asked, for all and for decoder `i`. -/
theorem renamed_asking (ha : s.Accounted) (hd : s.decoder? i = some d) {store : Store}
    (hρ : ∀ id < d.store.cells.size, ρ id = id) (hs : (d.store.asking store).Renamed ρ store) :
    (s.modifyStore (·.asking store)).Renamed ρ (s.modifyStore fun _ => store) ∧
      Decoder.Renamed ρ { d with store := d.store.asking store } { d with store } := by
  rw [(decoder?_eq hd).2] at hρ hs
  have hsession : (s.modifyStore (·.asking store)).Renamed ρ (s.modifyStore fun _ => store) :=
    renamed_of_fixed (s := s.modifyStore (·.asking store)) ha hρ hs
  have hdecoder := hsession.decoder? i
  rw [decoder?_modifyStore hd (·.asking store), decoder?_modifyStore hd fun _ => store] at hdecoder
  cases hdecoder with
  | some h => exact ⟨hsession, h⟩

/-- The session, had the provider been asked as often as in `s'`. -/
def asking (s s' : Session) : Session := s.modifyStore (·.asking s'.shared.store)

variable {config : Config} {provider : Provider} {log : List Moment}

/-- **What a picture that could not be started leaves behind.** If it was refused, nothing. If
there was no room for it, that the decoder has turned to it. The attempt cannot be told from none
exactly if a picture that there was no room for has the order count, the parameters and the number
of slices that the decoder had before. -/
theorem alike_failed_start (run : Run config provider log s) (hd : s.decoder? i = some d)
    {layer : Nat} {info : PictureInfo} {fault : Fault}
    (hs : (d.startPicture layer info).1 = .error fault) :
    let after := (s.step (.run i (.startPicture layer info))).2
    (fault.kind ≠ .outOfResources → after = s) ∧
      (fault.kind = .outOfResources →
        ((s.setDecoder i (d.turnTo info)).asking after).Alike after) ∧
      ((s.asking after).Alike after ↔ (fault.kind = .outOfResources →
        d.poc = info.poc ∧ d.pps = some info.pps ∧ d.numSlices = info.numSlices)) := by
  intro after
  have ha := accounted_run run
  obtain ⟨hcontext, hshared⟩ := decoder?_eq hd
  have hstep : after = s.setDecoder i (d.startPicture layer info).2 := by
    simp only [after, step, hd]
    rfl
  obtain ⟨hkind, he⟩ | ⟨hkind, ρ, store, hρ, hrenamed, he⟩ := Decoder.startPicture_failed hs
  · rw [he, setDecoder_self hd] at hstep
    refine ⟨fun _ => hstep, fun h => absurd h hkind, fun _ h => absurd h hkind, fun _ => ?_⟩
    rw [hstep]
    exact ⟨id, fun _ _ => rfl, fun events =>
      (renamed_of_fixed ha (fun _ _ => rfl) (.refl s.shared.store)).all events⟩
  · rw [he] at hstep
    clear_value after
    subst hstep
    have hfixed : ∀ id < s.known, ρ id = id := by
      rw [hshared] at hρ
      exact hρ
    obtain ⟨hsession, hdecoder⟩ := renamed_asking ha hd hρ hrenamed
    refine ⟨fun h => absurd hkind h, fun _ => ⟨ρ, hρ, fun events => ?_⟩,
      fun h _ => ?_, fun h => ⟨ρ, hfixed, fun events => ?_⟩⟩
    · exact (hsession.setDecoder i (hdecoder.turnTo info)).all events
    · obtain ⟨ρ', -, h⟩ := h
      have hrel := (h []).2.context? i
      have hbefore : (s.asking (s.setDecoder i { d.turnTo info with store })).context? i =
        some d.toContext := hcontext
      have hturned := context?_setDecoder hd { d.turnTo info with store } i
      rw [if_pos rfl] at hturned
      unfold afterAll at hrel
      rw [hbefore, hturned] at hrel
      cases hrel with
      | some hc => exact hc.same
    · obtain ⟨hpoc, hpps, hnum⟩ := h hkind
      have hturned := hsession.setDecoder i (hdecoder.turnTo_right hpoc hpps hnum)
      rw [setDecoder_self (decoder?_modifyStore hd (·.asking store))] at hturned
      exact hturned.all events

/-! ### A buffer that is full -/

/-- A buffer of one slot. -/
def oneSlot : Config := { dpbCapacity := 1 }

/-- A picture for output, of order count `poc`. -/
def pictureOf (poc : Int) : PictureInfo := { poc, output := true, numSlices := 1, pps := {} }

/-- A picture of order count `1` takes the only slot. -/
def fullBuffer : Session :=
  (start oneSlot {}).afterAll
    [.run 0 (.setSps 0 { width := 2, height := 2 }), .run 0 (.startPicture 0 (pictureOf 1))]

/-- There is no slot for another picture, of order count `2`. -/
def afterNoSlot : Session := (fullBuffer.step (.run 0 (.startPicture 0 (pictureOf 2)))).2

theorem run_fullBuffer : ∃ log, Run oneSlot {} log fullBuffer := ⟨_, run_all _ .start⟩

/-- The decoder has turned to the picture for which there is no slot, and this can be told. -/
theorem afterNoSlot_alike : ∃ d, fullBuffer.decoder? 0 = some d ∧
    (d.startPicture 0 (pictureOf 2)).1 = .error (.outOfSlots 0) ∧
    ((fullBuffer.setDecoder 0 (d.turnTo (pictureOf 2))).asking afterNoSlot).Alike afterNoSlot ∧
    ¬(fullBuffer.asking afterNoSlot).Alike afterNoSlot := by
  obtain ⟨d, hd⟩ : ∃ d, fullBuffer.decoder? 0 = some d := ⟨_, rfl⟩
  have hs : (d.startPicture 0 (pictureOf 2)).1 = .error (.outOfSlots 0) := by
    cases hd
    rfl
  have hpoc : d.poc = 1 := by
    cases hd
    rfl
  obtain ⟨log, run⟩ := run_fullBuffer
  obtain ⟨-, hturned, hiff⟩ := alike_failed_start run hd hs
  refine ⟨d, hd, hs, hturned rfl, fun h => ?_⟩
  have hsame : d.poc = 2 := (hiff.mp h rfl).1
  rw [hpoc] at hsame
  cases hsame

/-- A slice header that names the picture itself as a reference. -/
def namesItself : SliceHeader where
  shortTerm := some { deltas := [0], used := [true], numNegative := 0 }

/-- **A derivation reads the order count of the picture that was not started**, so it is not true
of every run that the answers are as if nobody had tried. -/
theorem not_always_alike : ¬ ∀ (config : Config) (provider : Provider) (log : List Moment)
    (s : Session) (i : Nat) (d : Decoder) (layer : Nat) (info : PictureInfo) (fault : Fault),
    Run config provider log s → s.decoder? i = some d →
    (d.startPicture layer info).1 = .error fault →
    let after := (s.step (.run i (.startPicture layer info))).2
    ∃ ρ : FrameId → FrameId, ∀ events : List Event,
      after.answers events = ((s.asking after).answers events).map (·.rename ρ) := by
  intro h
  obtain ⟨d, hd⟩ : ∃ d, fullBuffer.decoder? 0 = some d := ⟨_, rfl⟩
  have hs : (d.startPicture 0 (pictureOf 2)).1 = .error (.outOfSlots 0) := by
    cases hd
    rfl
  obtain ⟨log, run⟩ := run_fullBuffer
  obtain ⟨ρ, hsame⟩ := h oneSlot {} log fullBuffer 0 d 0 (pictureOf 2) _ run hd hs
  have hwith : afterNoSlot.answers [.run 0 (.deriveSets 0 namesItself)] =
      [.result (.error (.outOfSlots 0))] := rfl
  have hwithout : (fullBuffer.asking afterNoSlot).answers [.run 0 (.deriveSets 0 namesItself)] =
      [.result (.error (.duplicateOrMissingReference 1))] := rfl
  have hanswers := hwith.symm.trans (hsame [.run 0 (.deriveSets 0 namesItself)])
  unfold afterNoSlot at hwithout
  rw [hwithout] at hanswers
  cases hanswers

end Session

end PictureBuffer
