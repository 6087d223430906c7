import Mathlib.Data.Finset.Card
import PictureBuffer.Proofs.Distinctness

/-!
# Room for missing references

A derivation makes a stand-in for every candidate that is missing, and each takes a free slot. The
stand-ins of the previous derivation have given theirs up before. Pictures that nothing keeps any
longer, neither the marking nor the output process, do so only at the end (`Dpb.sweep`): until then
such a **dead** picture (`Decoder.numDead`) takes up room like a **live** one (`Decoder.numLive`).

* `room_of_deriveSets`: a derivation runs out of slots only if live pictures, dead ones and missing
  references together are more than the slots of the layer, and does not succeed if they are.
* `not_always_room`: it fails where a dead picture is all that stands in the way.
-/

namespace PictureBuffer

/-- The slot holds a picture that was decoded, not a stand-in. -/
def Slot.isPicture (slot : Slot) : Bool := !slot.isFree && !slot.flags.placeholder

/-- All order counts are given in full. -/
def LongTermSet.AllFull (lt : LongTermSet) : Prop :=
  ∀ i < lt.pocs.length, lt.fullPoc[i]?.getD false = true

namespace Decoder

variable {d d₀ d' d'' : Decoder} {layer index : Nat} {sps : Sps} {c : Candidate} {slot : Slot}
  {cs done : List Candidate} {made : Finset Int} {hdr : SliceHeader} {fault : Fault} {poc : Int}

/-! ## The slots of a layer -/

/-- The slots of a layer. -/
def slotsIn (d : Decoder) (layer : Nat) : List Slot := (d.layer? layer).elim [] (·.dpb.slots)

theorem getElem?_slotsIn (d : Decoder) (layer i : Nat) :
    (d.slotsIn layer)[i]? = d.slot? ⟨layer, i⟩ := by
  unfold slotsIn slot?
  dsimp only
  cases d.layer? layer <;> rfl

/-- Slots that hold a picture or a stand-in. -/
def numHeld (d : Decoder) (layer : Nat) : Nat := (d.slotsIn layer).countP (!·.isFree)

/-- Some slot of the layer holds a picture or a stand-in with order count `poc`. -/
def Holds (d : Decoder) (layer : Nat) (poc : Int) : Prop :=
  ∃ i slot, d.slot? ⟨layer, i⟩ = some slot ∧ slot.isFree = false ∧ slot.poc = poc

/-- Only one slot has changed. -/
theorem slotsIn_eq_set {new : Slot} (hnew : d'.slot? ⟨layer, index⟩ = some new)
    (hothers : ∀ ref, ref ≠ ⟨layer, index⟩ → d'.slot? ref = d.slot? ref)
    (hlen : index < (d.slotsIn layer).length) :
    d'.slotsIn layer = (d.slotsIn layer).set index new := by
  refine List.ext_getElem? fun i => ?_
  rw [getElem?_slotsIn]
  by_cases hi : i = index
  · subst hi
    rw [hnew, List.getElem?_set_self hlen]
  · rw [List.getElem?_set_ne (Ne.symm hi), getElem?_slotsIn]
    exact hothers _ fun h => hi (congrArg SlotRef.index h)

/-- A slot that holds a picture has changed to one that does. -/
theorem numHeld_set {old new : Slot} (hold : d.slot? ⟨layer, index⟩ = some old)
    (hnew : d'.slot? ⟨layer, index⟩ = some new) (hheld : new.isFree = false)
    (hothers : ∀ ref, ref ≠ ⟨layer, index⟩ → d'.slot? ref = d.slot? ref) :
    (d'.slotsIn layer).length = (d.slotsIn layer).length ∧
      d'.numHeld layer = d.numHeld layer + old.isFree.toNat := by
  obtain ⟨hlt, hget⟩ := List.getElem?_eq_some_iff.mp ((d.getElem?_slotsIn layer index).trans hold)
  have hset := slotsIn_eq_set hnew hothers hlt
  have hcount := List.countP_set (p := (!·.isFree)) (a := new) hlt
  rw [← hset, hget, hheld] at hcount
  refine ⟨by rw [hset, List.length_set], ?_⟩
  cases hfree : old.isFree with
  | true =>
    rw [hfree] at hcount
    exact hcount
  | false =>
    have hpos : 0 < d.numHeld layer :=
      List.countP_pos_iff.mpr ⟨old, hget ▸ List.getElem_mem hlt, by rw [hfree]; rfl⟩
    rw [hfree] at hcount
    change d'.numHeld layer = d.numHeld layer - 1 + 1 at hcount
    change d'.numHeld layer = d.numHeld layer
    omega

/-- So the layer holds one order count more, at most. -/
theorem holds_set {old new : Slot} (hold : d.slot? ⟨layer, index⟩ = some old)
    (hnew : d'.slot? ⟨layer, index⟩ = some new) (hheld : new.isFree = false)
    (hpoc : old.isFree = false → old.poc = new.poc)
    (hothers : ∀ ref, ref ≠ ⟨layer, index⟩ → d'.slot? ref = d.slot? ref) :
    d'.Holds layer poc ↔ d.Holds layer poc ∨ poc = new.poc := by
  have hother : ∀ {i}, i ≠ index → d'.slot? ⟨layer, i⟩ = d.slot? ⟨layer, i⟩ :=
    fun hi => hothers _ fun hr => hi (congrArg SlotRef.index hr)
  have hentered : d'.Holds layer new.poc := ⟨index, new, hnew, hheld, rfl⟩
  constructor
  · rintro ⟨i, s, hs, hfree, rfl⟩
    by_cases hi : i = index
    · subst hi
      obtain rfl := Option.some.inj (hs.symm.trans hnew)
      exact Or.inr rfl
    · rw [hother hi] at hs
      exact Or.inl ⟨i, s, hs, hfree, rfl⟩
  · rintro (⟨i, s, hs, hfree, rfl⟩ | rfl)
    · by_cases hi : i = index
      · subst hi
        obtain rfl := Option.some.inj (hs.symm.trans hold)
        rw [hpoc hfree]
        exact hentered
      · exact ⟨i, s, (hother hi).trans hs, hfree, rfl⟩
    · exact hentered

/-! ## Candidates -/

/-- **What a candidate takes**: a picture that is found is one that is held, and a stand-in for one
that is not takes a free slot. -/
theorem Enters.takes (h : d.Enters layer sps c index slot d') (hfull : c.fullPoc = true) :
    (d'.slotsIn layer).length = (d.slotsIn layer).length ∧
    (∀ poc, d'.Holds layer poc ↔ d.Holds layer poc ∨ poc = c.poc) ∧
    ((d.Holds layer c.poc ∧ d'.numHeld layer = d.numHeld layer) ∨
      (¬d.Holds layer c.poc ∧ d'.numHeld layer = d.numHeld layer + 1)) := by
  have hlookup : c.lookup sps d.poc = .full := by rw [Candidate.lookup, hfull]; rfl
  have hheld : (slot.mark c.marking).isFree = false :=
    (Slot.isFree_mark c.marking slot).trans h.source.held
  have hmark := Slot.poc_mark c.marking slot
  cases h.source with
  | found hs held named =>
    rw [hlookup] at named
    have hpoc : slot.poc = c.poc := Dpb.Lookup.names_full_iff.mp named
    obtain ⟨hlen, hcount⟩ := numHeld_set hs h.marked hheld h.others
    rw [held] at hcount
    refine ⟨hlen, fun poc => ?_, Or.inl ⟨⟨index, slot, hs, held, hpoc⟩, hcount⟩⟩
    rw [holds_set hs h.marked hheld (fun _ => hmark.symm) h.others, hmark, hpoc]
  | @missing free frame unnamed hs hfree hslot =>
    rw [hlookup] at unnamed
    have hpoc : slot.poc = c.poc := congrArg Slot.poc hslot
    have hnot : ¬d.Holds layer c.poc := by
      rintro ⟨i, s, hi, hs, hp⟩
      have hne := unnamed i s hi hs
      rw [Dpb.Lookup.names_full_iff.mpr hp] at hne
      cases hne
    obtain ⟨hlen, hcount⟩ := numHeld_set hs h.marked hheld h.others
    rw [hfree] at hcount
    refine ⟨hlen, fun poc => ?_, Or.inr ⟨hnot, hcount⟩⟩
    have hold : free.isFree = false → free.poc = (slot.mark c.marking).poc :=
      fun hf => by cases hfree.symm.trans hf
    rw [holds_set hs h.marked hheld hold h.others, hmark, hpoc]

/-- **In the middle of a derivation** that began with `d₀`: the candidates in `done` are entered,
and there are stand-ins for those in `made`, which were missing. -/
structure Filling (d₀ : Decoder) (layer : Nat) (done : List Candidate) (made : Finset Int)
    (d : Decoder) : Prop where
  length : (d.slotsIn layer).length = (d₀.slotsIn layer).length
  holds : ∀ poc, d.Holds layer poc ↔ d₀.Holds layer poc ∨ ∃ c ∈ done, c.poc = poc
  mem_made : ∀ poc, poc ∈ made ↔ (∃ c ∈ done, c.poc = poc) ∧ ¬d₀.Holds layer poc
  numHeld : d.numHeld layer = d₀.numHeld layer + made.card

theorem Filling.start (d : Decoder) (layer : Nat) : d.Filling layer [] ∅ d := by
  refine ⟨rfl, fun poc => ?_, fun poc => ?_, rfl⟩
  · simp
  · simp

/-- One more candidate is entered. -/
theorem Filling.enters (h : d₀.Filling layer done made d)
    (hent : d.Enters layer sps c index slot d') (hfull : c.fullPoc = true) :
    ∃ made', d₀.Filling layer (done ++ [c]) made' d' := by
  obtain ⟨hlen, hholds, hcount⟩ := hent.takes hfull
  have hdone : ∀ poc, (∃ c' ∈ done ++ [c], c'.poc = poc) ↔
      (∃ c' ∈ done, c'.poc = poc) ∨ poc = c.poc := by
    intro poc
    simp [or_and_right, exists_or, eq_comm]
  have hholds' : ∀ poc, d'.Holds layer poc ↔
      d₀.Holds layer poc ∨ ∃ c' ∈ done ++ [c], c'.poc = poc := by
    intro poc
    rw [hholds, h.holds, hdone, or_assoc]
  obtain ⟨hheld, hsame⟩ | ⟨hmissing, hmore⟩ := hcount
  · refine ⟨made, hlen.trans h.length, hholds', fun poc => ?_, hsame.trans h.numHeld⟩
    rw [h.mem_made, hdone]
    have hc := (h.holds c.poc).mp hheld
    constructor
    · exact fun hm => ⟨Or.inl hm.1, hm.2⟩
    · rintro ⟨hm | rfl, hn⟩
      · exact ⟨hm, hn⟩
      · exact ⟨hc.resolve_left hn, hn⟩
  · have hnot : ¬(d₀.Holds layer c.poc ∨ ∃ c' ∈ done, c'.poc = c.poc) :=
      fun hc => hmissing ((h.holds c.poc).mpr hc)
    have hnew : c.poc ∉ made := fun hm => hnot (Or.inr ((h.mem_made c.poc).mp hm).1)
    refine ⟨insert c.poc made, hlen.trans h.length, hholds', fun poc => ?_, ?_⟩
    · rw [Finset.mem_insert, h.mem_made, hdone]
      constructor
      · rintro (rfl | hm)
        · exact ⟨Or.inr rfl, fun hc => hnot (Or.inl hc)⟩
        · exact ⟨Or.inl hm.1, hm.2⟩
      · rintro ⟨hm | rfl, hn⟩
        · exact Or.inr ⟨hm, hn⟩
        · exact Or.inl rfl
    · rw [hmore, h.numHeld, Finset.card_insert_of_notMem hnew]
      rfl

/-- A buffer has no slot for a picture only if none is free. -/
theorem full_of_insert {dpb : Dpb} {store : Store} {new : NewPicture} {n : Nat}
    (h : (dpb.insert store sps new).1 = .error (.outOfSlots n)) :
    ∀ slot ∈ dpb.slots, slot.isFree = false := by
  unfold Dpb.insert at h
  cases hfree : dpb.slots.findIdx? (·.isFree) with
  | none => exact List.findIdx?_eq_none_iff.mp hfree
  | some index =>
    rw [hfree] at h
    dsimp only at h
    rcases ha : store.acquire sps.format sps.width sps.height with ⟨_ | frame, store₁⟩
    · rw [ha] at h
      cases h
    · rw [ha] at h
      dsimp only at h
      rcases hs : store₁.attachAll frame new.sideData with ⟨_ | _, store₂⟩
      · rw [hs] at h
        cases h
      · rw [hs] at h
        cases h

theorem full_of_insertStandIn {dpb : Dpb} {store : Store} {new : NewPicture} {fill : Bool} {n : Nat}
    (h : (dpb.insertStandIn store sps new fill).1 = .error (.outOfSlots n)) :
    ∀ slot ∈ dpb.slots, slot.isFree = false := by
  unfold Dpb.insertStandIn at h
  rcases hi : dpb.insert store sps { new with flags := .standIn, picStruct := .frame } with
    ⟨fault | index, dpb', store'⟩
  · rw [hi] at h
    exact full_of_insert ((congrArg Prod.fst hi).trans h)
  · rw [hi] at h
    dsimp only at h
    split at h <;> cases h

/-- **A candidate finds no room** only if every slot of the layer is taken, and none by its
picture. -/
theorem full_of_addCandidate {n : Nat} (h : (d.addCandidate layer c).1 = .error (.outOfSlots n))
    (hfull : c.fullPoc = true) :
    ¬d.Holds layer c.poc ∧ d.numHeld layer = (d.slotsIn layer).length := by
  cases hg : d.layers.get? layer with
  | none =>
    rw [addCandidate, activeLayer, layer?, hg] at h
    cases h
  | some l =>
    cases hsps : l.sps with
    | none =>
      rw [addCandidate, activeLayer, layer?, hg] at h
      dsimp only at h
      rw [hsps] at h
      cases h
    | some sps =>
      have hlookup : c.lookup sps d.poc = .full := by rw [Candidate.lookup, hfull]; rfl
      have hslots : d.slotsIn layer = l.dpb.slots := by rw [slotsIn, layer?, hg]; rfl
      rw [addCandidate_eq hg hsps, hlookup] at h
      dsimp only at h
      split at h
      · cases h
      · cases hfound : l.dpb.find? .full c.poc with
        | some index =>
          rw [hfound] at h
          cases h
        | none =>
          rw [hfound, locate] at h
          dsimp only at h
          have hall : ∀ slot ∈ l.dpb.slots, slot.isFree = false := by
            rcases hin : l.dpb.insertStandIn d.store sps (d.describe layer sps c.poc .standIn)
              (!d.config.accelerated) with ⟨fault | index, dpb, store⟩
            · rw [hin] at h
              obtain rfl : fault = .outOfSlots n := Except.error.inj h
              exact full_of_insertStandIn (congrArg Prod.fst hin)
            · rw [hin] at h
              cases h
          refine ⟨?_, ?_⟩
          · rintro ⟨i, slot, hs, hheld, hp⟩
            have hne := Dpb.find?_eq_none_iff.mp hfound i slot ((slot?_eq hg).symm.trans hs) hheld
            rw [Dpb.Lookup.names_full_iff.mpr hp] at hne
            cases hne
          · rw [numHeld, hslots, List.countP_eq_length]
            intro slot hslot
            rw [hall slot hslot]
            rfl

/-- The candidate at which the derivation ends. -/
theorem addCandidates_error (h : (d.addCandidates layer cs).1 = .error fault) :
    ∃ done c rest d', cs = done ++ c :: rest ∧ d.addCandidates layer done = (.ok (), d') ∧
      (d'.addCandidate layer c).1 = .error fault := by
  induction cs generalizing d with
  | nil => cases h
  | cons c cs ih =>
    rcases hc : d.addCandidate layer c with ⟨_ | _, d'⟩
    · rw [addCandidates, hc] at h
      exact ⟨[], c, cs, d, rfl, rfl, by rw [hc]; exact h⟩
    · rw [addCandidates, hc] at h
      obtain ⟨done, c', rest, d'', rfl, hdone, herror⟩ := ih h
      refine ⟨c :: done, c', rest, d'', rfl, ?_, herror⟩
      rw [addCandidates, hc]
      exact hdone

/-- The room that is taken when some candidates were entered. -/
theorem filling_addCandidates (hfull : ∀ c ∈ cs, c.fullPoc = true)
    (hok : (d.addCandidates layer cs).1 = .ok ()) :
    ∃ made, d.Filling layer cs made (d.addCandidates layer cs).2 := by
  obtain ⟨entered, rest, rfl, hp, hrest⟩ := @addCandidates_induction d layer
    (fun done d' => ∃ made, d.Filling layer done made d') cs
    (fun ⟨made, h⟩ _ => ⟨made, h.length, h.holds, h.mem_made, h.numHeld⟩)
    (fun hc ⟨_, h⟩ hent => h.enters hent (hfull _ hc)) [] ⟨∅, .start d layer⟩
  rw [hrest hok, List.append_nil]
  rw [hrest hok, List.append_nil] at hp
  exact hp

theorem fullPoc_of_mem (hfull : hdr.longTerm.AllFull) (hc : c ∈ hdr.candidates poc) :
    c.fullPoc = true := by
  unfold SliceHeader.candidates at hc
  split at hc
  · cases hc
  · rcases List.mem_append.mp hc with hc | hc
    · exact (SliceHeader.mem_shortTermCandidates hc).2.1
    · obtain ⟨i, poc, hi, rfl⟩ := List.mem_mapIdx.mp hc
      exact hfull i poc

/-! ## The room of a derivation -/

/-- Some slot of the layer holds a picture, not a stand-in, with order count `poc`. -/
def shows (d : Decoder) (layer : Nat) (poc : Int) : Bool :=
  (d.slotsIn layer).any fun slot => slot.isPicture && slot.poc == poc

/-- **The order counts of missing references.** -/
def missing (d : Decoder) (layer : Nat) (hdr : SliceHeader) : Finset Int :=
  ((hdr.candidates d.poc).map (·.poc)).toFinset.filter fun poc => d.shows layer poc = false

/-- A picture that is current, waits for output or is a candidate. -/
def keeps (d : Decoder) (layer : Nat) (hdr : SliceHeader) (index : Nat) (slot : Slot) : Bool :=
  d.current = some ⟨layer, index⟩ || slot.flags.output ||
    (hdr.candidates d.poc).any (·.poc == slot.poc)

/-- **Live pictures** of a layer: those that the derivation has to keep. -/
def numLive (d : Decoder) (layer : Nat) (hdr : SliceHeader) : Nat :=
  (d.slotsIn layer).zipIdx.countP fun x => x.1.isPicture && d.keeps layer hdr x.2 x.1

/-- **Dead pictures** of a layer: those that go with the derivation. -/
def numDead (d : Decoder) (layer : Nat) (hdr : SliceHeader) : Nat :=
  (d.slotsIn layer).zipIdx.countP fun x => x.1.isPicture && !d.keeps layer hdr x.2 x.1

theorem numLive_add_numDead (d : Decoder) (layer : Nat) (hdr : SliceHeader) :
    d.numLive layer hdr + d.numDead layer hdr = (d.slotsIn layer).countP (·.isPicture) := by
  have hfst : (d.slotsIn layer).countP (·.isPicture) =
      (d.slotsIn layer).zipIdx.countP (·.1.isPicture) := by
    conv_lhs => rw [← List.zipIdx_map_fst 0 (d.slotsIn layer), List.countP_map]
    rfl
  rw [hfst, List.countP_eq_countP_filter_add _ _ fun x => d.keeps layer hdr x.2 x.1,
    List.countP_filter, List.countP_filter]
  rfl

/-- Stand-ins give up their slots, and pictures keep them. -/
theorem slot?_clearSets_held {i : Nat} : ∃ f : Slot → Slot,
    (d.clearSets layer).slot? ⟨layer, i⟩ = (d.slot? ⟨layer, i⟩).map f ∧
      ∀ slot, (f slot).isFree = !slot.isPicture ∧ (f slot).poc = slot.poc := by
  refine ⟨_, (d.slot?_clearSets layer ⟨layer, i⟩).trans (if_pos rfl), fun slot => ?_⟩
  let kept : Slot := if slot.flags.placeholder then slot.strip .all else slot
  have hkept : kept.isFree = !slot.isPicture ∧ kept.poc = slot.poc := by
    cases hp : slot.flags.placeholder with
    | false =>
      have hk : kept = slot := by simp [kept, hp]
      rw [hk]
      exact ⟨by simp [Slot.isPicture, hp], rfl⟩
    | true =>
      have hk : kept = slot.strip .all := by simp [kept, hp]
      have hall : (slot.flags.without .all).isEmpty = true := by
        simp [Flags.isEmpty, Flags.without, Flags.all]
      rw [hk, Slot.isFree, Slot.frame_strip, if_pos hall]
      exact ⟨by simp [Slot.isPicture, hp], Slot.poc_strip .all slot⟩
  change (if _ then kept else kept.mark .none).isFree = _ ∧
    (if _ then kept else kept.mark .none).poc = _
  split
  · exact hkept
  · rw [Slot.isFree_mark, Slot.poc_mark]
    exact hkept

theorem slotsIn_clearSets (d : Decoder) (layer : Nat) :
    ((d.clearSets layer).slotsIn layer).map (fun slot => (!slot.isFree, slot.poc)) =
      (d.slotsIn layer).map fun slot => (slot.isPicture, slot.poc) := by
  refine List.ext_getElem? fun i => ?_
  obtain ⟨f, hf, hheld⟩ := @slot?_clearSets_held d layer i
  rw [List.getElem?_map, List.getElem?_map, getElem?_slotsIn, getElem?_slotsIn, hf, Option.map_map]
  congr 1
  funext slot
  simp [hheld slot]

theorem numHeld_clearSets (d : Decoder) (layer : Nat) (hdr : SliceHeader) :
    (d.clearSets layer).numHeld layer = d.numLive layer hdr + d.numDead layer hdr := by
  have h := congrArg (List.countP (·.1)) (d.slotsIn_clearSets layer)
  rw [List.countP_map, List.countP_map] at h
  rw [numLive_add_numDead]
  exact h

theorem length_clearSets (d : Decoder) (layer : Nat) :
    ((d.clearSets layer).slotsIn layer).length = (d.slotsIn layer).length := by
  have h := congrArg List.length (d.slotsIn_clearSets layer)
  rwa [List.length_map, List.length_map] at h

theorem holds_clearSets : (d.clearSets layer).Holds layer poc ↔ d.shows layer poc = true := by
  have hshows : d.shows layer poc = true ↔
      (true, poc) ∈ (d.slotsIn layer).map fun slot => (slot.isPicture, slot.poc) := by
    simp [shows]
  rw [hshows, ← slotsIn_clearSets, List.mem_map]
  constructor
  · rintro ⟨i, slot, hs, hheld, rfl⟩
    exact ⟨slot, List.mem_of_getElem? ((getElem?_slotsIn _ layer i).trans hs), by rw [hheld]; rfl⟩
  · rintro ⟨slot, hm, he⟩
    obtain ⟨i, hi⟩ := List.getElem?_of_mem hm
    obtain ⟨hheld, hpoc⟩ := Prod.mk.inj he
    exact ⟨i, slot, (getElem?_slotsIn _ layer i).symm.trans hi, by simpa using hheld, hpoc⟩

theorem mem_missing : poc ∈ d.missing layer hdr ↔
    (∃ c ∈ hdr.candidates d.poc, c.poc = poc) ∧ ¬(d.clearSets layer).Holds layer poc := by
  rw [holds_clearSets, Bool.not_eq_true]
  simp [missing]

/-- Without inter-layer prediction, a derivation ends with the candidates of the layer. -/
theorem deriveSets_fst {l : Layer} (hg : d.layers.get? layer = some l)
    (hinter : hdr.interLayer = false) : (d.deriveSets layer hdr).1 =
      ((d.clearSets layer).addCandidates layer (hdr.candidates d.poc)).1 := by
  rw [deriveSets_eq hg, addHeader, (d.deriving_clearSets layer).poc_eq]
  rcases (d.clearSets layer).addCandidates layer (hdr.candidates d.poc) with ⟨_ | _, d'⟩
  · rfl
  · dsimp only
    rw [hinter]
    rfl

/-- **A derivation runs out of slots only if there is no room for all missing references**, dead
pictures included, and it does not succeed then. -/
theorem room_of_deriveSets (hinter : hdr.interLayer = false) (hfull : hdr.longTerm.AllFull) :
    (∀ n, (d.deriveSets layer hdr).1 = .error (.outOfSlots n) →
      (d.slotsIn layer).length <
        d.numLive layer hdr + d.numDead layer hdr + (d.missing layer hdr).card) ∧
    ((d.deriveSets layer hdr).1 = .ok () →
      d.numLive layer hdr + d.numDead layer hdr + (d.missing layer hdr).card ≤
        (d.slotsIn layer).length) := by
  cases hg : d.layers.get? layer with
  | none =>
    rw [deriveSets_of_invalid hg]
    exact ⟨fun n h => (by cases h), fun h => by cases h⟩
  | some l =>
    have hall : ∀ c ∈ hdr.candidates d.poc, c.fullPoc = true := fun c => fullPoc_of_mem hfull
    rw [deriveSets_fst hg hinter, ← numHeld_clearSets, ← length_clearSets]
    constructor
    · intro n h
      obtain ⟨done, c, rest, d', hcs, hdone, herror⟩ := addCandidates_error h
      rw [hcs] at hall
      obtain ⟨made, hfilling⟩ := @filling_addCandidates (d.clearSets layer) layer done
        (fun c hc => hall c (List.mem_append_left _ hc)) (by rw [hdone])
      rw [hdone] at hfilling
      change (d.clearSets layer).Filling layer done made d' at hfilling
      obtain ⟨hnot, hcount⟩ := full_of_addCandidate herror (hall c (by simp))
      -- The candidate at which the derivation ends is missing, too.
      have hnew : c.poc ∉ made := by
        intro hm
        exact hnot ((hfilling.holds c.poc).mpr (Or.inr ((hfilling.mem_made c.poc).mp hm).1))
      have hsub : insert c.poc made ⊆ d.missing layer hdr := by
        intro poc hpoc
        rw [mem_missing, hcs]
        rcases Finset.mem_insert.mp hpoc with rfl | hm
        · exact ⟨⟨c, by simp, rfl⟩, fun hc => hnot ((hfilling.holds c.poc).mpr (Or.inl hc))⟩
        · obtain ⟨⟨c', hc', he⟩, hm⟩ := (hfilling.mem_made poc).mp hm
          exact ⟨⟨c', List.mem_append_left _ hc', he⟩, hm⟩
      have hcard := Finset.card_le_card hsub
      rw [Finset.card_insert_of_notMem hnew] at hcard
      have hlen := hfilling.length
      have hheld := hfilling.numHeld
      omega
    · intro h
      obtain ⟨made, hfilling⟩ := filling_addCandidates hall h
      have hsame : made = d.missing layer hdr := by
        ext poc
        rw [mem_missing, hfilling.mem_made]
      rw [← hsame, ← hfilling.numHeld, ← hfilling.length]
      exact List.countP_le_length

end Decoder

namespace Session

/-- A buffer of two slots. -/
def twoSlots : Config := { dpbCapacity := 2 }

/-- A picture of order count `0` is decoded, which is not for output, and one of `1` begun. -/
def deadPicture : List Event :=
  [.run 0 (.setSps 0 { width := 2, height := 2 }),
    .run 0 (.startPicture 0 { poc := 0, output := false, numSlices := 1, pps := {} }),
    .run 0 .finishPicture,
    .run 0 (.startPicture 0 { poc := 1, output := true, numSlices := 1, pps := {} })]

/-- The one reference of the picture is missing. -/
def oneMissing : SliceHeader where
  shortTerm := some { deltas := [-5], used := [true], numNegative := 1 }

theorem allFull_oneMissing : oneMissing.longTerm.AllFull := fun _ hi => by cases hi

/-- A live picture, a dead one and a missing one are too many for two slots. -/
theorem deadPicture_room : ∃ d,
    ((start twoSlots {}).afterAll deadPicture).decoder? 0 = some d ∧
    (d.deriveSets 0 oneMissing).1 = .error (.outOfSlots 0) ∧
    d.numLive 0 oneMissing = 1 ∧ d.numDead 0 oneMissing = 1 ∧ d.missing 0 oneMissing = {-4} ∧
    (d.slotsIn 0).length <
      d.numLive 0 oneMissing + d.numDead 0 oneMissing + (d.missing 0 oneMissing).card := by
  obtain ⟨d, hd⟩ : ∃ d, ((start twoSlots {}).afterAll deadPicture).decoder? 0 = some d := ⟨_, rfl⟩
  have herror : (d.deriveSets 0 oneMissing).1 = .error (.outOfSlots 0) := by
    cases hd
    rfl
  have hcounts : d.numLive 0 oneMissing = 1 ∧ d.numDead 0 oneMissing = 1 ∧
      d.missing 0 oneMissing = {-4} := by
    cases hd
    decide +kernel
  exact ⟨d, hd, herror, hcounts.1, hcounts.2.1, hcounts.2.2,
    (Decoder.room_of_deriveSets rfl allFull_oneMissing).1 0 herror⟩

/-- **A dead picture is all that stands in the way**, so it is not true of every run that a
derivation finds slots for its missing references where they and the live pictures fit in. -/
theorem not_always_room : ¬ ∀ (config : Config) (provider : Provider) (log : List Moment)
    (s : Session) (i : Nat) (d : Decoder) (ref : SlotRef) (slot : Slot) (hdr : SliceHeader)
    (n : Nat),
    (∀ store : Store, store.provider = provider → store.Supplies) →
    Run config provider log s → s.decoder? i = some d → d.current = some ref →
    d.slot? ref = some slot → slot.InUse → hdr.interLayer = false → hdr.longTerm.AllFull →
    d.numLive ref.layer hdr + (d.missing ref.layer hdr).card ≤ (d.slotsIn ref.layer).length →
    (d.deriveSets ref.layer hdr).1 ≠ .error (.outOfSlots n) := by
  intro h
  have run := run_all deadPicture (@Run.start twoSlots {})
  have hsupplies : ∀ store : Store, store.provider = {} → store.Supplies := by
    intro store hp
    rw [Store.Supplies, hp]
    rfl
  obtain ⟨d, hd⟩ : ∃ d, ((start twoSlots {}).afterAll deadPicture).decoder? 0 = some d := ⟨_, rfl⟩
  obtain ⟨hcur, slot, hs, hu⟩ : d.current = some ⟨0, 1⟩ ∧
      ∃ slot, d.slot? ⟨0, 1⟩ = some slot ∧ slot.InUse := by
    cases hd
    exact ⟨rfl, _, rfl, rfl⟩
  have hroom : d.numLive 0 oneMissing + (d.missing 0 oneMissing).card ≤ (d.slotsIn 0).length := by
    cases hd
    decide +kernel
  refine h twoSlots {} _ _ 0 d ⟨0, 1⟩ slot oneMissing 0 hsupplies run hd hcur hs hu rfl
    allFull_oneMissing hroom ?_
  cases hd
  rfl

end Session

end PictureBuffer
