import PictureBuffer.Proofs.Buffers

/-!
# The steps of a derivation

A derivation enters the candidates of a slice header one by one. What one of these steps can do is
said once (`addCandidate_cases`): it is refused, and the buffers stay as they are; or the candidate
is entered (`Decoder.Enters`), with a picture that the look-up found or with a stand-in that takes a
free slot (`Decoder.Source`).

What every step carries on holds when the derivation ends, early or not: from the candidates entered
so far and the state (`addCandidates_induction`), or from the state alone (`addHeader_preserves`).

Nothing but the slots, the frame store and the sets changes (`Decoder.Deriving`), so the stream
parameters and the picture being decoded may be read before or after.
-/

namespace PictureBuffer

/-- What a layer keeps besides its buffer. -/
def Layer.setting (layer : Layer) : Option Sps × Option Nat := (layer.sps, layer.current)

/-- How a candidate of a picture with order count `poc` is looked up. -/
def Candidate.lookup (c : Candidate) (sps : Sps) (poc : Int) : Dpb.Lookup :=
  if c.fullPoc then .full else .low sps.log2PocLsb poc

/-- The entry of a candidate whose picture is in `slot`. -/
def Candidate.entry (c : Candidate) (ref : SlotRef) (slot : Slot) : RefEntry where
  poc := slot.poc
  slot := ref
  longTerm := c.marking = .longTerm

/-! ## Subsets and their candidates -/

namespace Subset

def shortTerms : List Subset := [stCurrBefore, stCurrAfter, stFoll]

def longTerms : List Subset := [ltCurr, ltFoll]

theorem not_mem_longTerms {subset : Subset} (h : subset ∈ shortTerms) : subset ∉ longTerms := by
  cases subset <;> simp [shortTerms, longTerms] at h ⊢

theorem mem_all (subset : Subset) : subset ∈ all := by
  cases subset <;> simp [all]

end Subset

theorem RefSets.entries_push {sets : RefSets} {subset : Subset}
    (room : (sets.get subset).isFull = false) (entry : RefEntry) (other : Subset) :
    ((sets.push subset entry).get other).entries =
      (sets.get other).entries ++ if subset = other then [entry] else [] := by
  rw [push, get_set]
  by_cases h : subset = other
  · subst h
    rw [if_pos rfl, if_pos rfl, RefList.push, room]
    rfl
  · rw [if_neg h, if_neg h, List.append_nil]

namespace SliceHeader

theorem mem_shortTermCandidates {st : ShortTermSet} {poc : Int} {c : Candidate}
    (h : c ∈ shortTermCandidates st poc) :
    c.marking = .shortTerm ∧ c.fullPoc = true ∧ c.subset ∈ Subset.shortTerms := by
  obtain ⟨i, delta, -, rfl⟩ := List.mem_mapIdx.mp h
  refine ⟨rfl, rfl, ?_⟩
  dsimp only
  split
  · simp [Subset.shortTerms]
  · split <;> simp [Subset.shortTerms]

theorem mem_longTermCandidates {lt : LongTermSet} {c : Candidate}
    (h : c ∈ longTermCandidates lt) : c.marking = .longTerm ∧ c.subset ∈ Subset.longTerms := by
  obtain ⟨i, poc, -, rfl⟩ := List.mem_mapIdx.mp h
  refine ⟨rfl, ?_⟩
  dsimp only
  split <;> simp [Subset.longTerms]

/-- The short-term candidates come first. -/
theorem candidates_eq (hdr : SliceHeader) (poc : Int) :
    ∃ first rest, hdr.candidates poc = first ++ rest ∧
      (∀ c ∈ first, c.marking = .shortTerm ∧ c.subset ∈ Subset.shortTerms) ∧
      ∀ c ∈ rest, c.marking = .longTerm ∧ c.subset ∈ Subset.longTerms := by
  unfold candidates
  cases hdr.shortTerm with
  | none => exact ⟨[], [], rfl, fun _ h => (by cases h), fun _ h => (by cases h)⟩
  | some st =>
    refine ⟨_, _, rfl, fun c hc => ?_, fun c hc => mem_longTermCandidates hc⟩
    exact ⟨(mem_shortTermCandidates hc).1, (mem_shortTermCandidates hc).2.2⟩

/-- Every candidate gets a marking. -/
theorem marking_ne_none (hdr : SliceHeader) {poc : Int} {c : Candidate}
    (h : c ∈ hdr.candidates poc) : c.marking ≠ .none := by
  obtain ⟨first, rest, he, hfirst, hrest⟩ := hdr.candidates_eq poc
  rw [he, List.mem_append] at h
  rcases h with h | h
  · rw [(hfirst c h).1]
    decide
  · rw [(hrest c h).1]
    decide

end SliceHeader

namespace Decoder

variable {d d' d'' : Decoder} {layer : Nat} {sps : Sps} {c : Candidate} {index : Nat} {slot : Slot}

/-- The sequence parameters of a layer. -/
def sps? (d : Decoder) (n : Nat) : Option Sps := (d.layers.get? n).bind (·.sps)

/-- The stand-in for a missing picture of `layer`. -/
def standIn (d : Decoder) (layer : Nat) (sps : Sps) (poc : Int) : NewPicture :=
  { d.describe layer sps poc .standIn with flags := .standIn, picStruct := .frame }

/-! ## What a derivation works on -/

/-- Nothing but slots, the frame store and the sets has changed. -/
structure Deriving (d d' : Decoder) : Prop where
  eq : ∃ layers store sets, d' = { d with layers, store, sets }
  settings : ∀ n, (d'.layers.get? n).map Layer.setting = (d.layers.get? n).map Layer.setting

theorem Deriving.refl (d : Decoder) : d.Deriving d := ⟨⟨_, _, _, rfl⟩, fun _ => rfl⟩

theorem Deriving.trans (h : d.Deriving d') (h' : d'.Deriving d'') : d.Deriving d'' := by
  refine ⟨?_, fun n => (h'.settings n).trans (h.settings n)⟩
  obtain ⟨layers, store, sets, rfl⟩ := h.eq
  obtain ⟨layers', store', sets', rfl⟩ := h'.eq
  exact ⟨layers', store', sets', rfl⟩

theorem Deriving.current_eq (h : d.Deriving d') : d'.current = d.current := by
  obtain ⟨layers, store, sets, rfl⟩ := h.eq
  rfl

theorem Deriving.poc_eq (h : d.Deriving d') : d'.poc = d.poc := by
  obtain ⟨layers, store, sets, rfl⟩ := h.eq
  rfl

theorem Deriving.config_eq (h : d.Deriving d') : d'.config = d.config := by
  obtain ⟨layers, store, sets, rfl⟩ := h.eq
  rfl

theorem Deriving.sps?_eq (h : d.Deriving d') (n : Nat) : d'.sps? n = d.sps? n := by
  have hs := congrArg (·.bind Prod.fst) (h.settings n)
  rw [Option.bind_map, Option.bind_map] at hs
  exact hs

/-- The current slot of the base layer stays the same one. -/
theorem Deriving.baseCurrent_eq (h : d.Deriving d') :
    d'.layers.base.current = d.layers.base.current :=
  congrArg Prod.snd (Option.some.inj (h.settings 0))

/-- One layer changes, in its slots only. -/
theorem Deriving.of_set {n : Nat} {l l' : Layer} {store : Store} {sets : RefSets}
    (hg : d.layers.get? n = some l) (hl : l'.setting = l.setting) :
    d.Deriving { d with layers := d.layers.set n l', store, sets } := by
  refine ⟨⟨_, _, _, rfl⟩, fun m => ?_⟩
  dsimp only
  rw [Layers.get?_set hg]
  split
  · rename_i hm
    subst hm
    rw [hg, Option.map_some, Option.map_some, hl]
  · rfl

theorem Deriving.onDpb (d : Decoder) (n : Nat) (f : Dpb → Store → Dpb × Store) :
    d.Deriving (d.onDpb n f) := by
  unfold Decoder.onDpb layer?
  cases hg : d.layers.get? n with
  | none => exact .refl d
  | some l => exact .of_set hg rfl

theorem Deriving.modifyDpb (d : Decoder) (n : Nat) (f : Dpb → Dpb) :
    d.Deriving (d.modifyDpb n f) := by
  unfold Decoder.modifyDpb modifyLayer layer?
  cases hg : d.layers.get? n with
  | none => exact .refl d
  | some l => exact .of_set hg rfl

/-! ## Before the first candidate -/

theorem deriving_clearSets (d : Decoder) (layer : Nat) : d.Deriving (d.clearSets layer) :=
  ((Deriving.onDpb d layer _).trans (.modifyDpb _ layer _)).trans
    ⟨⟨_, _, _, rfl⟩, fun _ => rfl⟩

/-- A slot of the layer loses its stand-in or, if it is not the current picture's, its marking. -/
theorem slot?_clearSets (d : Decoder) (layer : Nat) (ref : SlotRef) :
    (d.clearSets layer).slot? ref =
      if ref.layer = layer then
        (d.slot? ref).map fun slot =>
          let kept := if slot.flags.placeholder then slot.strip .all else slot
          if d.current = some ref then kept else kept.mark .none
      else d.slot? ref := by
  have hc := (Deriving.onDpb d layer Dpb.removeStandIns).current_eq
  refine (slot?_unmarkExcept (d.onDpb layer Dpb.removeStandIns) layer ref).trans ?_
  have hs : (d.onDpb layer Dpb.removeStandIns).slot? ref = _ :=
    slot?_stripWhere d layer (·.flags.placeholder) .all ref
  rw [hs, hc]
  by_cases hl : ref.layer = layer
  · simp only [hl, true_and, if_true]
    by_cases hcur : d.current = some ref
    · simp [hcur]
    · simp [hcur, Function.comp_def]
  · simp [hl]

/-! ## One candidate -/

/-- **Where the picture of a candidate comes from.** -/
inductive Source (d : Decoder) (layer : Nat) (sps : Sps) (c : Candidate) (index : Nat)
    (slot : Slot) (store : Store) : Prop
  /-- The look-up found it, and it is not the current picture. -/
  | found (hs : d.slot? ⟨layer, index⟩ = some slot) (held : slot.isFree = false)
      (named : (c.lookup sps d.poc).names c.poc slot.poc = true)
      (other : d.current ≠ some ⟨layer, index⟩)
  /-- The layer has no such picture, and a stand-in took a free slot. -/
  | missing {free : Slot} {frame : FrameId}
      (unnamed : ∀ i s, d.slot? ⟨layer, i⟩ = some s → s.isFree = false →
        (c.lookup sps d.poc).names c.poc s.poc = false)
      (hs : d.slot? ⟨layer, index⟩ = some free) (hfree : free.isFree = true)
      (hslot : slot = (d.standIn layer sps c.poc).slot sps frame) (hp : store.Produced frame)

/-- **A candidate was entered**: its picture, in `slot`, is marked, and it has an entry in its
subset. -/
structure Enters (d : Decoder) (layer : Nat) (sps : Sps) (c : Candidate) (index : Nat)
    (slot : Slot) (d' : Decoder) : Prop where
  sps_eq : d.sps? layer = some sps
  source : d.Source layer sps c index slot d'.store
  marked : d'.slot? ⟨layer, index⟩ = some (slot.mark c.marking)
  others : ∀ ref, ref ≠ ⟨layer, index⟩ → d'.slot? ref = d.slot? ref
  room : (d.sets.get c.subset).isFull = false
  sets : d'.sets = d.sets.push c.subset (c.entry ⟨layer, index⟩ slot)
  deriv : d.Deriving d'
  steady : d.Steady d'

/-- The picture of a candidate holds a frame. -/
theorem Source.held {store : Store} (h : d.Source layer sps c index slot store) :
    slot.isFree = false := by
  cases h with
  | found _ held => exact held
  | missing _ _ _ hslot =>
    rw [hslot]
    rfl

theorem sets_modifyDpb (d : Decoder) (n : Nat) (f : Dpb → Dpb) :
    (d.modifyDpb n f).sets = d.sets := by
  unfold modifyDpb modifyLayer
  split <;> rfl

/-- The picture in slot `index` is marked, and entered as that of a candidate. -/
def enter (d : Decoder) (layer : Nat) (c : Candidate) (index : Nat) : Decoder :=
  let entry : RefEntry :=
    { poc := ((d.slot? ⟨layer, index⟩).map (·.poc)).getD c.poc
      slot := ⟨layer, index⟩
      longTerm := c.marking = .longTerm }
  let d := d.modifyDpb layer (·.mark index c.marking)
  { d with sets := d.sets.push c.subset entry }

theorem slot?_enter (d : Decoder) (layer : Nat) (c : Candidate) (index : Nat) (ref : SlotRef) :
    (d.enter layer c index).slot? ref =
      if ref = ⟨layer, index⟩ then (d.slot? ref).map (·.mark c.marking) else d.slot? ref :=
  slot?_mark d layer index c.marking ref

theorem sets_enter (hs : d.slot? ⟨layer, index⟩ = some slot) (c : Candidate) :
    (d.enter layer c index).sets = d.sets.push c.subset (c.entry ⟨layer, index⟩ slot) := by
  unfold enter
  dsimp only
  rw [sets_modifyDpb, hs]
  rfl

theorem shared_enter (d : Decoder) (layer : Nat) (c : Candidate) (index : Nat) :
    (d.enter layer c index).toShared = d.toShared := by
  unfold enter modifyDpb modifyLayer
  dsimp only
  split <;> rfl

theorem deriving_enter (d : Decoder) (layer : Nat) (c : Candidate) (index : Nat) :
    d.Deriving (d.enter layer c index) :=
  (Deriving.modifyDpb d layer _).trans ⟨⟨_, _, _, rfl⟩, fun _ => rfl⟩

/-- A candidate of a layer that has sequence parameters. -/
theorem addCandidate_eq {l : Layer} (hg : d.layers.get? layer = some l) (hsps : l.sps = some sps)
    (c : Candidate) :
    d.addCandidate layer c =
      let found := l.dpb.find? (c.lookup sps d.poc) c.poc
      if found.any (fun index => d.current = some ⟨layer, index⟩) ||
          (d.sets.get c.subset).isFull then
        (.error (.duplicateOrMissingReference c.poc), d)
      else
        match d.locate layer l sps found c.poc with
        | (.error fault, d) => (.error fault, d)
        | (.ok index, d) => (.ok (), d.enter layer c index) := by
  unfold addCandidate activeLayer layer?
  rw [hg]
  dsimp only
  rw [hsps]
  rfl

/-- The look-up found the picture. -/
theorem enters_found {l : Layer} (hg : d.layers.get? layer = some l) (hsps : l.sps = some sps)
    (hfound : l.dpb.find? (c.lookup sps d.poc) c.poc = some index)
    (hother : d.current ≠ some ⟨layer, index⟩) (hroom : (d.sets.get c.subset).isFull = false)
    (hsteady : d.Steady (d.enter layer c index)) :
    ∃ slot, d.Enters layer sps c index slot (d.enter layer c index) := by
  obtain ⟨slot, hslot, held, named⟩ := Dpb.slot?_of_find? hfound
  have hs : d.slot? ⟨layer, index⟩ = some slot := (slot?_eq hg).trans hslot
  refine ⟨slot, ?_, .found hs held named hother, ?_, ?_, hroom, sets_enter hs c,
    deriving_enter d layer c index, hsteady⟩
  · rw [sps?, hg, Option.bind_some, hsps]
  · rw [slot?_enter, if_pos rfl, hs]
    rfl
  · intro ref hne
    rw [slot?_enter, if_neg hne]

/-- The picture is missing, and a stand-in has entered. -/
theorem enters_missing {l : Layer} (hg : d.layers.get? layer = some l) (hsps : l.sps = some sps)
    (hfound : l.dpb.find? (c.lookup sps d.poc) c.poc = none)
    (hroom : (d.sets.get c.subset).isFull = false) {fill : Bool} {dpb : Dpb} {store : Store}
    (hin : l.dpb.insertStandIn d.store sps (d.describe layer sps c.poc .standIn) fill =
      (.ok index, dpb, store))
    (hd : d' = { d with layers := d.layers.set layer { l with dpb }, store })
    (hsteady : d.Steady (d'.enter layer c index)) :
    ∃ slot, d.Enters layer sps c index slot (d'.enter layer c index) := by
  obtain ⟨frame, hproduced, hslot⟩ := Dpb.slot?_insertStandIn hin
  obtain ⟨_, _, he, -⟩ | ⟨_, _, _, _, he, hadd, -⟩ := l.dpb.insertStandIn_cases d.store sps
    (d.describe layer sps c.poc .standIn) fill
  · rw [hin] at he
    cases he
  · rw [hin] at he
    cases he
    obtain ⟨free, hfree, hnone⟩ := hadd.free
    have hdpb : ∀ i, d.slot? ⟨layer, i⟩ = l.dpb.slot? i := fun i => slot?_eq hg
    have hlayers : d'.layers = d.layers.set layer { l with dpb } := by rw [hd]
    have hd' := slot?_set hg hlayers
    have hs : d'.slot? ⟨layer, index⟩ = some ((d.standIn layer sps c.poc).slot sps frame) := by
      rw [hd', if_pos rfl]
      exact hslot
    have hderiving : d.Deriving d' := by
      rw [hd]
      exact .of_set hg rfl
    refine ⟨(d.standIn layer sps c.poc).slot sps frame, ?_, ?_, ?_, ?_, hroom, ?_,
      hderiving.trans (deriving_enter d' layer c index), hsteady⟩
    · rw [sps?, hg, Option.bind_some, hsps]
    · refine .missing ?_ ((hdpb index).trans hfree) (Option.isNone_iff_eq_none.mpr hnone) rfl ?_
      · intro i s hi hheld
        exact Dpb.find?_eq_none_iff.mp hfound i s ((hdpb i).symm.trans hi) hheld
      · rw [shared_enter, hd]
        exact hproduced
    · rw [slot?_enter, if_pos rfl, hs]
      rfl
    · intro ref hne
      rw [slot?_enter, if_neg hne, hd']
      by_cases hl : ref.layer = layer
      · subst hl
        rw [if_pos rfl, slot?_eq hg]
        refine hadd.others _ fun hi => hne ?_
        rw [← hi]
      · rw [if_neg hl]
    · rw [sets_enter hs c, hd]

/-- **The ways through a candidate**: it is refused, and the buffers and the sets stay as they are;
or it is entered, with the picture that the look-up found or with a stand-in. -/
theorem addCandidate_ways (d : Decoder) (layer : Nat) (c : Candidate) :
    (∃ fault store, d.addCandidate layer c = (.error fault, { d with store })) ∨
    ∃ l sps index, d.layers.get? layer = some l ∧ l.sps = some sps ∧
      (d.sets.get c.subset).isFull = false ∧
      ((l.dpb.find? (c.lookup sps d.poc) c.poc = some index ∧ d.current ≠ some ⟨layer, index⟩ ∧
          d.addCandidate layer c = (.ok (), d.enter layer c index)) ∨
        l.dpb.find? (c.lookup sps d.poc) c.poc = none ∧ ∃ dpb store,
          l.dpb.insertStandIn d.store sps (d.describe layer sps c.poc .standIn)
            (!d.config.accelerated) = (.ok index, dpb, store) ∧
          d.addCandidate layer c = (.ok (),
            { d with layers := d.layers.set layer { l with dpb }, store }.enter layer c
              index)) := by
  cases hg : d.layers.get? layer with
  | none =>
    refine Or.inl ⟨.noActiveSps layer, d.store, ?_⟩
    unfold addCandidate activeLayer layer?
    rw [hg]
  | some l =>
    cases hsps : l.sps with
    | none =>
      refine Or.inl ⟨.noActiveSps layer, d.store, ?_⟩
      unfold addCandidate activeLayer layer?
      rw [hg]
      dsimp only
      rw [hsps]
    | some sps =>
      have heq := addCandidate_eq hg hsps c
      dsimp only at heq
      split at heq
      · exact Or.inl ⟨_, d.store, heq⟩
      · rename_i hfree
        rw [Bool.not_eq_true, Bool.or_eq_false_iff] at hfree
        obtain ⟨hother, hroom⟩ := hfree
        cases hfound : l.dpb.find? (c.lookup sps d.poc) c.poc with
        | some index =>
          rw [hfound] at heq hother
          exact Or.inr ⟨l, sps, index, rfl, hsps, hroom,
            Or.inl ⟨hfound, by simpa using hother, heq⟩⟩
        | none =>
          rw [hfound] at heq
          dsimp only [locate] at heq
          rcases hin : l.dpb.insertStandIn d.store sps (d.describe layer sps c.poc .standIn)
              (!d.config.accelerated) with ⟨fault | index, dpb, store⟩
          · have hsame : dpb = l.dpb := by
              obtain ⟨_, _, he, -⟩ | ⟨_, _, _, _, he, -⟩ := l.dpb.insertStandIn_cases d.store sps
                (d.describe layer sps c.poc .standIn) (!d.config.accelerated)
              · rw [hin] at he
                cases he
                rfl
              · rw [hin] at he
                cases he
            subst hsame
            rw [hin] at heq
            dsimp only at heq
            rw [Layers.set_self hg] at heq
            exact Or.inl ⟨fault, store, heq⟩
          · rw [hin] at heq
            exact Or.inr ⟨l, sps, index, rfl, hsps, hroom,
              Or.inr ⟨hfound, dpb, store, hin, heq⟩⟩

/-- **What entering a candidate can do**: be refused, and leave the buffers and the sets as they
are; or succeed. -/
theorem addCandidate_cases (d : Decoder) (layer : Nat) (c : Candidate) :
    (∃ fault store, d.addCandidate layer c = (.error fault, { d with store }) ∧
      d.Steady { d with store }) ∨
    ∃ sps index slot d', d.addCandidate layer c = (.ok (), d') ∧
      d.Enters layer sps c index slot d' := by
  have hsteady := d.steady_addCandidate layer c
  obtain ⟨fault, store, he⟩ | ⟨l, sps, index, hg, hsps, hroom,
    ⟨hfound, hother, he⟩ | ⟨hfound, dpb, store, hin, he⟩⟩ := d.addCandidate_ways layer c
  · rw [he] at hsteady
    exact Or.inl ⟨fault, store, he, hsteady⟩
  · rw [he] at hsteady
    obtain ⟨slot, h⟩ := enters_found hg hsps hfound hother hroom hsteady
    exact Or.inr ⟨sps, index, slot, _, he, h⟩
  · rw [he] at hsteady
    obtain ⟨slot, h⟩ := enters_missing hg hsps hfound hroom hin rfl hsteady
    exact Or.inr ⟨sps, index, slot, _, he, h⟩

/-! ## The course of a derivation -/

theorem addCandidates_append (d : Decoder) (layer : Nat) (first rest : List Candidate) :
    d.addCandidates layer (first ++ rest) =
      match d.addCandidates layer first with
      | (.error fault, d) => (.error fault, d)
      | (.ok (), d) => d.addCandidates layer rest := by
  induction first generalizing d with
  | nil => rfl
  | cons c first ih =>
    rw [List.cons_append, addCandidates, addCandidates]
    rcases d.addCandidate layer c with ⟨_ | _, d'⟩
    · rfl
    · exact ih d'

/-- **Induction along the candidates**: what is carried on when a candidate is entered, and when one
is refused, holds of those that were entered when the derivation ends. It ends early only with a
failure. -/
theorem addCandidates_induction {P : List Candidate → Decoder → Prop} {cs : List Candidate}
    (refused : ∀ {done : List Candidate} {d : Decoder} {store : Store}, P done d →
      d.Steady { d with store } → P done { d with store })
    (enters : ∀ {done : List Candidate} {d d' : Decoder} {sps : Sps} {c : Candidate} {index : Nat}
      {slot : Slot}, c ∈ cs → P done d → d.Enters layer sps c index slot d' →
      P (done ++ [c]) d')
    {done : List Candidate} (h : P done d) :
    ∃ entered rest, cs = entered ++ rest ∧ P (done ++ entered) (d.addCandidates layer cs).2 ∧
      ((d.addCandidates layer cs).1 = .ok () → rest = []) := by
  induction cs generalizing d done with
  | nil => exact ⟨[], [], rfl, by rwa [List.append_nil], fun _ => rfl⟩
  | cons c cs ih =>
    unfold addCandidates
    obtain ⟨fault, store, he, hs⟩ | ⟨sps, index, slot, d', he, hent⟩ := d.addCandidate_cases layer c
    · rw [he]
      refine ⟨[], c :: cs, rfl, ?_, fun hok => by cases hok⟩
      rw [List.append_nil]
      exact refused h hs
    · rw [he]
      obtain ⟨entered, rest, rfl, hp, hok⟩ :=
        ih (fun hc => enters (List.mem_cons_of_mem c hc)) (enters List.mem_cons_self h hent)
      rw [List.append_assoc] at hp
      exact ⟨c :: entered, rest, rfl, hp, hok⟩

theorem deriving_addCandidates (d : Decoder) (layer : Nat) (cs : List Candidate) :
    d.Deriving (d.addCandidates layer cs).2 := by
  obtain ⟨-, -, -, hp, -⟩ := @addCandidates_induction d layer (fun _ d' => d.Deriving d') cs
    (fun h _ => h.trans ⟨⟨_, _, _, rfl⟩, fun _ => rfl⟩) (fun _ h hent => h.trans hent.deriv) []
    (.refl d)
  exact hp

/-- The base layer's current picture as a candidate. -/
def interLayer (poc : Int) : Candidate := ⟨.interLayer0, poc, .shortTerm, true⟩

/-- The base layer's current slot. -/
def baseSlot? (d : Decoder) : Option Slot := d.layers.base.current.bind d.layers.base.dpb.slot?

/-- **What entering the base layer's picture can do.** -/
theorem addInterLayer_cases (d : Decoder) (layer : Nat) :
    (∃ fault store, d.addInterLayer layer = (.error fault, { d with store }) ∧
      d.Steady { d with store }) ∨
    (layer ≠ 0 ∧ d.baseSlot? = none ∧ d.addInterLayer layer = (.ok (), d)) ∨
    (layer ≠ 0 ∧ ∃ base sps index slot d', d.baseSlot? = some base ∧
      d.addInterLayer layer = (.ok (), d') ∧
      d.Enters 0 sps (interLayer base.poc) index slot d') := by
  by_cases hl : layer = 0
  · refine Or.inl ⟨.interLayerOnBaseLayer, d.store, ?_, .refl d⟩
    rw [addInterLayer, if_pos hl]
  · cases hb : d.baseSlot? with
    | none =>
      have heq : d.addInterLayer layer = (.ok (), d) := by
        rw [baseSlot?] at hb
        rw [addInterLayer, if_neg hl, hb]
      exact Or.inr (Or.inl ⟨hl, rfl, heq⟩)
    | some base =>
      have heq : d.addInterLayer layer = d.addCandidate 0 (interLayer base.poc) := by
        rw [baseSlot?] at hb
        rw [addInterLayer, if_neg hl, hb]
        rfl
      obtain ⟨fault, store, he, hs⟩ | ⟨sps, index, slot, d', he, hent⟩ :=
        d.addCandidate_cases 0 (interLayer base.poc)
      · exact Or.inl ⟨fault, store, heq.trans he, hs⟩
      · exact Or.inr (Or.inr ⟨hl, base, sps, index, slot, d', rfl, heq.trans he, hent⟩)

/-- A property of states that the base layer's picture carries on, entered or refused. -/
theorem addInterLayer_preserves {P : Decoder → Prop} (h : P d)
    (refused : ∀ store, d.Steady { d with store } → P { d with store })
    (enters : ∀ {base sps index slot d'}, layer ≠ 0 → d.baseSlot? = some base →
      d.Enters 0 sps (interLayer base.poc) index slot d' → P d') :
    P (d.addInterLayer layer).2 := by
  obtain ⟨fault, store, he, hs⟩ | ⟨-, -, he⟩ | ⟨hl, base, sps, index, slot, d', hb, he, hent⟩ :=
    d.addInterLayer_cases layer
  · rw [he]
    exact refused store hs
  · rw [he]
    exact h
  · rw [he]
    exact enters hl hb hent

/-- After the candidates of the layer comes the base layer's picture, if at all. -/
theorem addHeader_induction {P : Decoder → Prop} {hdr : SliceHeader}
    (h : P (d.addCandidates layer (hdr.candidates d.poc)).2)
    (inter : ∀ {d'}, P d' → P (d'.addInterLayer layer).2) : P (d.addHeader layer hdr).2 := by
  unfold addHeader
  rcases he : d.addCandidates layer (hdr.candidates d.poc) with ⟨_ | _, d'⟩
  · rw [he] at h
    exact h
  · rw [he] at h
    dsimp only
    split
    · exact inter h
    · exact h

/-- **What is carried on by every candidate** that is entered, in either layer, is carried on by all
candidates of a header. -/
theorem addHeader_preserves {P : Decoder → Prop} (hdr : SliceHeader)
    (refused : ∀ {d : Decoder} {store : Store}, P d → d.Steady { d with store } →
      P { d with store })
    (enters : ∀ {d d' : Decoder} {n : Nat} {sps : Sps} {c : Candidate} {index : Nat}
      {slot : Slot}, c.marking ≠ .none → P d → d.Enters n sps c index slot d' → P d')
    (h : P d) : P (d.addHeader layer hdr).2 := by
  obtain ⟨_, _, -, hp, -⟩ := @addCandidates_induction d layer (fun _ => P) (hdr.candidates d.poc)
    refused (fun hc => enters (hdr.marking_ne_none hc)) [] h
  refine addHeader_induction hp fun hp => addInterLayer_preserves hp (fun _ => refused hp) ?_
  exact fun _ _ hent => enters (fun h => by cases h) hp hent

/-! ## The whole of a derivation -/

theorem deriveSets_of_invalid (hg : d.layers.get? layer = none) (hdr : SliceHeader) :
    d.deriveSets layer hdr = (.error (.invalidLayer layer), d) := by
  rw [deriveSets, layer?, hg]

theorem deriveSets_eq {l : Layer} (hg : d.layers.get? layer = some l) (hdr : SliceHeader) :
    d.deriveSets layer hdr =
      (((d.clearSets layer).addHeader layer hdr).1,
        ((d.clearSets layer).addHeader layer hdr).2.onDpb layer Dpb.sweep) := by
  rw [deriveSets, layer?, hg]

theorem sets_onDpb (d : Decoder) (n : Nat) (f : Dpb → Store → Dpb × Store) :
    (d.onDpb n f).sets = d.sets := by
  unfold onDpb
  split <;> rfl

theorem slot?_sweep (d : Decoder) (n : Nat) (ref : SlotRef) :
    (d.onDpb n Dpb.sweep).slot? ref =
      if ref.layer = n then (d.slot? ref).map (·.strip .empty) else d.slot? ref :=
  slot?_stripWhere d n (fun _ => true) .empty ref

theorem deriving_deriveSets (d : Decoder) (layer : Nat) (hdr : SliceHeader) :
    d.Deriving (d.deriveSets layer hdr).2 := by
  cases hg : d.layers.get? layer with
  | none =>
    rw [deriveSets_of_invalid hg]
    exact .refl d
  | some l =>
    rw [deriveSets_eq hg]
    have hadd := @addHeader_preserves _ layer (fun d' => d.Deriving d') hdr
      (fun h _ => h.trans ⟨⟨_, _, _, rfl⟩, fun _ => rfl⟩) (fun _ h hent => h.trans hent.deriv)
      (d.deriving_clearSets layer)
    exact hadd.trans (Deriving.onDpb _ layer Dpb.sweep)

end Decoder

end PictureBuffer
