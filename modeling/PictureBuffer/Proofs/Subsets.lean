import Mathlib.Data.List.Forall2
import PictureBuffer.Proofs.Lookup
import PictureBuffer.Proofs.Soundness

/-!
# The subsets that a derivation makes

A derivation that succeeds sorts the pictures that the slice header describes into the subsets
(`Decoder.Sorts`). The short-term ones are those with the order counts that the deltas give. The
long-term ones have the order count of the header, or one that is congruent to it if the header
gives the low bits only: a stand-in takes the header's value as it is, and a picture that was found
has these low bits (`pocLsb_eq_emod`). The inter-layer one is the base layer's current picture.

A later candidate may be found in the stand-in of an earlier one. This does not matter here: what
an entry says of its candidate holds when it is made (`Decoder.fits_entered`), and entries are
never changed (`Decoder.addCandidates_covers`).
-/

namespace PictureBuffer

/-! ## Candidates and their entries -/

/-- An entry is one of the candidate's picture: it has its order count, or the low bits of it. -/
structure Candidate.Fits (bits : Nat) (c : Candidate) (entry : RefEntry) : Prop where
  full : c.fullPoc = true → entry.poc = c.poc
  low : entry.poc ≡ c.poc [ZMOD 2 ^ bits]

/-- The candidates of one subset, in order. -/
def Subset.ofAll (subset : Subset) (cs : List Candidate) : List Candidate :=
  cs.filter fun c => c.subset = subset

theorem Subset.ofAll_concat (subset : Subset) (cs : List Candidate) (c : Candidate) :
    subset.ofAll (cs ++ [c]) = subset.ofAll cs ++ if c.subset = subset then [c] else [] := by
  rw [ofAll, List.filter_append, List.filter_singleton]
  simp [ofAll]

/-- Every subset has one entry for each of its candidates, in order, and `R` relates the two. -/
def RefSets.Covers (sets : RefSets) (R : Candidate → RefEntry → Prop) (cs : List Candidate) :
    Prop :=
  ∀ subset, List.Forall₂ R (Subset.ofAll subset cs) (sets.get subset).entries

/-- A candidate has an entry in its subset. -/
theorem RefSets.Covers.exists_entry {sets : RefSets} {R : Candidate → RefEntry → Prop}
    {cs : List Candidate} {c : Candidate} (h : sets.Covers R cs) (hc : c ∈ cs) :
    ∃ entry ∈ (sets.get c.subset).entries, R c entry := by
  have hmem : c ∈ Subset.ofAll c.subset cs :=
    List.mem_filter.mpr ⟨hc, decide_eq_true_iff.mpr rfl⟩
  obtain ⟨i, hi, hget⟩ := List.getElem_of_mem hmem
  have hi' : i < (sets.get c.subset).entries.length := (h c.subset).length_eq ▸ hi
  refine ⟨_, List.getElem_mem hi', ?_⟩
  have hR := (List.forall₂_iff_get.mp (h c.subset)).2 i hi hi'
  rwa [List.get_eq_getElem, List.get_eq_getElem, hget] at hR

/-- What follows from `R` for the candidates and the entries that there are. -/
theorem RefSets.Covers.imp {sets : RefSets} {R R' : Candidate → RefEntry → Prop}
    {cs : List Candidate} (h : sets.Covers R cs)
    (hR : ∀ {subset c entry}, c ∈ cs → entry ∈ (sets.get subset).entries → R c entry → R' c entry) :
    sets.Covers R' cs := by
  intro subset
  obtain ⟨hlen, hzip⟩ := List.forall₂_iff_zip.mp (h subset)
  refine List.forall₂_iff_zip.mpr ⟨hlen, fun {c entry} hmem => ?_⟩
  obtain ⟨hc, hentry⟩ := List.of_mem_zip hmem
  exact hR (List.mem_of_mem_filter hc) hentry (hzip hmem)

/-- Every subset has one entry for each of its candidates. -/
def RefSets.Fits (sets : RefSets) (bits : Nat) (cs : List Candidate) : Prop :=
  ∀ subset, List.Forall₂ (Candidate.Fits bits) (Subset.ofAll subset cs) (sets.get subset).entries

namespace Decoder

variable {d₀ d d' : Decoder} {layer n : Nat} {sps : Sps} {c : Candidate} {index : Nat} {slot : Slot}

/-- The entry of a candidate that was looked up by its full order count has it. -/
theorem poc_of_full (hent : d.Enters n sps c index slot d') (hfull : c.fullPoc = true) :
    slot.poc = c.poc := by
  cases hent.source with
  | found _ _ named =>
    rw [Candidate.lookup, if_pos hfull] at named
    exact Dpb.Lookup.names_full_iff.mp named
  | missing _ _ _ hslot =>
    rw [hslot]
    rfl

/-- The entry of a candidate is one of its picture. -/
theorem fits_entered (hbits : sps.log2PocLsb ≤ 30) (hent : d.Enters n sps c index slot d') :
    c.Fits sps.log2PocLsb (c.entry ⟨n, index⟩ slot) := by
  refine ⟨poc_of_full hent, ?_⟩
  change slot.poc ≡ c.poc [ZMOD _]
  cases hent.source with
  | found _ _ named =>
    unfold Candidate.lookup at named
    split at named
    · rename_i hfull
      rw [poc_of_full hent hfull]
    · rw [← (Dpb.Lookup.names_low_iff.mp named).1, pocLsb_eq_emod hbits]
      exact (Int.mod_modEq _ _).symm
  | missing _ _ _ hslot =>
    rw [hslot]
    rfl

/-- All that a slice header names: the candidates of the layer, then the base layer's picture. -/
def named (d : Decoder) (hdr : SliceHeader) : List Candidate :=
  hdr.candidates d.poc ++
    if hdr.interLayer then (d.baseSlot?.map fun base => interLayer base.poc).toList else []

/-- The base layer's picture is the same before and after. -/
theorem baseSlot?_eq (hderiv : d.Deriving d')
    (hslots : ∀ i, d'.slot? ⟨0, i⟩ = d.slot? ⟨0, i⟩) : d'.baseSlot? = d.baseSlot? := by
  have hread : ∀ d : Decoder,
      d.baseSlot? = d.layers.base.current.bind fun i => d.slot? ⟨0, i⟩ := fun _ => rfl
  rw [hread, hread, hderiv.baseCurrent_eq]
  simp only [hslots]

/-! ### Every candidate has an entry -/

section Covers

variable {R : Candidate → RefEntry → Prop} {hdr : SliceHeader}

theorem covers_enters {cs : List Candidate} (h : d.sets.Covers R cs)
    (hent : d.Enters n sps c index slot d') (hR : R c (c.entry ⟨n, index⟩ slot)) :
    d'.sets.Covers R (cs ++ [c]) := by
  intro subset
  rw [hent.sets, RefSets.entries_push hent.room, Subset.ofAll_concat]
  split
  · exact List.rel_append (h subset) (.cons hR .nil)
  · rw [List.append_nil, List.append_nil]
    exact h subset

/-- The candidates of a layer that were all entered: each has its entry, and other layers are left
alone. -/
theorem addCandidates_covers {cs : List Candidate} (hsets : d.sets = {})
    (hR : ∀ {d₁ d₂ sps c index slot}, d.Deriving d₁ → d₁.Enters layer sps c index slot d₂ →
      R c (c.entry ⟨layer, index⟩ slot))
    (hok : (d.addCandidates layer cs).1 = .ok ()) :
    (d.addCandidates layer cs).2.sets.Covers R cs ∧ d.Deriving (d.addCandidates layer cs).2 ∧
      ∀ ref, ref.layer ≠ layer → (d.addCandidates layer cs).2.slot? ref = d.slot? ref := by
  let P (done : List Candidate) (d' : Decoder) : Prop :=
    d'.sets.Covers R done ∧ d.Deriving d' ∧
      ∀ ref, ref.layer ≠ layer → d'.slot? ref = d.slot? ref
  have start : P [] d := by
    refine ⟨fun subset => ?_, .refl d, fun _ _ => rfl⟩
    rw [hsets]
    cases subset <;> exact .nil
  have refused : ∀ {done d' store}, P done d' → d'.Steady { d' with store } →
      P done { d' with store } :=
    fun hp _ => ⟨hp.1, hp.2.1.trans ⟨⟨_, _, _, rfl⟩, fun _ => rfl⟩, hp.2.2⟩
  have enters : ∀ {done d₁ d₂ sps c index slot}, c ∈ cs → P done d₁ →
      d₁.Enters layer sps c index slot d₂ → P (done ++ [c]) d₂ := by
    intro done d₁ d₂ sps c index slot _ hp hent
    refine ⟨covers_enters hp.1 hent (hR hp.2.1 hent), hp.2.1.trans hent.deriv, fun ref hl => ?_⟩
    rw [hent.others ref fun hr => hl (by rw [hr])]
    exact hp.2.2 ref hl
  obtain ⟨entered, rest, rfl, hp, hrest⟩ := addCandidates_induction (P := P) refused enters start
  obtain rfl := hrest hok
  rw [List.append_nil] at hp ⊢
  exact hp

theorem addHeader_covers (hsets : d.sets = {})
    (hown : ∀ {d₁ d₂ sps c index slot}, d.Deriving d₁ → d₁.Enters layer sps c index slot d₂ →
      R c (c.entry ⟨layer, index⟩ slot))
    (hbase : ∀ {d₁ d₂ : Decoder} {sps poc index slot},
      d₁.Enters 0 sps (interLayer poc) index slot d₂ →
      R (interLayer poc) ((interLayer poc).entry ⟨0, index⟩ slot))
    (hok : (d.addHeader layer hdr).1 = .ok ()) :
    (d.addHeader layer hdr).2.sets.Covers R (d.named hdr) ∧
      (hdr.interLayer = true → layer ≠ 0) := by
  unfold addHeader at hok ⊢
  rcases he : d.addCandidates layer (hdr.candidates d.poc) with ⟨_ | _, d'⟩
  · rw [he] at hok
    cases hok
  · obtain ⟨hcovers, hderiv, hothers⟩ := addCandidates_covers hsets hown (congrArg Prod.fst he)
    rw [he] at hok hcovers hderiv hothers
    dsimp only at hok ⊢
    cases hi : hdr.interLayer with
    | false =>
      rw [if_neg Bool.false_ne_true, named, hi, if_neg Bool.false_ne_true, List.append_nil]
      exact ⟨hcovers, fun h => by cases h⟩
    | true =>
      rw [hi, if_pos rfl] at hok
      rw [if_pos rfl, named, hi, if_pos rfl]
      have hsame : layer ≠ 0 → d'.baseSlot? = d.baseSlot? :=
        fun hl => baseSlot?_eq hderiv fun i => hothers ⟨0, i⟩ hl.symm
      obtain ⟨fault, store, he', -⟩ | ⟨hl, hnone, he'⟩ |
        ⟨hl, base, sps', index, slot, d'', hsome, he', hent⟩ := d'.addInterLayer_cases layer
      · rw [he'] at hok
        cases hok
      · rw [he', ← hsame hl, hnone, Option.map_none, Option.toList_none, List.append_nil]
        exact ⟨hcovers, fun _ => hl⟩
      · rw [he', ← hsame hl, hsome, Option.map_some, Option.toList_some]
        exact ⟨covers_enters hcovers hent (hbase hent), fun _ => hl⟩

/-- **Every subset has one entry for each of its candidates** after a derivation that succeeds. What
holds of each candidate and its entry when it is entered holds of them in the end. -/
theorem deriveSets_covers
    (hown : ∀ {d₁ d₂ sps c index slot}, d.Deriving d₁ → d₁.Enters layer sps c index slot d₂ →
      R c (c.entry ⟨layer, index⟩ slot))
    (hbase : ∀ {d₁ d₂ : Decoder} {sps poc index slot},
      d₁.Enters 0 sps (interLayer poc) index slot d₂ →
      R (interLayer poc) ((interLayer poc).entry ⟨0, index⟩ slot))
    (hok : (d.deriveSets layer hdr).1 = .ok ()) :
    (d.deriveSets layer hdr).2.sets.Covers R (d.named hdr) := by
  cases hg : d.layers.get? layer with
  | none =>
    rw [deriveSets_of_invalid hg] at hok
    cases hok
  | some l =>
    rw [deriveSets_eq hg] at hok ⊢
    have hderiv := d.deriving_clearSets layer
    obtain ⟨hcovers, hl⟩ := addHeader_covers rfl (fun h => hown (hderiv.trans h)) hbase hok
    dsimp only
    rw [sets_onDpb]
    have hnamed : (d.clearSets layer).named hdr = d.named hdr := by
      unfold named
      rw [hderiv.poc_eq]
      cases hi : hdr.interLayer with
      | false => rfl
      | true =>
        have hslots : ∀ i, (d.clearSets layer).slot? ⟨0, i⟩ = d.slot? ⟨0, i⟩ := by
          intro i
          rw [slot?_clearSets, if_neg (hl hi).symm]
        rw [baseSlot?_eq hderiv hslots]
    rw [← hnamed]
    exact hcovers

end Covers

/-- The entries of a derivation that succeeds are those of the candidates' pictures. -/
theorem deriveSets_fits {hdr : SliceHeader} (hsps : d.sps? layer = some sps)
    (hbits : sps.log2PocLsb ≤ 30) (hok : (d.deriveSets layer hdr).1 = .ok ()) :
    (d.deriveSets layer hdr).2.sets.Fits sps.log2PocLsb (d.named hdr) := by
  refine deriveSets_covers (fun {d₁ d₂ sps' c index slot} hderiv hent => ?_)
    (fun {d₁ d₂ sps' poc index slot} hent => ⟨fun _ => poc_of_full hent rfl, ?_⟩) hok
  · obtain rfl : sps' = sps := by
      have heq := hent.sps_eq
      rw [hderiv.sps?_eq, hsps] at heq
      exact (Option.some.inj heq).symm
    exact fits_entered hbits hent
  · change slot.poc ≡ _ [ZMOD _]
    rw [poc_of_full hent rfl]

end Decoder

/-! ## What the header describes -/

namespace ShortTermSet

/-- The current picture may use the picture at a position. -/
def isUsed (st : ShortTermSet) (i : Nat) : Bool := st.used[i]?.getD false

/-- The deltas at the chosen positions, in header order. -/
def chosen (st : ShortTermSet) (choose : Nat → Bool) : List Int :=
  (st.deltas.zipIdx.filter fun delta => choose delta.2).map (·.1)

/-- The order counts of the pictures at the chosen positions, in header order. They are words of 32
bits. -/
def pocs (st : ShortTermSet) (poc : Int) (choose : Nat → Bool) : List Int :=
  (st.chosen choose).map fun delta => wrapSigned 32 (poc + delta)

/-- Order counts in range are those that the deltas give. -/
theorem pocs_of_fits {st : ShortTermSet} {poc : Int}
    (h : ∀ delta ∈ st.deltas, FitsSigned 32 (poc + delta)) (choose : Nat → Bool) :
    st.pocs poc choose = (st.chosen choose).map (poc + ·) := by
  refine List.map_congr_left fun delta hdelta => wrapSigned_of_fits (h delta ?_)
  obtain ⟨⟨delta, i⟩, hmem, rfl⟩ := List.mem_map.mp hdelta
  exact List.fst_mem_of_mem_zipIdx (List.mem_of_mem_filter hmem)

end ShortTermSet

namespace LongTermSet

def isUsed (lt : LongTermSet) (i : Nat) : Bool := lt.used[i]?.getD false

/-- All of the order count at a position is given. -/
def isFull (lt : LongTermSet) (i : Nat) : Bool := lt.fullPoc[i]?.getD false

/-- The header's values at the chosen positions, with their positions. -/
def chosen (lt : LongTermSet) (choose : Nat → Bool) : List (Int × Nat) :=
  lt.pocs.zipIdx.filter fun value => choose value.2

/-- An entry is one of the picture that a value of the header means: it has this order count, or,
if only the low bits are given, one that is congruent to it. -/
structure Means (lt : LongTermSet) (bits : Nat) (value : Int × Nat) (entry : RefEntry) : Prop where
  full : lt.isFull value.2 = true → entry.poc = value.1
  low : entry.poc ≡ value.1 [ZMOD 2 ^ bits]

end LongTermSet

/-- **The subsets sort what the header describes.** -/
structure Decoder.Sorts (d : Decoder) (bits : Nat) (hdr : SliceHeader) (sets : RefSets) : Prop where
  shortTerm : ∀ st, hdr.shortTerm = some st →
    sets.stCurrBefore.pocs =
      st.pocs d.poc (fun i => st.isUsed i && decide (i < st.numNegative)) ∧
    sets.stCurrAfter.pocs =
      st.pocs d.poc (fun i => st.isUsed i && decide (st.numNegative ≤ i)) ∧
    sets.stFoll.pocs = st.pocs d.poc (fun i => !st.isUsed i)
  /-- Order counts that do not wrap are those that the deltas give. -/
  inRange : ∀ st, hdr.shortTerm = some st →
    (∀ delta ∈ st.deltas, FitsSigned 32 (d.poc + delta)) →
    ∀ choose, st.pocs d.poc choose = (st.chosen choose).map (d.poc + ·)
  longTerm : hdr.shortTerm ≠ none →
    List.Forall₂ (hdr.longTerm.Means bits) (hdr.longTerm.chosen hdr.longTerm.isUsed)
      sets.ltCurr.entries ∧
    List.Forall₂ (hdr.longTerm.Means bits) (hdr.longTerm.chosen fun i => !hdr.longTerm.isUsed i)
      sets.ltFoll.entries
  absent : hdr.shortTerm = none → ∀ subset ∈ Subset.shortTerms ++ Subset.longTerms,
    (sets.get subset).entries = []
  interLayer : hdr.interLayer = true → ∀ i, d.layers.base.current = some i →
    ∃ slot, d.slot? ⟨0, i⟩ = some slot ∧ sets.interLayer0.pocs = [slot.poc]
  noInterLayer : hdr.interLayer = false ∨ d.layers.base.current = none →
    sets.interLayer0.pocs = []
  unused : sets.interLayer1.entries = []

/-! ### The candidates of each subset -/

namespace Subset

variable {subset : Subset} {cs : List Candidate} {poc : Int}

theorem ofAll_eq_nil (h : ∀ c ∈ cs, c.subset ≠ subset) : subset.ofAll cs = [] := by
  rw [ofAll, List.filter_eq_nil_iff]
  intro c hc
  simpa using h c hc

/-- The short-term candidates of a subset are the chosen deltas. -/
theorem ofAll_shortTerm (st : ShortTermSet) (poc : Int) (subset : Subset) {chosen : Nat → Bool}
    (h : ∀ i, (if !st.isUsed i then .stFoll
      else if i < st.numNegative then .stCurrBefore else .stCurrAfter) = subset ↔
        chosen i = true) :
    (subset.ofAll (SliceHeader.shortTermCandidates st poc)).map (·.poc) = st.pocs poc chosen := by
  unfold ofAll SliceHeader.shortTermCandidates ShortTermSet.pocs ShortTermSet.chosen
  rw [List.mapIdx_eq_zipIdx_map, List.filter_map, List.map_map, List.map_map]
  congr 1
  refine List.filter_congr fun delta _ => ?_
  rw [Bool.eq_iff_iff, ← h]
  simp [ShortTermSet.isUsed]

/-- The long-term candidates of a subset are the chosen values. -/
theorem means_of_fits {lt : LongTermSet} {subset : Subset} {bits : Nat} {entries : List RefEntry}
    {choose : Nat → Bool}
    (h : ∀ i, (if lt.isUsed i then .ltCurr else .ltFoll) = subset ↔ choose i = true)
    (hf : List.Forall₂ (Candidate.Fits bits) (subset.ofAll (SliceHeader.longTermCandidates lt))
      entries) : List.Forall₂ (lt.Means bits) (lt.chosen choose) entries := by
  unfold ofAll SliceHeader.longTermCandidates at hf
  rw [List.mapIdx_eq_zipIdx_map, List.filter_map, List.forall₂_map_left_iff] at hf
  have hchosen : lt.chosen choose =
      lt.pocs.zipIdx.filter fun value =>
        decide ((if lt.isUsed value.2 then Subset.ltCurr else .ltFoll) = subset) := by
    refine List.filter_congr fun value _ => ?_
    rw [Bool.eq_iff_iff, ← h, decide_eq_true_iff]
  rw [hchosen]
  exact hf.imp fun _ _ hfits => ⟨hfits.full, hfits.low⟩

theorem ofAll_append (subset : Subset) (cs cs' : List Candidate) :
    subset.ofAll (cs ++ cs') = subset.ofAll cs ++ subset.ofAll cs' := List.filter_append _ _

end Subset

/-- The entries of candidates with full order counts. -/
theorem pocs_of_fits {bits : Nat} {cs : List Candidate} {entries : List RefEntry}
    (h : List.Forall₂ (Candidate.Fits bits) cs entries) (hfull : ∀ c ∈ cs, c.fullPoc = true) :
    entries.map (·.poc) = cs.map (·.poc) := by
  induction h with
  | nil => rfl
  | cons hc _ ih =>
    rw [List.map_cons, List.map_cons, hc.full (hfull _ List.mem_cons_self),
      ih fun c hc => hfull c (List.mem_cons_of_mem _ hc)]

namespace Decoder

variable {d d' : Decoder} {hdr : SliceHeader} {subset : Subset} {st : ShortTermSet} {bits : Nat}
  {sets : RefSets}

/-- What the header names as inter-layer reference. -/
theorem subset_of_interLayer {c : Candidate} (h : c ∈ if hdr.interLayer then
    (d.baseSlot?.map fun base => interLayer base.poc).toList else []) :
    c.subset = .interLayer0 ∧ c.fullPoc = true := by
  split at h
  · obtain ⟨base, -, rfl⟩ := Option.map_eq_some_iff.mp (Option.mem_toList.mp h)
    exact ⟨rfl, rfl⟩
  · cases h

/-- The layer's own candidates have the other subsets. -/
theorem ofAll_named (h : subset ≠ .interLayer0) :
    subset.ofAll (d.named hdr) = subset.ofAll (hdr.candidates d.poc) := by
  have hnil : subset.ofAll (if hdr.interLayer then
      (d.baseSlot?.map fun base => interLayer base.poc).toList else []) = [] := by
    refine Subset.ofAll_eq_nil fun c hc => ?_
    rw [(subset_of_interLayer hc).1]
    exact h.symm
  rw [named, Subset.ofAll_append, hnil, List.append_nil]

theorem subset_of_candidates {c : Candidate} {poc : Int} (h : c ∈ hdr.candidates poc) :
    c.subset ∈ Subset.shortTerms ++ Subset.longTerms := by
  obtain ⟨first, rest, he, hfirst, hrest⟩ := hdr.candidates_eq poc
  rw [he, List.mem_append] at h
  rcases h with h | h
  · exact List.mem_append_left _ (hfirst c h).2
  · exact List.mem_append_right _ (hrest c h).2

theorem ofAll_interLayer0 : Subset.interLayer0.ofAll (d.named hdr) =
    if hdr.interLayer then (d.baseSlot?.map fun base => interLayer base.poc).toList else [] := by
  have hown : Subset.interLayer0.ofAll (hdr.candidates d.poc) = [] := by
    refine Subset.ofAll_eq_nil fun c hc hs => ?_
    have hm := subset_of_candidates hc
    rw [hs] at hm
    simp [Subset.shortTerms, Subset.longTerms] at hm
  rw [named, Subset.ofAll_append, hown, List.nil_append]
  exact List.filter_eq_self.mpr fun c hc => by simpa using (subset_of_interLayer hc).1

theorem ofAll_interLayer1 : Subset.interLayer1.ofAll (d.named hdr) = [] := by
  rw [ofAll_named (by decide)]
  refine Subset.ofAll_eq_nil fun c hc hs => ?_
  have hm := subset_of_candidates hc
  rw [hs] at hm
  simp [Subset.shortTerms, Subset.longTerms] at hm

theorem ofAll_candidates_shortTerm (hst : hdr.shortTerm = some st)
    (hs : subset ∈ Subset.shortTerms) (poc : Int) :
    subset.ofAll (hdr.candidates poc) = subset.ofAll (SliceHeader.shortTermCandidates st poc) := by
  have hlong : subset.ofAll (SliceHeader.longTermCandidates hdr.longTerm) = [] := by
    refine Subset.ofAll_eq_nil fun c hc => ?_
    rintro rfl
    exact Subset.not_mem_longTerms hs (SliceHeader.mem_longTermCandidates hc).2
  rw [SliceHeader.candidates, hst, Subset.ofAll_append, hlong, List.append_nil]

theorem ofAll_candidates_longTerm (hst : hdr.shortTerm = some st)
    (hs : subset ∈ Subset.longTerms) (poc : Int) :
    subset.ofAll (hdr.candidates poc) =
      subset.ofAll (SliceHeader.longTermCandidates hdr.longTerm) := by
  have hshort : subset.ofAll (SliceHeader.shortTermCandidates st poc) = [] := by
    refine Subset.ofAll_eq_nil fun c hc => ?_
    rintro rfl
    exact Subset.not_mem_longTerms (SliceHeader.mem_shortTermCandidates hc).2.2 hs
  rw [SliceHeader.candidates, hst, Subset.ofAll_append, hshort, List.nil_append]

theorem pocs_shortTerm (h : sets.Fits bits (d.named hdr)) (hst : hdr.shortTerm = some st)
    (subset : Subset) (hs : subset ∈ Subset.shortTerms) {chosen : Nat → Bool}
    (hchosen : ∀ i, (if !st.isUsed i then .stFoll
      else if i < st.numNegative then .stCurrBefore else .stCurrAfter) = subset ↔
        chosen i = true) : (sets.get subset).pocs = st.pocs d.poc chosen := by
  have hne : subset ≠ .interLayer0 := by
    rintro rfl
    simp [Subset.shortTerms] at hs
  have hf := h subset
  rw [ofAll_named hne, ofAll_candidates_shortTerm hst hs] at hf
  rw [← Subset.ofAll_shortTerm st d.poc subset hchosen]
  exact pocs_of_fits hf fun c hc =>
    (SliceHeader.mem_shortTermCandidates (List.mem_of_mem_filter hc)).2.1

theorem means_longTerm (h : sets.Fits bits (d.named hdr)) (hst : hdr.shortTerm = some st)
    (subset : Subset) (hs : subset ∈ Subset.longTerms) {choose : Nat → Bool}
    (hchosen : ∀ i, (if hdr.longTerm.isUsed i then .ltCurr else .ltFoll) = subset ↔
      choose i = true) :
    List.Forall₂ (hdr.longTerm.Means bits) (hdr.longTerm.chosen choose)
      (sets.get subset).entries := by
  have hne : subset ≠ .interLayer0 := by
    rintro rfl
    simp [Subset.longTerms] at hs
  have hf := h subset
  rw [ofAll_named hne, ofAll_candidates_longTerm hst hs] at hf
  exact Subset.means_of_fits hchosen hf

theorem pocs_interLayer0 (h : sets.Fits bits (d.named hdr)) : sets.interLayer0.pocs =
    if hdr.interLayer then (d.baseSlot?.map (·.poc)).toList else [] := by
  have hf := h .interLayer0
  rw [ofAll_interLayer0] at hf
  refine (pocs_of_fits hf fun c hc => (subset_of_interLayer hc).2).trans ?_
  split
  · cases d.baseSlot? <;> rfl
  · rfl

/-- Entries that fit the candidates sort what the header describes. -/
theorem sorts_of_fits (h : sets.Fits bits (d.named hdr))
    (hbase : ∀ i, d.layers.base.current = some i → ∃ slot, d.slot? ⟨0, i⟩ = some slot) :
    d.Sorts bits hdr sets := by
  have hread : d.baseSlot? = d.layers.base.current.bind fun i => d.slot? ⟨0, i⟩ := rfl
  have hinter := pocs_interLayer0 h
  constructor
  · intro st hst
    refine ⟨pocs_shortTerm h hst .stCurrBefore (by decide) fun i => ?_,
      pocs_shortTerm h hst .stCurrAfter (by decide) fun i => ?_,
      pocs_shortTerm h hst .stFoll (by decide) fun i => ?_⟩
    · cases st.isUsed i <;> simp
    · cases st.isUsed i <;> simp
    · cases st.isUsed i <;> simp
      split <;> simp
  · exact fun st _ hfits choose => st.pocs_of_fits hfits choose
  · intro hne
    obtain ⟨st, hst⟩ := Option.ne_none_iff_exists'.mp hne
    refine ⟨means_longTerm h hst .ltCurr (by decide) fun i => ?_,
      means_longTerm h hst .ltFoll (by decide) fun i => ?_⟩
    · cases hdr.longTerm.isUsed i <;> simp
    · cases hdr.longTerm.isUsed i <;> simp
  · intro hst subset hs
    have hne : subset ≠ .interLayer0 := by
      rintro rfl
      simp [Subset.shortTerms, Subset.longTerms] at hs
    have hf := h subset
    rw [ofAll_named hne, SliceHeader.candidates, hst] at hf
    exact List.forall₂_nil_left_iff.mp hf
  · intro hi i hcurrent
    obtain ⟨slot, hslot⟩ := hbase i hcurrent
    refine ⟨slot, hslot, ?_⟩
    rw [hinter, if_pos hi, hread, hcurrent, Option.bind_some, hslot]
    rfl
  · rintro (hi | hcurrent)
    · rw [hinter, hi, if_neg Bool.false_ne_true]
    · rw [hinter, hread, hcurrent]
      simp
  · have hf := h .interLayer1
    rw [ofAll_interLayer1] at hf
    exact List.forall₂_nil_left_iff.mp hf

/-! ## The base layer's current slot -/

/-- The current slot of the base layer is one of the buffer. -/
def BasePlaced (d : Decoder) : Prop :=
  ∀ i, d.layers.base.current = some i → ∃ slot, d.slot? ⟨0, i⟩ = some slot

/-- A derivation keeps every slot. -/
theorem slot?_deriveSets {ref : SlotRef} {old : Slot} (hs : d.slot? ref = some old) (layer : Nat)
    (hdr : SliceHeader) : ∃ slot, (d.deriveSets layer hdr).2.slot? ref = some slot := by
  cases hg : d.layers.get? layer with
  | none =>
    rw [deriveSets_of_invalid hg]
    exact ⟨old, hs⟩
  | some l =>
    have hclear : ∃ slot, (d.clearSets layer).slot? ref = some slot := by
      rw [slot?_clearSets, hs]
      split
      · exact ⟨_, rfl⟩
      · exact ⟨_, rfl⟩
    obtain ⟨slot, hslot⟩ : ∃ slot, ((d.clearSets layer).addHeader layer hdr).2.slot? ref =
        some slot := by
      refine addHeader_preserves (P := fun d' => ∃ slot, d'.slot? ref = some slot) hdr
        (fun h _ => h) ?_ hclear
      intro d d' n sps c index slot _ h hent
      by_cases hr : ref = ⟨n, index⟩
      · exact ⟨_, hr ▸ hent.marked⟩
      · rw [hent.others ref hr]
        exact h
    rw [deriveSets_eq hg]
    dsimp only
    rw [slot?_sweep, hslot]
    split
    · exact ⟨_, rfl⟩
    · exact ⟨_, rfl⟩

theorem BasePlaced.ages (h : d.BasePlaced) (hages : d.Ages d') : d'.BasePlaced := by
  intro i hi
  obtain ⟨old, hs⟩ := h i (hages.baseCurrent i hi)
  obtain ⟨slot, hslot, -⟩ := hages.slot_of_old hs
  exact ⟨slot, hslot⟩

theorem BasePlaced.begins {layer index : Nat} {info : PictureInfo} (h : d.BasePlaced)
    (hbegins : d.Begins layer info index d') : d'.BasePlaced := by
  intro i hi
  rw [hbegins.baseCurrent] at hi
  by_cases hr : (⟨0, i⟩ : SlotRef) = ⟨layer, index⟩
  · obtain ⟨sps, frame, hs⟩ := hbegins.entered
    exact ⟨_, hr ▸ hs⟩
  · rw [hbegins.others _ hr]
    split at hi
    · rename_i hl
      cases hi
      exact absurd (by rw [hl]) hr
    · exact h i hi

theorem BasePlaced.run (h : d.BasePlaced) (command : Command) : (d.run command).2.BasePlaced := by
  cases command with
  | startPicture layer info =>
    obtain ⟨fault, -, hages, -⟩ | ⟨index, -, hbegins⟩ := d.startPicture_slots layer info
    · exact h.ages hages
    · exact h.begins hbegins
  | deriveSets layer hdr =>
    intro i hi
    obtain ⟨slot, hs⟩ := h i ((d.deriving_deriveSets layer hdr).baseCurrent_eq.symm.trans hi)
    exact slot?_deriveSets hs layer hdr
  | _ => exact h.ages (d.ages_run trivial)

end Decoder

/-! ## Sessions -/

namespace Session

variable {config : Config} {provider : Provider} {log : List Moment} {s : Session} {i : Nat}
  {d : Decoder}

theorem basePlaced_run (run : Run config provider log s) :
    ∀ i d, s.decoder? i = some d → d.BasePlaced := by
  induction run with
  | start =>
    intro i d hd
    obtain ⟨hc, -⟩ := decoder?_eq hd
    rcases i with _ | i
    · intro k hk
      rw [← Option.some.inj hc] at hk
      cases hk
    · cases hc
  | step run e ih =>
    intro j d hd
    obtain ⟨i, old, hold, ⟨command, rfl, rfl⟩ | ⟨owns, hcontext⟩⟩ := decoder?_step hd
    · exact (ih i old hold).run command
    · intro k hk
      rw [Decoder.slot?, Decoder.layer?]
      rw [hcontext] at hk ⊢
      exact ih i old hold k hk

/-- **A derivation that succeeds sorts the pictures that the slice header describes into the
subsets**, in every state of every run. The order counts of the short-term ones are exactly those
that the deltas give, if these are words of 32 bits. -/
theorem deriveSets_sorts (run : Run config provider log s) (hd : s.decoder? i = some d)
    {layer : Nat} {sps : Sps} (hsps : d.sps? layer = some sps) (hbits : sps.log2PocLsb ≤ 30)
    {hdr : SliceHeader} (hok : (d.deriveSets layer hdr).1 = .ok ()) :
    d.Sorts sps.log2PocLsb hdr (d.deriveSets layer hdr).2.sets :=
  Decoder.sorts_of_fits (Decoder.deriveSets_fits hsps hbits hok) (basePlaced_run run i d hd)

/-- Order counts are transmitted with four bits. The enhancement layer holds a picture of order
count `20`, and in both layers one of `22` has begun. -/
def fourBits : List Event :=
  [.run 0 (.setSps 0 { width := 2, height := 2, log2PocLsb := 4 }),
    .run 0 (.setSps 1 { width := 2, height := 2, log2PocLsb := 4 }),
    .run 0 (.startPicture 1 { poc := 20, output := true, numSlices := 1, pps := {} }),
    .run 0 (.startPicture 0 { poc := 22, output := true, numSlices := 1, pps := {} }),
    .run 0 (.startPicture 1 { poc := 22, output := true, numSlices := 1, pps := {} })]

/-- A picture that is missing, one that is found by its low bits, and the base layer's one. -/
def threeReferences : SliceHeader where
  shortTerm := some { deltas := [-1], used := [true], numNegative := 1 }
  longTerm := { pocs := [4], used := [true] }
  interLayer := true

/-- The subsets of a picture with three references. -/
theorem threeReferences_sorts : ∃ log d sps,
    Run {} {} log ((start {} {}).afterAll fourBits) ∧
    ((start {} {}).afterAll fourBits).decoder? 0 = some d ∧ d.sps? 1 = some sps ∧
    sps.log2PocLsb ≤ 30 ∧ (d.deriveSets 1 threeReferences).1 = .ok () ∧
    (d.deriveSets 1 threeReferences).2.sets.stCurrBefore.pocs = [21] ∧
    (d.deriveSets 1 threeReferences).2.sets.ltCurr.pocs = [20] ∧
    d.Sorts sps.log2PocLsb threeReferences (d.deriveSets 1 threeReferences).2.sets := by
  have run := run_all fourBits (@Run.start {} {})
  obtain ⟨d, hd⟩ : ∃ d, ((start {} {}).afterAll fourBits).decoder? 0 = some d := ⟨_, rfl⟩
  obtain ⟨sps, hsps, hbits⟩ : ∃ sps, d.sps? 1 = some sps ∧ sps.log2PocLsb ≤ 30 := by
    cases hd
    exact ⟨_, rfl, by decide⟩
  have hok : (d.deriveSets 1 threeReferences).1 = .ok () := by
    cases hd
    rfl
  have hpocs : (d.deriveSets 1 threeReferences).2.sets.ltCurr.pocs = [20] := by
    cases hd
    decide +kernel
  have hsorts := deriveSets_sorts run hd hsps hbits hok
  have hbefore : (d.deriveSets 1 threeReferences).2.sets.stCurrBefore.pocs = [21] := by
    have hpoc : d.poc = 22 := by
      cases hd
      rfl
    rw [(hsorts.shortTerm _ rfl).1, hsorts.inRange _ rfl (by rw [hpoc]; decide), hpoc]
    rfl
  exact ⟨_, d, sps, run, hd, hsps, hbits, hok, hbefore, hpocs, hsorts⟩

end Session

end PictureBuffer
