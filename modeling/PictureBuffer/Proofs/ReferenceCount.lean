import PictureBuffer.Proofs.Subsets

/-!
# The number of usable references

The number of pictures that the current picture may refer to (7-55) is known twice: a slice header
gives it as a count of flags (`SliceHeader.numUsableRefs`), and a derivation leaves subsets whose
sizes add up to it (`RefSets.numUsable`).

The two agree when the derivation succeeds (`deriveSets_numUsable`), because it then has made one
entry for each candidate (`Decoder.deriveSets_covers`): none was skipped, and none found its subset
full. What is left is to count the candidates of the usable subsets. A short-term one is usable if
its flag is set; a flag beyond the last delta is not counted, and a delta without a flag is not
usable, so these lists may differ in length. The long-term flags are counted without regard to the
order counts that they annotate. There the lists must have the same length, and the long-term set
must not come alone, since it is then not read.
-/

namespace PictureBuffer

/-! ## Counting flags -/

/-- The set flags among the first ones are the positions that read as set. -/
theorem count_true_take (flags : List Bool) (n : Nat) :
    (flags.take n).count true = (List.range n).countP fun i => flags[i]?.getD false := by
  induction n with
  | zero => simp
  | succ n ih =>
    rw [List.take_add_one, List.count_append, List.range_succ, List.countP_append, ih]
    congr 1
    rcases h : flags[n]? with _ | _ | _ <;> simp [h]

/-- The chosen positions of a list are counted without its elements. -/
theorem length_filter_zipIdx {α : Type} (l : List α) (choose : Nat → Bool) :
    (l.zipIdx.filter fun x => choose x.2).length = (List.range l.length).countP choose := by
  rw [← List.countP_eq_length_filter, List.range_eq_range', ← List.zipIdx_map_snd,
    List.countP_map]
  rfl

/-! ## The usable candidates -/

namespace Subset

theorem length_ofAll_shortTerm (st : ShortTermSet) (poc : Int) (subset : Subset)
    (chosen : Nat → Bool)
    (h : ∀ i, (if !st.isUsed i then .stFoll
      else if i < st.numNegative then .stCurrBefore else .stCurrAfter) = subset ↔
        chosen i = true) :
    (subset.ofAll (SliceHeader.shortTermCandidates st poc)).length =
      (List.range st.deltas.length).countP chosen := by
  have hpocs := congrArg List.length (ofAll_shortTerm st poc subset h)
  rw [List.length_map, ShortTermSet.pocs, List.length_map, ShortTermSet.chosen, List.length_map,
    length_filter_zipIdx] at hpocs
  exact hpocs

/-- The usable short-term candidates are those with a flag. -/
theorem length_usable_shortTerm (st : ShortTermSet) (poc : Int) :
    (stCurrBefore.ofAll (SliceHeader.shortTermCandidates st poc)).length +
        (stCurrAfter.ofAll (SliceHeader.shortTermCandidates st poc)).length =
      (st.used.take st.deltas.length).count true := by
  have hbefore := length_ofAll_shortTerm st poc stCurrBefore
    (fun i => st.isUsed i && decide (i < st.numNegative)) fun i => by
      cases st.isUsed i <;> simp
  have hafter := length_ofAll_shortTerm st poc stCurrAfter
    (fun i => st.isUsed i && !decide (i < st.numNegative)) fun i => by
      cases st.isUsed i <;> simp
  have hsplit := List.countP_eq_countP_filter_add (List.range st.deltas.length) st.isUsed
    fun i => decide (i < st.numNegative)
  rw [List.countP_filter, List.countP_filter] at hsplit
  rw [hbefore, hafter, ← hsplit, count_true_take]
  rfl

/-- The usable long-term candidates are those with a flag. -/
theorem length_usable_longTerm (lt : LongTermSet) :
    (ltCurr.ofAll (SliceHeader.longTermCandidates lt)).length =
      (lt.used.take lt.pocs.length).count true := by
  rw [ofAll, SliceHeader.longTermCandidates, List.mapIdx_eq_zipIdx_map, List.filter_map,
    List.length_map, count_true_take, ← length_filter_zipIdx]
  congr 1
  refine List.filter_congr fun value _ => ?_
  simp only [Function.comp_apply]
  cases lt.used[value.2]?.getD false <;> rfl

end Subset

/-! ## The two counts -/

namespace Decoder

variable {d : Decoder} {layer : Nat} {hdr : SliceHeader} {st : ShortTermSet}

/-- The sizes of the subsets are the numbers of their candidates. -/
theorem length_deriveSets (hok : (d.deriveSets layer hdr).1 = .ok ()) (subset : Subset) :
    ((d.deriveSets layer hdr).2.sets.get subset).length = (subset.ofAll (d.named hdr)).length := by
  have hcovers := deriveSets_covers (R := fun _ _ => True) (fun _ _ => trivial)
    (fun _ => trivial) hok
  exact (hcovers subset).length_eq.symm

/-- The base layer's picture counts as one. -/
theorem length_interLayer0 (hplaced : d.BasePlaced)
    (hbase : hdr.interLayer = true → d.layers.base.current.isSome = true) :
    (Subset.interLayer0.ofAll (d.named hdr)).length = hdr.interLayer.toNat := by
  rw [ofAll_interLayer0]
  cases hi : hdr.interLayer with
  | false => rfl
  | true =>
    obtain ⟨i, hcurrent⟩ := Option.isSome_iff_exists.mp (hbase hi)
    obtain ⟨slot, hslot⟩ := hplaced i hcurrent
    have hread : d.baseSlot? = some slot := by
      rw [← hslot, baseSlot?, hcurrent]
      rfl
    rw [if_pos rfl, hread]
    rfl

/-- The number of usable references that a derivation has found. -/
theorem numUsable_deriveSets (hplaced : d.BasePlaced)
    (hok : (d.deriveSets layer hdr).1 = .ok ())
    (hused : hdr.longTerm.used.length = hdr.longTerm.pocs.length)
    (halone : hdr.shortTerm = none → hdr.longTerm.pocs = [])
    (hbase : hdr.interLayer = true → d.layers.base.current.isSome = true) (pps : Pps) :
    (d.deriveSets layer hdr).2.sets.numUsable + pps.currentPicRef.toNat =
      hdr.numUsableRefs pps := by
  have hlength := length_deriveSets hok
  have hbefore := hlength .stCurrBefore
  have hafter := hlength .stCurrAfter
  have hlong := hlength .ltCurr
  have hinter := (hlength .interLayer0).trans (length_interLayer0 hplaced hbase)
  have hunused := hlength .interLayer1
  rw [ofAll_interLayer1, List.length_nil] at hunused
  rw [ofAll_named (by decide)] at hbefore hafter hlong
  simp only [RefSets.get] at hbefore hafter hlong hinter hunused
  rw [RefSets.numUsable, SliceHeader.numUsableRefs, hinter, hunused]
  cases hst : hdr.shortTerm with
  | none =>
    have hflags : hdr.longTerm.used = [] := by
      rw [← List.length_eq_zero_iff, hused, halone hst, List.length_nil]
    have hnil : ∀ subset : Subset, (subset.ofAll (hdr.candidates d.poc)).length = 0 := by
      rw [SliceHeader.candidates, hst]
      exact fun _ => rfl
    rw [hbefore, hafter, hlong, hnil, hnil, hnil, hflags, List.count_nil]
    dsimp only
    omega
  | some st =>
    have hshort := Subset.length_usable_shortTerm st d.poc
    rw [ofAll_candidates_shortTerm hst (by decide)] at hbefore hafter
    rw [ofAll_candidates_longTerm hst (by decide), Subset.length_usable_longTerm, ← hused,
      List.take_length] at hlong
    rw [hbefore, hafter, hshort, hlong]
    dsimp only
    omega

end Decoder

/-! ## Sessions -/

namespace Session

variable {config : Config} {provider : Provider} {log : List Moment} {s : Session} {i : Nat}
  {d : Decoder}

/-- **The derived subsets have as many usable pictures as the slice header counts**, the current
picture included if its parameters allow references to itself. -/
theorem deriveSets_numUsable (run : Run config provider log s) (hd : s.decoder? i = some d)
    {layer : Nat} {hdr : SliceHeader} (hok : (d.deriveSets layer hdr).1 = .ok ())
    (hused : hdr.longTerm.used.length = hdr.longTerm.pocs.length)
    (halone : hdr.shortTerm = none → hdr.longTerm.pocs = [])
    (hbase : hdr.interLayer = true → d.layers.base.current.isSome = true) (pps : Pps) :
    (d.deriveSets layer hdr).2.sets.numUsable + pps.currentPicRef.toNat =
      hdr.numUsableRefs pps :=
  Decoder.numUsable_deriveSets (basePlaced_run run i d hd) hok hused halone hbase pps

/-- Flags and deltas of different lengths: the second delta has no flag. A picture that is found by
its low bits, and the base layer's one. -/
def fewFlags : SliceHeader where
  shortTerm := some { deltas := [-1, 1], used := [true], numNegative := 1 }
  longTerm := { pocs := [4], used := [true] }
  interLayer := true

/-- The picture that has begun in the enhancement layer has three references besides itself. -/
theorem fewFlags_numUsable : ∃ log d,
    Run {} {} log ((start {} {}).afterAll fourBits) ∧
    ((start {} {}).afterAll fourBits).decoder? 0 = some d ∧
    d.current.isSome = true ∧ (d.deriveSets 1 fewFlags).1 = .ok () ∧
    d.layers.base.current.isSome = true ∧
    (d.deriveSets 1 fewFlags).2.sets.numUsable + 1 = 4 ∧
    (d.deriveSets 1 fewFlags).2.sets.numUsable + 1 =
      fewFlags.numUsableRefs { currentPicRef := true } := by
  have run := run_all fourBits (@Run.start {} {})
  obtain ⟨d, hd⟩ : ∃ d, ((start {} {}).afterAll fourBits).decoder? 0 = some d := ⟨_, rfl⟩
  have hcurrent : d.current.isSome = true := by
    cases hd
    rfl
  have hok : (d.deriveSets 1 fewFlags).1 = .ok () := by
    cases hd
    rfl
  have hbase : d.layers.base.current.isSome = true := by
    cases hd
    rfl
  have heq := deriveSets_numUsable run hd hok rfl (fun h => by cases h) (fun _ => hbase)
    { currentPicRef := true }
  exact ⟨_, d, run, hd, hcurrent, hok, hbase, heq.trans rfl, heq⟩

end Session

end PictureBuffer
