import Mathlib.Data.Finset.Card
import PictureBuffer.Proofs.AccessUnits
import PictureBuffer.Proofs.OwnField
import PictureBuffer.Proofs.Sending

/-!
# How many access units are left

An output pass is to leave `maxPending` access units, that is, order counts of pictures that wait
for output (`Decoder.pendingPocs`). What it counts are the pictures but those of the enhancement
layer that name a picture of the base layer which waits too. That is the same as long as the two are
of one access unit. But a picture names a slot of the base layer, by the number of the last picture
started there, and nobody asks for the order count, then or later. The slot may hold a picture of
another access unit from the start, or come to hold one, and the pass may leave out the base layer.
A picture of which this is true **strays** (`Decoder.Strays`).

* An access unit is missing from the count if and only if all of its pictures stray
  (`Decoder.mem_uncountedPocs_iff`). So the bound holds after a pass exactly as long as the access
  units that are missing fit in the room that is left (`units_of_settled`).
* No picture strays from a base layer that takes part before a picture is started that leads one
  astray (`Session.LeadsAstray`): in the enhancement layer while the base layer has gone on, or in
  the slot of the base layer that a picture of another access unit names (`aligned_step_iff`).
-/

namespace PictureBuffer

namespace Slot

variable {old new : Slot}

/-- A picture that waits for output after flags are taken off has waited before. -/
theorem strip_of_waits {slot : Slot} {mask : Flags} (ho : (slot.strip mask).flags.output = true) :
    slot.flags.output = true ∧ (slot.strip mask).poc = slot.poc ∧
      (slot.strip mask).base = slot.base := by
  have hflags := ho
  rw [flags_strip] at hflags
  simp only [Flags.without, Bool.and_eq_true] at hflags
  refine ⟨hflags.1, ?_⟩
  unfold strip at ho ⊢
  dsimp only at ho ⊢
  split
  · rename_i hempty
    rw [if_pos hempty] at ho
    cases ho
  · exact ⟨rfl, rfl⟩

theorem Ages.waits (h : old.Ages new) (ho : new.flags.output = true) :
    old.flags.output = true ∧ new.poc = old.poc ∧ new.base = old.base := by
  induction h with
  | refl => exact ⟨ho, rfl, rfl⟩
  | strip _ mask ih =>
    obtain ⟨hwaits, hpoc, hbase⟩ := strip_of_waits ho
    obtain ⟨hold, hpoc', hbase'⟩ := ih hwaits
    exact ⟨hold, hpoc.trans hpoc', hbase.trans hbase'⟩
  | selectLists _ hs ih =>
    obtain ⟨-, rfl⟩ := selectLists_ok hs
    exact ih ho
  | setLists _ _ ih => exact ih ho

end Slot

namespace Decoder

variable {d d' d'' : Decoder} {ref : SlotRef} {slot base : Slot} {i mask : Nat} {poc : Int}
  {pass : OutputPass}

/-! ## Counting -/

/-- The access units that are pending in the layers in `mask`. -/
def pendingPocs (d : Decoder) (mask : Nat) : Finset Int :=
  ((d.pending mask).map (·.2.poc)).toFinset

/-- Those of the pictures that are counted. -/
def countedPocs (d : Decoder) (mask : Nat) : Finset Int :=
  (((d.pending mask).filter fun entry => !d.basePending entry.2).map (·.2.poc)).toFinset

/-- Those without a picture that is counted. -/
def uncountedPocs (d : Decoder) (mask : Nat) : Finset Int :=
  d.pendingPocs mask \ d.countedPocs mask

theorem mem_pendingPocs : poc ∈ d.pendingPocs mask ↔
    ∃ ref slot, (ref, slot) ∈ d.pending mask ∧ slot.poc = poc := by
  simp [pendingPocs]

theorem mem_countedPocs : poc ∈ d.countedPocs mask ↔
    ∃ ref slot, (ref, slot) ∈ d.pending mask ∧ d.basePending slot = false ∧ slot.poc = poc := by
  simp [countedPocs, and_assoc]

theorem countedPocs_subset (d : Decoder) (mask : Nat) :
    d.countedPocs mask ⊆ d.pendingPocs mask := by
  intro poc hp
  obtain ⟨ref, slot, hm, -, he⟩ := mem_countedPocs.mp hp
  exact mem_pendingPocs.mpr ⟨ref, slot, hm, he⟩

/-- A picture that is counted counts for its access unit. -/
theorem card_countedPocs_le (d : Decoder) (mask : Nat) :
    (d.countedPocs mask).card ≤ d.pendingUnits mask := by
  refine (List.toFinset_card_le _).trans ?_
  rw [List.length_map, pendingUnits, List.countP_eq_length_filter]

theorem card_pendingPocs (d : Decoder) (mask : Nat) :
    (d.pendingPocs mask).card = (d.uncountedPocs mask).card + (d.countedPocs mask).card :=
  (Finset.card_sdiff_add_card_eq_card (d.countedPocs_subset mask)).symm

/-! ## Strays -/

/-- A picture of the enhancement layer waits for output, and names a picture of the base layer that
waits too. -/
structure Names (d : Decoder) (ref : SlotRef) (slot : Slot) (i : Nat) (base : Slot) : Prop where
  layer : ref.layer = 1
  held : d.slot? ref = some slot
  waits : slot.flags.output = true
  named : slot.base = some i
  baseHeld : d.slot? ⟨0, i⟩ = some base
  baseWaits : base.flags.output = true

/-- The picture names one of another access unit, or of a layer that takes no part. -/
def Strays (d : Decoder) (mask : Nat) (ref : SlotRef) (slot : Slot) : Prop :=
  ∃ i base, d.Names ref slot i base ∧ (mask.testBit 0 = true → base.poc ≠ slot.poc)

/-- The pictures left out of the count are those that name another one. -/
theorem basePending_iff (h : d.Rooted) (hm : (ref, slot) ∈ d.pending mask) :
    d.basePending slot = true ↔ ∃ i base, d.Names ref slot i base := by
  obtain ⟨-, hs, ho⟩ := mem_pending.mp hm
  constructor
  · intro hp
    obtain ⟨base, hb, hbo⟩ := (Option.any_eq_true _ _).mp hp
    obtain ⟨i, hi, hbs⟩ := Option.bind_eq_some_iff.mp hb
    refine ⟨i, base, ?_, hs, ho, hi, hbs, hbo⟩
    obtain ⟨n, index⟩ := ref
    match n with
    | 0 =>
      rw [h ⟨0, index⟩ slot rfl hs] at hi
      cases hi
    | 1 => rfl
    | n + 2 => cases hs
  · rintro ⟨i, base, hn⟩
    refine (Option.any_eq_true _ _).mpr ⟨base, ?_, hn.baseWaits⟩
    rw [hn.named]
    exact hn.baseHeld

/-- **An access unit is missing from the count if and only if all its pictures stray.** -/
theorem mem_uncountedPocs_iff (h : d.Rooted) : poc ∈ d.uncountedPocs mask ↔
    poc ∈ d.pendingPocs mask ∧ ∀ ref slot, (ref, slot) ∈ d.pending mask → slot.poc = poc →
      d.Strays mask ref slot := by
  rw [uncountedPocs, Finset.mem_sdiff]
  refine and_congr_right fun _ => ⟨fun hnot ref slot hm he => ?_, fun hall hcounted => ?_⟩
  · have hpending : d.basePending slot = true := by
      cases hp : d.basePending slot with
      | true => rfl
      | false => exact absurd (mem_countedPocs.mpr ⟨ref, slot, hm, hp, he⟩) hnot
    obtain ⟨i, base, hn⟩ := (basePending_iff h hm).mp hpending
    refine ⟨i, base, hn, fun hzero hsame => hnot ?_⟩
    -- The base layer's picture would be counted for the access unit.
    refine mem_countedPocs.mpr ⟨⟨0, i⟩, base, mem_pending.mpr ⟨hzero, hn.baseHeld, hn.baseWaits⟩,
      ?_, hsame.trans he⟩
    rw [basePending, h ⟨0, i⟩ base rfl hn.baseHeld]
    rfl
  · obtain ⟨ref, slot, hm, hp, he⟩ := mem_countedPocs.mp hcounted
    obtain ⟨i, base, hn, -⟩ := hall ref slot hm he
    rw [(basePending_iff h hm).mpr ⟨i, base, hn⟩] at hp
    cases hp

/-! ## Before any picture strays -/

/-- Pictures name others of their own access unit only. -/
def Aligned (d : Decoder) : Prop :=
  ∀ ref slot i base, d.Names ref slot i base → base.poc = slot.poc

theorem Aligned.not_strays (h : d.Aligned) (hmask : mask.testBit 0 = true) (ref : SlotRef)
    (slot : Slot) : ¬ d.Strays mask ref slot := by
  rintro ⟨i, base, hn, hne⟩
  exact hne hmask (h ref slot i base hn)

/-- Pictures that wait for output have waited before. -/
def Recedes (d d' : Decoder) : Prop :=
  ∀ ref new, d'.slot? ref = some new → new.flags.output = true →
    ∃ old, d.slot? ref = some old ∧ old.flags.output = true ∧ new.poc = old.poc ∧
      new.base = old.base

theorem Recedes.trans (h : d.Recedes d') (h' : d'.Recedes d'') : d.Recedes d'' := by
  intro ref new hs ho
  obtain ⟨mid, hmid, hmo, hpoc, hbase⟩ := h' ref new hs ho
  obtain ⟨old, hold, hoo, hpoc', hbase'⟩ := h ref mid hmid hmo
  exact ⟨old, hold, hoo, hpoc.trans hpoc', hbase.trans hbase'⟩

theorem Aligned.recedes (h : d.Aligned) (hr : d.Recedes d') : d'.Aligned := by
  intro ref slot i base hn
  obtain ⟨old, hold, ho, hpoc, hbase⟩ := hr ref slot hn.held hn.waits
  obtain ⟨oldBase, hob, hoo, hbasePoc, -⟩ := hr ⟨0, i⟩ base hn.baseHeld hn.baseWaits
  rw [hbasePoc, hpoc]
  exact h ref old i oldBase ⟨hn.layer, hold, ho, hbase.symm.trans hn.named, hob, hoo⟩

theorem Ages.recedes (h : d.Ages d') : d.Recedes d' := by
  intro ref new hs ho
  obtain ⟨old, hold, hages⟩ := h.slot hs
  exact ⟨old, hold, hages.waits ho⟩

theorem recedes_clearSets (d : Decoder) (layer : Nat) : d.Recedes (d.clearSets layer) := by
  intro ref new hs ho
  rw [slot?_clearSets] at hs
  split at hs
  · obtain ⟨old, hold, rfl⟩ := Option.map_eq_some_iff.mp hs
    refine ⟨old, hold, ?_⟩
    have kept : (if old.flags.placeholder then old.strip .all else old).flags.output = true →
        old.flags.output = true ∧
        (if old.flags.placeholder then old.strip .all else old).poc = old.poc ∧
        (if old.flags.placeholder then old.strip .all else old).base = old.base := by
      split
      · exact Slot.strip_of_waits
      · exact fun hold => ⟨hold, rfl, rfl⟩
    dsimp only at ho ⊢
    split at ho
    · rw [if_pos ‹_›]
      exact kept ho
    · rw [if_neg ‹_›, Slot.poc_mark, Slot.base_mark]
      rw [Slot.output_mark] at ho
      exact kept ho
  · exact ⟨new, hs, ho, rfl, rfl⟩

/-- A stand-in does not wait for output. -/
theorem Enters.recedes {n : Nat} {sps : Sps} {c : Candidate} {index : Nat}
    (hent : d.Enters n sps c index slot d') : d.Recedes d' := by
  intro ref new hs ho
  by_cases hr : ref = ⟨n, index⟩
  · subst hr
    obtain rfl := Option.some.inj (hs.symm.trans hent.marked)
    rw [Slot.output_mark] at ho
    cases hent.source with
    | found hfound => exact ⟨slot, hfound, ho, Slot.poc_mark _ _, Slot.base_mark _ _⟩
    | missing _ _ _ hslot =>
      rw [hslot] at ho
      cases ho
  · exact ⟨new, (hent.others ref hr).symm.trans hs, ho, rfl, rfl⟩

theorem recedes_deriveSets (d : Decoder) (layer : Nat) (hdr : SliceHeader) :
    d.Recedes (d.deriveSets layer hdr).2 := by
  cases hg : d.layers.get? layer with
  | none =>
    rw [deriveSets_of_invalid hg]
    exact (Ages.refl d).recedes
  | some l =>
    have hadd := @addHeader_preserves _ layer (d.Recedes ·) hdr (fun hp _ => hp)
      (fun _ hp hent => hp.trans hent.recedes) (d.recedes_clearSets layer)
    rw [deriveSets_eq hg]
    exact hadd.trans (ages_stripWhere _ layer _ _).recedes

/-- A picture is started that waits for output and leads one **astray**: itself, if the picture of
the base layer that it names waits as part of another access unit, or one that names the slot it
takes. -/
def LeadsAstray (d : Decoder) (layer : Nat) (info : PictureInfo) : Prop :=
  ∃ index, (d.startPicture layer info).1 = .ok ⟨layer, index⟩ ∧ info.output = true ∧
    (layer = 1 ∧ (∃ i base, d.layers.base.current = some i ∧ d.slot? ⟨0, i⟩ = some base ∧
      base.flags.output = true ∧ base.poc ≠ info.poc) ∨
    layer = 0 ∧ ∃ ref slot, ref.layer = 1 ∧ d.slot? ref = some slot ∧
      slot.flags.output = true ∧ slot.base = some index ∧ slot.poc ≠ info.poc)

/-- **Pictures keep naming others of their own access unit** if and only if the picture that is
started leads none astray. -/
theorem aligned_startPicture_iff (h : d.Aligned) (layer : Nat) (info : PictureInfo) :
    (d.startPicture layer info).2.Aligned ↔ ¬ d.LeadsAstray layer info := by
  obtain ⟨fault, hfault, hages, -⟩ | ⟨index, hindex, hbegins⟩ := d.startPicture_slots layer info
  · refine ⟨?_, fun _ => h.recedes hages.recedes⟩
    rintro - ⟨index, hok, -⟩
    rw [hfault] at hok
    cases hok
  · obtain ⟨sps, frame, hentered⟩ := hbegins.entered
    have others := hbegins.others
    generalize (d.startPicture layer info).2 = d' at hentered others
    constructor
    · rintro haligned ⟨index', hok, ho, hcase⟩
      obtain rfl : index' = index := by
        rw [hindex] at hok
        cases hok
        rfl
      obtain ⟨rfl, i, base, hcur, hbase, hbo, hne⟩ | ⟨rfl, ref, slot, hl, hs, hso, hb, hne⟩ := hcase
      · have hheld : d'.slot? ⟨0, i⟩ = some base := (others _ (by simp)).trans hbase
        exact hne (haligned _ _ i base ⟨rfl, hentered, ho, hcur, hheld, hbo⟩)
      · have hheld : d'.slot? ref = some slot := by
          refine (others ref fun he => ?_).trans hs
          rw [he] at hl
          cases hl
        exact hne (haligned ref slot _ _ ⟨hl, hheld, hso, hb, hentered, ho⟩).symm
    · intro hnot ref slot i base hn
      by_cases hr : ref = ⟨layer, index⟩
      · -- The picture itself names one of the base layer.
        subst hr
        have hlayer : layer = 1 := hn.layer
        subst hlayer
        obtain rfl := Option.some.inj (hn.held.symm.trans hentered)
        have hbase : d.slot? ⟨0, i⟩ = some base := (others _ (by simp)).symm.trans hn.baseHeld
        by_cases hp : base.poc = info.poc
        · exact hp
        · exact absurd ⟨index, hindex, hn.waits, Or.inl
            ⟨rfl, i, base, hn.named, hbase, hn.baseWaits, hp⟩⟩ hnot
      · have hs : d.slot? ref = some slot := (others ref hr).symm.trans hn.held
        by_cases hbr : (⟨0, i⟩ : SlotRef) = ⟨layer, index⟩
        · -- It takes the slot that an older picture names.
          cases hbr
          obtain rfl := Option.some.inj (hn.baseHeld.symm.trans hentered)
          by_cases hp : slot.poc = info.poc
          · exact hp.symm
          · exact absurd ⟨_, hindex, hn.baseWaits, Or.inr
              ⟨rfl, ref, slot, hn.layer, hs, hn.waits, hn.named, hp⟩⟩ hnot
        · have hbase : d.slot? ⟨0, i⟩ = some base := (others _ hbr).symm.trans hn.baseHeld
          exact h ref slot i base ⟨hn.layer, hs, hn.waits, hn.named, hbase, hn.baseWaits⟩

/-- Every other command lets pictures wait no longer than before. -/
theorem recedes_run (d : Decoder) (command : Command)
    (h : ∀ layer info, command ≠ .startPicture layer info) : d.Recedes (d.run command).2 := by
  cases command with
  | startPicture layer info => exact absurd rfl (h layer info)
  | deriveSets layer hdr => exact d.recedes_deriveSets layer hdr
  | _ => exact (d.ages_run trivial).recedes

end Decoder

namespace Session

variable {s : Session} {e : Event} {i : Nat} {d : Decoder} {pass : OutputPass} {config : Config}
  {provider : Provider} {log log' : List Moment}

def Aligned (s : Session) : Prop := ∀ i d, s.decoder? i = some d → d.Aligned

/-- The event is a start that leads a picture astray. -/
def LeadsAstray (s : Session) (e : Event) : Prop :=
  ∃ i layer info d, e = .run i (.startPicture layer info) ∧ s.decoder? i = some d ∧
    d.LeadsAstray layer info

theorem aligned_start (config : Config) (provider : Provider) :
    (start config provider).Aligned := by
  intro i d hd ref slot j base hn
  have hwaits := hn.waits
  rw [slot?_start hd hn.held] at hwaits
  cases hwaits

/-- **One event leaves no picture astray if and only if it leads none astray.** -/
theorem aligned_step_iff (h : s.Aligned) (e : Event) :
    (s.step e).2.Aligned ↔ ¬ s.LeadsAstray e := by
  constructor
  · rintro haligned ⟨i, layer, info, d, rfl, hd, hleads⟩
    have hnext := haligned i _ (decoder?_run hd (.startPicture layer info))
    exact (Decoder.aligned_startPicture_iff (h i d hd) layer info).mp hnext hleads
  · intro hnone j d hd
    obtain ⟨i, old, hold, ⟨command, rfl, rfl⟩ | ⟨owns, hcontext⟩⟩ := decoder?_step hd
    · by_cases hstart : ∃ layer info, command = .startPicture layer info
      · obtain ⟨layer, info, rfl⟩ := hstart
        refine (Decoder.aligned_startPicture_iff (h i old hold) layer info).mpr fun hleads => ?_
        exact hnone ⟨i, layer, info, old, rfl, hold, hleads⟩
      · refine (h i old hold).recedes (old.recedes_run command fun layer info he => hstart ?_)
        exact ⟨layer, info, he⟩
    · have hlayers : d.layers = old.layers := by
        rw [hcontext]
      intro ref slot k base hn
      obtain ⟨hl, hs, ho, hb, hbs, hbo⟩ := hn
      rw [Decoder.slot?, Decoder.layer?, hlayers] at hs hbs
      exact h i old hold ref slot k base ⟨hl, hs, ho, hb, hbs, hbo⟩

/-- The events allowed as long as no picture is led astray. -/
def noneAstray (_ : List Moment) (s : Session) (e : Event) : Prop := ¬ s.LeadsAstray e

theorem aligned_stretch (h : s.Aligned) {s' : Session}
    (hstretch : Stretch noneAstray log s log' s') : s'.Aligned := by
  induction hstretch with
  | refl => exact h
  | step _ e he ih => exact (aligned_step_iff ih e).mpr he

/-- **The access units that a pass leaves**, if nothing puts it off. In every state of every run,

* no more than `pass.maxPending` access units of those that are counted are left;
* no more than `pass.maxPending` access units are left at all, if and only if those that are missing
  from the count fit in the room that the others leave;
* the access units missing from the count are those whose pictures all stray;
* so the bound holds if the base layer takes part and no picture was started on the way that led one
  astray. -/
theorem units_of_settled (run : Run config provider log s) (hd : s.decoder? i = some d)
    (hs : (d.output pass).1 = .ok .settled) :
    ((d.output pass).2.countedPocs pass.active).card ≤ pass.maxPending ∧
    (((d.output pass).2.pendingPocs pass.active).card ≤ pass.maxPending ↔
      ((d.output pass).2.uncountedPocs pass.active).card ≤
        pass.maxPending - ((d.output pass).2.countedPocs pass.active).card) ∧
    (∀ poc, poc ∈ (d.output pass).2.uncountedPocs pass.active ↔
      poc ∈ (d.output pass).2.pendingPocs pass.active ∧
      ∀ ref slot, (ref, slot) ∈ (d.output pass).2.pending pass.active → slot.poc = poc →
        (d.output pass).2.Strays pass.active ref slot) ∧
    (pass.active.testBit 0 = true → Stretch noneAstray [] (start config provider) log s →
      ((d.output pass).2.pendingPocs pass.active).card ≤ pass.maxPending) := by
  have hrooted := (rooted_run run i d hd).run (.output pass)
  have haligned : Stretch noneAstray [] (start config provider) log s →
      (d.output pass).2.Aligned := fun hstretch =>
    (aligned_stretch (aligned_start config provider) hstretch i d hd).recedes
      (d.recedes_run (.output pass) fun _ _ he => by cases he)
  have heased := Decoder.eased_of_nextVictim? (Decoder.nextVictim?_of_settled hs)
  dsimp only [Decoder.run] at hrooted
  generalize (d.output pass).2 = d' at hrooted haligned heased ⊢
  have hcounted := (d'.card_countedPocs_le pass.active).trans heased.1
  have hcard := d'.card_pendingPocs pass.active
  refine ⟨hcounted, by omega, fun poc => Decoder.mem_uncountedPocs_iff hrooted, ?_⟩
  intro hmask hstretch
  have hnone : d'.uncountedPocs pass.active = ∅ := by
    refine Finset.eq_empty_of_forall_notMem fun poc hp => ?_
    obtain ⟨hpending, hall⟩ := (Decoder.mem_uncountedPocs_iff hrooted).mp hp
    obtain ⟨ref, slot, hm, he⟩ := Decoder.mem_pendingPocs.mp hpending
    exact (haligned hstretch).not_strays hmask ref slot (hall ref slot hm he)
  rw [hnone, Finset.card_empty] at hcard
  omega

/-! ## A slot that is taken again -/

def startEnhancement (poc : Int) : Event :=
  .run 0 (.startPicture 1 { poc, output := true, numSlices := 1, pps := {} })

/-- Both layers have a picture of order count `0`. -/
def twoLayers : List Event :=
  [.run 0 (.setSps 0 { width := 2, height := 2 }), .run 0 (.setSps 1 { width := 2, height := 2 }),
    startBase 0, .run 0 .finishPicture, startEnhancement 0, .run 0 .finishPicture]

/-- That of the base layer is output, to make room for another one, and a third one takes its
slot. -/
def takenAgain : List Event :=
  twoLayers ++
    [.run 0 (.unmarkAll 0), startBase 4, .run 0 .finishPicture,
      .run 0 (.output { active := 3, shown := 3, maxPending := 8, maxInUse := 1 }),
      startBase 8, .run 0 .finishPicture]

/-- All pictures but those of `maxPending` access units are output. -/
def leaveUnits (maxPending : Nat) : OutputPass :=
  { active := 3, shown := 3, maxPending, maxInUse := 16 }

/-- The decoder of a session, which a pass leaves with what is given. -/
theorem exists_left {α : Type} {s : Session} {pass : OutputPass} {f : Decoder → α} {a : α}
    (h : (s.decoder? 0).map (fun d => ((d.output pass).1.toOption, f (d.output pass).2)) =
      some (some .settled, a)) :
    ∃ d, s.decoder? 0 = some d ∧ (d.output pass).1 = .ok .settled ∧ f (d.output pass).2 = a := by
  obtain ⟨d, hd, he⟩ := Option.map_eq_some_iff.mp h
  obtain ⟨hs, ha⟩ := Prod.mk.inj he
  exact ⟨d, hd, eq_ok_of_toOption hs, ha⟩

/-- The picture of order count `0` that is left in the enhancement layer is missing from the count,
so it is not true of every run that a pass leaves no more access units than it is told. -/
theorem not_always_within : ¬ ∀ (config : Config) (provider : Provider) (log : List Moment)
    (s : Session) (i : Nat) (d : Decoder) (pass : OutputPass), Run config provider log s →
    s.decoder? i = some d → (d.output pass).1 = .ok .settled →
    ((d.output pass).2.pendingPocs pass.active).card ≤ pass.maxPending := by
  intro h
  have run := run_all takenAgain (@Run.start {} {})
  obtain ⟨d, hd, hs, hcard⟩ : ∃ d, ((start {} {}).afterAll takenAgain).decoder? 0 = some d ∧
      (d.output (leaveUnits 2)).1 = .ok .settled ∧
      ((d.output (leaveUnits 2)).2.pendingPocs 3).card = 3 :=
    exists_left (f := fun d => (d.pendingPocs 3).card) (by decide +kernel)
  have hle : ((d.output (leaveUnits 2)).2.pendingPocs 3).card ≤ 2 :=
    h {} {} _ _ 0 d (leaveUnits 2) run hd hs
  omega

/-- No picture is led astray while the layers go on together. -/
theorem noneAstray_twoLayers : AllowedAll noneAstray [] (start {} {}) twoLayers := by
  have other : ∀ {s : Session} {e : Event},
      (∀ i layer info, e ≠ .run i (.startPicture layer info)) → ¬ s.LeadsAstray e := by
    rintro s e hne ⟨i, layer, info, d, rfl, -⟩
    exact hne i layer info rfl
  have enhancement : ∀ d, ((start {} {}).afterAll (twoLayers.take 2)).decoder? 0 = some d →
      d.pending 2 = [] := by
    have hpending : (((start {} {}).afterAll (twoLayers.take 2)).decoder? 0).map (·.pending 2) =
        some [] := by decide +kernel
    intro d hd
    rw [hd] at hpending
    exact Option.some.inj hpending
  have baseLayer : ∀ d, ((start {} {}).afterAll (twoLayers.take 4)).decoder? 0 = some d →
      d.layers.base.current = some 0 ∧ (d.slot? ⟨0, 0⟩).map (·.poc) = some 0 := by
    have hcurrent : (((start {} {}).afterAll (twoLayers.take 4)).decoder? 0).map
        (fun d => (d.layers.base.current, (d.slot? ⟨0, 0⟩).map (·.poc))) =
          some (some 0, some 0) := by decide +kernel
    intro d hd
    rw [hd] at hcurrent
    exact Prod.mk.inj (Option.some.inj hcurrent)
  refine ⟨other (by simp), other (by simp), ?_, other (by simp), ?_, other (by simp), trivial⟩
  · rintro ⟨i, layer, info, d, he, hd, index, -, -, ⟨hlayer, -⟩ | ⟨-, ref, slot, hl, hs, ho, -⟩⟩
    · cases he
      cases hlayer
    · cases he
      have hlayer : Nat.testBit 2 ref.layer = true := by
        rw [hl]
        rfl
      have hm := Decoder.mem_pending.mpr ⟨hlayer, hs, ho⟩
      rw [enhancement d hd] at hm
      cases hm
  · rintro ⟨i, layer, info, d, he, hd, index, -, -, ⟨-, j, base, hcur, hb, -, hne⟩ | ⟨hlayer, -⟩⟩
    · cases he
      obtain ⟨hzero, hpoc⟩ := baseLayer d hd
      obtain rfl := Option.some.inj (hcur.symm.trans hzero)
      rw [hb] at hpoc
      exact hne (Option.some.inj hpoc)
    · cases he
      cases hlayer

/-- The access unit of order count `0` is missing where a slot was taken again. None is where the
layers have gone on together. -/
theorem takenAgain_units :
    (∃ log d, Run {} {} log ((start {} {}).afterAll takenAgain) ∧
      ((start {} {}).afterAll takenAgain).decoder? 0 = some d ∧
      (d.output (leaveUnits 2)).1 = .ok .settled ∧
      0 ∈ (d.output (leaveUnits 2)).2.uncountedPocs 3 ∧
      ∀ ref slot, (ref, slot) ∈ (d.output (leaveUnits 2)).2.pending 3 → slot.poc = 0 →
        (d.output (leaveUnits 2)).2.Strays 3 ref slot) ∧
    ∃ log d, Run {} {} log ((start {} {}).afterAll twoLayers) ∧
      ((start {} {}).afterAll twoLayers).decoder? 0 = some d ∧
      (d.output (leaveUnits 1)).1 = .ok .settled ∧
      ((d.output (leaveUnits 1)).2.pending 3).length = 2 ∧
      ((d.output (leaveUnits 1)).2.pendingPocs 3).card ≤ 1 := by
  refine ⟨?_, ?_⟩
  · have run := run_all takenAgain (@Run.start {} {})
    obtain ⟨d, hd, hs, hmissing⟩ : ∃ d, ((start {} {}).afterAll takenAgain).decoder? 0 = some d ∧
        (d.output (leaveUnits 2)).1 = .ok .settled ∧
        decide (0 ∈ (d.output (leaveUnits 2)).2.uncountedPocs 3) = true :=
      exists_left (f := fun d => decide (0 ∈ d.uncountedPocs 3)) (by decide +kernel)
    have hmissing := of_decide_eq_true hmissing
    exact ⟨_, d, run, hd, hs, hmissing, (((units_of_settled run hd hs).2.2.1 0).mp hmissing).2⟩
  · have run := run_all twoLayers (@Run.start {} {})
    obtain ⟨d, hd, hs, hlength⟩ : ∃ d, ((start {} {}).afterAll twoLayers).decoder? 0 = some d ∧
        (d.output (leaveUnits 1)).1 = .ok .settled ∧
        ((d.output (leaveUnits 1)).2.pending 3).length = 2 :=
      exists_left (f := fun d => (d.pending 3).length) (by decide +kernel)
    have hrefl : Stretch noneAstray [] (start {} {}) [] (start {} {}) := .refl
    have hstretch := hrefl.all noneAstray_twoLayers
    exact ⟨_, d, run, hd, hs, hlength, (units_of_settled run hd hs).2.2.2 rfl hstretch⟩

end Session

end PictureBuffer
