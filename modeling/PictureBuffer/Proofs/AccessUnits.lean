import PictureBuffer.Proofs.Presentation
import PictureBuffer.Proofs.Waiting

/-!
# Access units

The pictures that wait for output are counted by access units: a picture that names a picture of the
base layer is not counted as long as that one waits too. Those of the base layer name none
(`Decoder.Rooted`), in every state of every run. So some access unit is pending as long as any
picture is, and a pass that is to leave none leaves no picture either (`waiting?_of_settled`).
-/

namespace PictureBuffer

namespace Slot

variable {old new : Slot}

/-- A picture that names no other never comes to name one. -/
theorem Ages.base (h : old.Ages new) (hb : old.base = none) : new.base = none := by
  induction h with
  | refl => exact hb
  | strip _ mask ih =>
    unfold Slot.strip
    dsimp only
    split
    · rfl
    · exact ih
  | selectLists _ hs ih =>
    obtain ⟨-, rfl⟩ := selectLists_ok hs
    exact ih
  | setLists _ _ ih => exact ih

theorem base_mark (marking : Marking) (slot : Slot) : (slot.mark marking).base = slot.base := by
  unfold mark
  split <;> rfl

end Slot

namespace Decoder

variable {d d' : Decoder} {ref : SlotRef} {pass : OutputPass} {mask : Nat}

/-! ## Pictures of the base layer -/

/-- The pictures of the base layer name no other picture. -/
def Rooted (d : Decoder) : Prop :=
  ∀ ref slot, ref.layer = 0 → d.slot? ref = some slot → slot.base = none

theorem Rooted.ages (h : d.Rooted) (ha : d.Ages d') : d'.Rooted := by
  intro ref slot hl hs
  obtain ⟨old, hold, hages⟩ := ha.slot hs
  exact hages.base (h ref old hl hold)

theorem rooted_startPicture (h : d.Rooted) (layer : Nat) (info : PictureInfo) :
    (d.startPicture layer info).2.Rooted := by
  obtain ⟨_, -, hages, -⟩ | ⟨index, -, hbegins⟩ := d.startPicture_slots layer info
  · exact h.ages hages
  · intro ref slot hl hs
    by_cases hr : ref = ⟨layer, index⟩
    · obtain ⟨sps, frame, hentered⟩ := hbegins.entered
      subst hr
      obtain rfl := Option.some.inj (hs.symm.trans hentered)
      exact if_pos hl
    · exact h ref slot hl ((hbegins.others ref hr).symm.trans hs)

theorem rooted_clearSets (h : d.Rooted) (layer : Nat) : (d.clearSets layer).Rooted := by
  intro ref slot hl hs
  rw [slot?_clearSets] at hs
  split at hs
  · obtain ⟨old, hold, rfl⟩ := Option.map_eq_some_iff.mp hs
    have hkept : (if old.flags.placeholder then old.strip .all else old).base = none := by
      split
      · exact (Slot.Ages.strip (.refl old) .all).base (h ref old hl hold)
      · exact h ref old hl hold
    dsimp only
    split
    · exact hkept
    · exact (Slot.base_mark .none _).trans hkept
  · exact h ref slot hl hs

theorem Enters.rooted {n : Nat} {sps : Sps} {c : Candidate} {index : Nat} {slot : Slot}
    (hent : d.Enters n sps c index slot d') (h : d.Rooted) : d'.Rooted := by
  intro ref new hl hs
  by_cases hr : ref = ⟨n, index⟩
  · subst hr
    obtain rfl := Option.some.inj (hs.symm.trans hent.marked)
    rw [Slot.base_mark]
    cases hent.source with
    | found hfound => exact h _ slot hl hfound
    | missing _ _ _ hslot =>
      rw [hslot]
      rfl
  · exact h ref new hl ((hent.others ref hr).symm.trans hs)

theorem rooted_deriveSets (h : d.Rooted) (layer : Nat) (hdr : SliceHeader) :
    (d.deriveSets layer hdr).2.Rooted := by
  cases hg : d.layers.get? layer with
  | none =>
    rw [deriveSets_of_invalid hg]
    exact h
  | some l =>
    have hadd := @addHeader_preserves _ layer (·.Rooted) hdr (fun hp _ => hp)
      (fun _ hp hent => hent.rooted hp) (rooted_clearSets h layer)
    rw [deriveSets_eq hg]
    exact hadd.ages (ages_stripWhere _ layer _ _)

/-- **No command makes a picture of the base layer name another one.** -/
theorem Rooted.run (h : d.Rooted) (command : Command) : (d.run command).2.Rooted := by
  cases command with
  | startPicture layer info => exact rooted_startPicture h layer info
  | deriveSets layer hdr => exact rooted_deriveSets h layer hdr
  | _ => exact h.ages (d.ages_run trivial)

/-! ## Nothing is left -/

/-- If no access unit is pending, no picture is. -/
theorem pending_eq_nil (h : d.Rooted) (hbase : mask.testBit 0 = true)
    (hunits : d.pendingUnits mask = 0) : d.pending mask = [] := by
  have named : ∀ ref slot, (ref, slot) ∈ d.pending mask → ∃ i base, slot.base = some i ∧
      (⟨0, i⟩, base) ∈ d.pending mask := by
    intro ref slot hm
    have hpending : d.basePending slot = true := by
      simpa using List.countP_eq_zero.mp hunits (ref, slot) hm
    obtain ⟨base, hb, ho⟩ := (Option.any_eq_true _ _).mp hpending
    obtain ⟨i, hi, hs⟩ := Option.bind_eq_some_iff.mp hb
    exact ⟨i, base, hi, mem_pending.mpr ⟨hbase, hs, ho⟩⟩
  refine List.eq_nil_iff_forall_not_mem.mpr ?_
  rintro ⟨ref, slot⟩ hm
  obtain ⟨i, base, -, hb⟩ := named ref slot hm
  obtain ⟨j, -, hj, -⟩ := named ⟨0, i⟩ base hb
  rw [h ⟨0, i⟩ base rfl (mem_pending.mp hb).2.1] at hj
  cases hj

/-- **A pass over both layers that is to leave no access unit leaves no picture** waiting, unless it
ends early. -/
theorem waiting?_of_settled (h : d.Rooted) (h₀ : pass.active.testBit 0 = true)
    (h₁ : pass.active.testBit 1 = true) (hmax : pass.maxPending = 0)
    (hs : (d.output pass).1 = .ok .settled) (ref : SlotRef) :
    (d.output pass).2.waiting? ref = none := by
  have heased := eased_of_nextVictim? (nextVictim?_of_settled hs)
  rw [Eased, hmax] at heased
  have hnil := pending_eq_nil (h.run (.output pass)) h₀ (Nat.le_zero.mp heased.1)
  rw [Option.eq_none_iff_forall_not_mem]
  intro victim hw
  obtain ⟨slot, frame, hslot, ho, -⟩ := waiting?_eq_some_iff.mp hw
  have hactive : pass.active.testBit ref.layer = true := by
    obtain ⟨_ | _ | n, index⟩ := ref
    · exact h₀
    · exact h₁
    · cases hslot
  have hm := mem_pending.mpr ⟨hactive, hslot, ho⟩
  rw [show (d.output pass).2.pending pass.active = [] from hnil] at hm
  cases hm

end Decoder

namespace Session

variable {config : Config} {provider : Provider} {log : List Moment} {s : Session} {i : Nat}
  {d : Decoder}

theorem rooted_step (h : ∀ i d, s.decoder? i = some d → d.Rooted) (e : Event)
    (hd : (s.step e).2.decoder? i = some d) : d.Rooted := by
  obtain ⟨j, old, hold, ⟨command, -, rfl⟩ | ⟨owns, hcontext⟩⟩ := decoder?_step hd
  · exact (h j old hold).run command
  · have hlayers : d.layers = old.layers := by
      rw [hcontext]
    intro ref slot hl hs
    rw [Decoder.slot?, Decoder.layer?, hlayers] at hs
    exact h j old hold ref slot hl hs

/-- In every state of every run, the pictures of the base layer name no other picture. -/
theorem rooted_run (run : Run config provider log s) :
    ∀ i d, s.decoder? i = some d → d.Rooted := by
  induction run with
  | start =>
    intro i d hd ref slot _ hs
    rw [slot?_start hd hs]
  | step run e ih => exact fun i d hd => rooted_step ih e hd

end Session

end PictureBuffer
