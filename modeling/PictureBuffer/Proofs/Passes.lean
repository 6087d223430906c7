import PictureBuffer.Decoder.Output
import PictureBuffer.Proofs.Holders

/-!
# The steps of an output pass

What one step of `Decoder.output` can do is listed in `Bumped`. The **course** of a pass is the
state before each of its steps, with the victim (`Decoder.moments`). What every step carries on
holds all along the course (`pass_induction`).
-/

namespace PictureBuffer

/-- A step of an output pass that is about to be taken. -/
structure Moment where
  pass : OutputPass
  decoder : Decoder
  ref : SlotRef
  slot : Slot

/-- A result that is there is no fault. -/
theorem eq_ok_of_toOption {α : Type} {result : Except Fault α} {a : α}
    (h : result.toOption = some a) : result = .ok a := by
  cases result with
  | error fault => cases h
  | ok b => exact congrArg Except.ok (Option.some.inj h)

namespace Decoder

variable {d d' : Decoder} {ref x : SlotRef} {slot : Slot} {pass : OutputPass}

/-! ## Taking the output flag off -/

/-- Only the buffers and the store change. -/
theorem stripOutput_eq (d : Decoder) (ref : SlotRef) :
    ∃ layers store, d.stripOutput ref = { d with layers, store } := by
  unfold stripOutput onDpb
  split
  · exact ⟨_, _, rfl⟩
  · exact ⟨_, _, rfl⟩

theorem slot?_stripOutput (d : Decoder) (ref x : SlotRef) :
    (d.stripOutput ref).slot? x =
      if x = ref then (d.slot? x).map (·.strip .waiting) else d.slot? x := by
  obtain ⟨n, i⟩ := ref
  obtain ⟨m, j⟩ := x
  have get : ∀ dpb : Dpb, (dpb.modify i (·.strip .waiting)).slot? j =
      if j = i then (dpb.slot? j).map (·.strip .waiting) else dpb.slot? j := by
    intro dpb
    simp only [Dpb.slot?, Dpb.modify, List.getElem?_modify]
    by_cases h : i = j
    · subst h
      simp
    · rw [if_neg (Ne.symm h)]
      simp [h]
  rcases n with _ | _ | n
  · rcases m with _ | _ | m
    · exact (get d.layers.base.dpb).trans (by simp [slot?, layer?, Layers.get?])
    · rfl
    · rfl
  · rcases m with _ | _ | m
    · rfl
    · exact (get d.layers.enhancement.dpb).trans (by simp [slot?, layer?, Layers.get?])
    · rfl
  · have hd : d.stripOutput ⟨n + 2, i⟩ = d := rfl
    rw [hd]
    split
    · rename_i h
      cases h
      rfl
    · rfl

/-- Whoever still waits for output is not the one that was taken off. -/
theorem slot?_of_stripOutput (h : (d.stripOutput ref).slot? x = some slot)
    (ho : slot.flags.output = true) : x ≠ ref ∧ d.slot? x = some slot := by
  rw [slot?_stripOutput] at h
  split at h
  · obtain ⟨old, -, rfl⟩ := Option.map_eq_some_iff.mp h
    rw [Slot.flags_strip] at ho
    simp [Flags.without, Flags.waiting] at ho
  · rename_i hx
    exact ⟨hx, h⟩

/-! ## One step -/

/-- **What a step of a pass can do** to its victim. -/
inductive Bumped (pass : OutputPass) (d : Decoder) (ref : SlotRef) (slot : Slot) :
    Except Fault Bump × Decoder → Prop
  /-- The slot holds no picture. -/
  | empty (hf : slot.frame = none) : Bumped pass d ref slot (.error (.emptySlot ref), d)
  /-- This decoder is still decoding the victim. -/
  | deferred {frame : FrameId} (hf : slot.frame = some frame) (ho : d.isOwnField slot = true) :
      Bumped pass d ref slot (.ok .deferred, d)
  | waiting {frame : FrameId} (hf : slot.frame = some frame) (ho : d.isOwnField slot = false)
      (hw : d.outcome? slot frame = none) : Bumped pass d ref slot (.ok (.waiting frame), d)
  /-- The victim was never produced, or is not to be shown. Either way it leaves without being
  emitted. -/
  | dropped {frame : FrameId} {produced : Bool} (hf : slot.frame = some frame)
      (ho : d.isOwnField slot = false) (hw : d.outcome? slot frame = some produced)
      (hs : (produced && pass.shows ref.layer) = false) (orphans : Nat) :
      Bumped pass d ref slot (.ok .next,
        ({ d with scheduler := d.scheduler.recordOrphans orphans } : Decoder).stripOutput ref)
  /-- The victim was handed to the output process. -/
  | handed {frame : FrameId} {result : Except Fault Emission} {shared : Shared}
      (hf : slot.frame = some frame)
      (ho : d.isOwnField slot = false) (hw : d.outcome? slot frame = some true)
      (hs : pass.shows ref.layer = true)
      (he : d.toShared.emit (slot.victim ref.layer frame) d.dts = (result, shared)) :
      Bumped pass d ref slot (result.map fun _ => .next,
        if result.toOption = some .again then { d with toShared := shared }
        else ({ d with toShared := shared } : Decoder).stripOutput ref)

theorem bumped (pass : OutputPass) (d : Decoder) (ref : SlotRef) (slot : Slot) :
    Bumped pass d ref slot (d.bump pass ref slot) := by
  unfold bump
  cases hf : slot.frame with
  | none => exact .empty hf
  | some frame =>
    dsimp only
    by_cases ho : d.isOwnField slot = true
    · rw [if_pos ho]
      exact .deferred hf ho
    · rw [if_neg ho]
      rw [Bool.not_eq_true] at ho
      cases hw : d.outcome? slot frame with
      | none => exact .waiting hf ho hw
      | some produced =>
        cases produced with
        | false =>
          dsimp only [dropCancelled]
          split
          · exact .dropped hf ho hw rfl 1
          · exact .dropped hf ho hw rfl 0
        | true =>
          dsimp only
          by_cases hs : pass.shows ref.layer = true
          · rw [if_pos hs]
            unfold emit
            rcases he : d.toShared.emit (slot.victim ref.layer frame) d.dts with
              ⟨_ | _ | _, shared⟩
            · exact .handed hf ho hw hs he
            · exact .handed hf ho hw hs he
            · exact .handed hf ho hw hs he
          · rw [if_neg hs]
            rw [Bool.not_eq_true] at hs
            exact .dropped hf ho hw hs 0

/-- Only a victim that the decoder is still decoding is put off. -/
theorem bump_deferred (h : d.bump pass ref slot = (.ok .deferred, d')) :
    d.isOwnField slot = true ∧ d' = d := by
  have hb := bumped pass d ref slot
  generalize d.bump pass ref slot = result at h hb
  cases hb with
  | deferred _ ho =>
    cases h
    exact ⟨ho, rfl⟩
  | @handed _ emission => cases emission <;> cases h
  | _ => cases h

/-- A frame is only waited for as long as it is not known what becomes of it. -/
theorem bump_waiting {frame : FrameId} (h : d.bump pass ref slot = (.ok (.waiting frame), d')) :
    slot.frame = some frame ∧ d.isOwnField slot = false ∧ d.outcome? slot frame = none ∧
      d' = d := by
  have hb := bumped pass d ref slot
  generalize d.bump pass ref slot = result at h hb
  cases hb with
  | waiting hf ho hw =>
    cases h
    exact ⟨hf, ho, hw, rfl⟩
  | @handed _ emission => cases emission <;> cases h
  | _ => cases h

/-- What counting orphans, emitting the victim and taking its output flag off carry on is carried on
by a step. -/
theorem bump_preserves {P : Decoder → Prop} (h : P d)
    (orphans : ∀ n, P { d with scheduler := d.scheduler.recordOrphans n })
    (emit : ∀ frame, slot.frame = some frame →
      P { d with toShared := (d.toShared.emit (slot.victim ref.layer frame) d.dts).2 })
    (strip : ∀ d', P d' → P (d'.stripOutput ref)) (pass : OutputPass) :
    P (d.bump pass ref slot).2 := by
  have hb := bumped pass d ref slot
  generalize d.bump pass ref slot = result at hb ⊢
  cases hb with
  | empty | deferred | waiting => exact h
  | dropped _ _ _ _ n => exact strip _ (orphans n)
  | @handed frame result shared hf _ _ _ he =>
    have hemit := emit frame hf
    rw [he] at hemit
    dsimp only
    split
    · exact hemit
    · exact strip _ hemit

/-- A step changes the buffers and what is shared, and nothing else. -/
theorem bump_eq (pass : OutputPass) (d : Decoder) (ref : SlotRef) (slot : Slot) :
    ∃ layers shared, (d.bump pass ref slot).2 = { d with layers, toShared := shared } := by
  let P (d' : Decoder) := ∃ layers shared, d' = { d with layers, toShared := shared }
  refine bump_preserves (P := P) ⟨_, _, rfl⟩ (fun _ => ⟨_, _, rfl⟩) (fun _ _ => ⟨_, _, rfl⟩) ?_ pass
  rintro _ ⟨layers, shared, rfl⟩
  obtain ⟨layers', store, h⟩ := stripOutput_eq { d with layers, toShared := shared } ref
  exact ⟨layers', { shared with store }, h⟩

/-- A step changes no slot but its victim's. -/
theorem slot?_bump_of_ne (hx : x ≠ ref) (pass : OutputPass) (d : Decoder) (slot : Slot) :
    (d.bump pass ref slot).2.slot? x = d.slot? x := by
  refine bump_preserves (P := fun d' => d'.slot? x = d.slot? x) rfl (fun _ => rfl) (fun _ _ => rfl)
    ?_ pass
  intro d' h
  rw [slot?_stripOutput, if_neg hx]
  exact h

/-- A picture that still waits for output after a step is as it was before. -/
theorem slot?_of_bump {s : Slot} (h : (d.bump pass ref slot).2.slot? x = some s)
    (ho : s.flags.output = true) : d.slot? x = some s := by
  let P (d' : Decoder) := d'.slot? x = some s → d.slot? x = some s
  refine bump_preserves (P := P) id (fun _ => id) (fun _ _ => id) ?_ pass h
  intro d' ih h'
  exact ih (slot?_of_stripOutput h' ho).2

/-! ## The course of a pass -/

/-- The **course** of a pass: the state before each of its steps, with the victim. -/
def moments (d : Decoder) (pass : OutputPass) : List Moment :=
  match _ : d.nextVictim? pass with
  | none => []
  | some (ref, slot) =>
    match _ : d.bump pass ref slot with
    | (.ok .next, d') => ⟨pass, d, ref, slot⟩ :: d'.moments pass
    | _ => [⟨pass, d, ref, slot⟩]
termination_by d.backlog
decreasing_by exact backlog_bump_lt ‹_› ‹_›

theorem moments_of_settled (hv : d.nextVictim? pass = none) : d.moments pass = [] := by
  rw [moments]
  split
  · rfl
  · rename_i h
    rw [hv] at h
    cases h

theorem moments_of_next (hv : d.nextVictim? pass = some (ref, slot))
    (hb : d.bump pass ref slot = (.ok .next, d')) :
    d.moments pass = ⟨pass, d, ref, slot⟩ :: d'.moments pass := by
  rw [moments]
  split
  · rename_i h
    rw [hv] at h
    cases h
  · rename_i h
    rw [hv] at h
    cases h
    split
    · rename_i h
      rw [hb] at h
      cases h
      rfl
    · rename_i hne
      exact absurd hb (hne d')

theorem moments_of_end (hv : d.nextVictim? pass = some (ref, slot))
    (hb : (d.bump pass ref slot).1 ≠ .ok .next) :
    d.moments pass = [⟨pass, d, ref, slot⟩] := by
  rw [moments]
  split
  · rename_i h
    rw [hv] at h
    cases h
  · rename_i h
    rw [hv] at h
    cases h
    split
    · rename_i h
      rw [h] at hb
      exact absurd rfl hb
    · rfl

/-- A pass begins with the next victim. -/
theorem mem_moments_of_nextVictim? (hv : d.nextVictim? pass = some (ref, slot)) :
    ⟨pass, d, ref, slot⟩ ∈ d.moments pass := by
  rcases hb : d.bump pass ref slot with ⟨result, d'⟩
  by_cases hn : result = .ok .next
  · subst hn
    rw [moments_of_next hv hb]
    exact List.mem_cons_self
  · rw [moments_of_end hv (by rw [hb]; exact hn)]
    exact List.mem_cons_self

/-- What the rest of a pass does is done by the pass. -/
theorem mem_moments_of_next {m : Moment} (hm : m ∈ d.moments pass)
    (hb : m.decoder.bump m.pass m.ref m.slot = (.ok .next, d')) :
    ∀ m' ∈ d'.moments pass, m' ∈ d.moments pass := by
  fun_induction d.moments pass with
  | case1 d hv => cases hm
  | case2 d ref slot hv d'' hb' ih =>
    rcases List.mem_cons.mp hm with rfl | hm
    · obtain rfl : d'' = d' := (Prod.mk.inj (hb'.symm.trans hb)).2
      intro m' hm'
      exact List.mem_cons_of_mem _ hm'
    · intro m' hm'
      exact List.mem_cons_of_mem _ (ih hm m' hm')
  | case3 d ref slot hv hne =>
    obtain rfl := List.mem_singleton.mp hm
    exact absurd hb (hne d')

/-- **Induction along the course of a pass**: what every step carries on, from the moments so far
and the state, holds before each step and at the end. -/
theorem pass_induction {P : List Moment → Decoder → Prop}
    (step : ∀ {log : List Moment} {d : Decoder} {ref : SlotRef} {slot : Slot}, P log d →
      d.nextVictim? pass = some (ref, slot) →
      P (log ++ [⟨pass, d, ref, slot⟩]) (d.bump pass ref slot).2)
    {log : List Moment} (h : P log d) :
    P (log ++ d.moments pass) (d.output pass).2 ∧
    ∀ {before m after}, d.moments pass = before ++ m :: after →
      P (log ++ before) m.decoder ∧ m.pass = pass ∧
      m.decoder.nextVictim? pass = some (m.ref, m.slot) := by
  have single : ∀ {log : List Moment} {d : Decoder} {ref slot} {before after : List Moment}
      {m : Moment}, P log d → d.nextVictim? pass = some (ref, slot) →
      [(⟨pass, d, ref, slot⟩ : Moment)] = before ++ m :: after →
      P (log ++ before) m.decoder ∧ m.pass = pass ∧
      m.decoder.nextVictim? pass = some (m.ref, m.slot) := by
    intro log d ref slot before after m h hv hm
    obtain ⟨rfl, he⟩ : before = [] ∧ _ := by
      cases before with
      | nil => exact ⟨rfl, hm⟩
      | cons b before => simp at hm
    cases he
    rw [List.append_nil]
    exact ⟨h, rfl, hv⟩
  have last : ∀ {log : List Moment} {d d' : Decoder} {ref slot} {result : Except Fault Bump},
      P log d → d.nextVictim? pass = some (ref, slot) → d.bump pass ref slot = (result, d') →
      result ≠ .ok .next →
      P (log ++ d.moments pass) d' ∧
      ∀ {before m after}, d.moments pass = before ++ m :: after →
        P (log ++ before) m.decoder ∧ m.pass = pass ∧
        m.decoder.nextVictim? pass = some (m.ref, m.slot) := by
    intro log d d' ref slot result h hv hb hne
    have hs := step h hv
    rw [hb] at hs
    rw [moments_of_end hv (by rw [hb]; exact hne)]
    exact ⟨hs, single h hv⟩
  fun_induction d.output pass generalizing log with
  | case1 d hv =>
    rw [moments_of_settled hv, List.append_nil]
    exact ⟨h, fun hm => by simp at hm⟩
  | case2 d ref slot hv fault d' hb => exact last h hv hb (by simp)
  | case3 d ref slot hv d' hb => exact last h hv hb (by simp)
  | case4 d ref slot hv frame d' hb => exact last h hv hb (by simp)
  | case5 d ref slot hv d' hb ih =>
    have hs := step h hv
    rw [hb] at hs
    obtain ⟨hend, hall⟩ := ih hs
    rw [List.append_assoc] at hend
    rw [moments_of_next hv hb]
    refine ⟨hend, ?_⟩
    intro before m after hm
    cases before with
    | nil =>
      obtain ⟨rfl, -⟩ := List.cons.inj hm
      rw [List.append_nil]
      exact ⟨h, rfl, hv⟩
    | cons b before =>
      obtain ⟨rfl, htail⟩ := List.cons.inj hm
      have hp := hall htail
      rwa [List.append_assoc] at hp

/-- A property of states that every step keeps is kept by the pass. -/
theorem output_preserves {P : Decoder → Prop}
    (step : ∀ {d : Decoder} {ref : SlotRef} {slot : Slot}, P d → d.slot? ref = some slot →
      P (d.bump pass ref slot).2) (h : P d) :
    P (d.output pass).2 ∧ ∀ m ∈ d.moments pass, P m.decoder := by
  have step' : ∀ {log : List Moment} {d : Decoder} {ref : SlotRef} {slot : Slot}, P d →
      d.nextVictim? pass = some (ref, slot) → P (d.bump pass ref slot).2 :=
    fun h hv => step h (mem_pending.mp (mem_pending_of_nextVictim? hv)).2.1
  obtain ⟨hend, hall⟩ := @pass_induction d pass (fun _ => P) @step' [] h
  refine ⟨hend, ?_⟩
  intro m hm
  obtain ⟨before, after, hm⟩ := List.append_of_mem hm
  exact (hall hm).1

/-- Each step of a pass takes the next victim of the state before it. -/
theorem moments_victim {m : Moment} (hm : m ∈ d.moments pass) :
    m.pass = pass ∧ m.decoder.nextVictim? pass = some (m.ref, m.slot) := by
  obtain ⟨before, after, hm⟩ := List.append_of_mem hm
  exact ((@pass_induction d pass (fun _ _ => True) (fun _ _ => trivial) [] trivial).2 hm).2

/-- The victim of a step is what its slot holds. -/
theorem moments_slot? {m : Moment} (hm : m ∈ d.moments pass) :
    m.decoder.slot? m.ref = some m.slot :=
  (mem_pending.mp (mem_pending_of_nextVictim? (moments_victim hm).2)).2.1

/-- How a step ends the pass, if it does. -/
def passEnd? : Except Fault Bump → Option (Except Fault PassEnd)
  | .error fault => some (.error fault)
  | .ok .next => none
  | .ok .deferred => some (.ok .deferred)
  | .ok (.waiting frame) => some (.ok (.waiting frame))

/-- A pass that does not settle ends as one of its steps does. -/
theorem output_end_iff {finish : Except Fault PassEnd} (hf : finish ≠ .ok .settled) :
    (d.output pass).1 = finish ↔
      ∃ m ∈ d.moments pass, passEnd? (m.decoder.bump m.pass m.ref m.slot).1 = some finish := by
  have last : ∀ {d d' : Decoder} {ref slot} {result : Except Fault Bump}
      {out : Except Fault PassEnd}, d.nextVictim? pass = some (ref, slot) →
      d.bump pass ref slot = (result, d') → passEnd? result = some out →
      (out = finish ↔ ∃ m ∈ d.moments pass,
        passEnd? (m.decoder.bump m.pass m.ref m.slot).1 = some finish) := by
    intro d d' ref slot result out hv hb he
    have hne : (d.bump pass ref slot).1 ≠ .ok .next := by
      rintro hn
      rw [hb] at hn
      rw [show result = .ok .next from hn] at he
      cases he
    rw [moments_of_end hv hne]
    simp [hb, he]
  fun_induction d.output pass with
  | case1 d hv => simp [moments_of_settled hv, Ne.symm hf]
  | case2 d ref slot hv fault d' hb => exact last hv hb rfl
  | case3 d ref slot hv d' hb => exact last hv hb rfl
  | case4 d ref slot hv frame d' hb => exact last hv hb rfl
  | case5 d ref slot hv d' hb ih =>
    refine ih.trans ?_
    rw [moments_of_next hv hb]
    simp [hb, passEnd?]

/-- A pass ends with waiting if and only if one of its steps does. -/
theorem output_waiting_iff {frame : FrameId} : (d.output pass).1 = .ok (.waiting frame) ↔
    ∃ m ∈ d.moments pass,
      (m.decoder.bump m.pass m.ref m.slot).1 = .ok (.waiting frame) := by
  have hend : ∀ result : Except Fault Bump,
      passEnd? result = some (.ok (.waiting frame)) ↔ result = .ok (.waiting frame) := by
    rintro (_ | _ | _ | _) <;> simp [passEnd?]
  rw [output_end_iff (by simp)]
  simp only [hend]

/-- A pass fails if and only if one of its steps does. -/
theorem output_error_iff {fault : Fault} : (d.output pass).1 = .error fault ↔
    ∃ m ∈ d.moments pass, (m.decoder.bump m.pass m.ref m.slot).1 = .error fault := by
  have hend : ∀ result : Except Fault Bump,
      passEnd? result = some (.error fault) ↔ result = .error fault := by
    rintro (_ | _ | _ | _) <;> simp [passEnd?]
  rw [output_end_iff (by simp)]
  simp only [hend]

/-- A pass that settles leaves no victim. -/
theorem nextVictim?_of_settled (h : (d.output pass).1 = .ok .settled) :
    (d.output pass).2.nextVictim? pass = none := by
  fun_induction d.output pass with
  | case1 d hv => exact hv
  | case2 | case3 | case4 => cases h
  | case5 d ref slot hv d' hb ih => exact ih h

/-- A pass changes the buffers and what is shared, and nothing else. -/
theorem output_eq (d : Decoder) (pass : OutputPass) :
    (∃ layers shared, (d.output pass).2 = { d with layers, toShared := shared }) ∧
    ∀ m ∈ d.moments pass, ∃ layers shared, m.decoder = { d with layers, toShared := shared } := by
  let P (d' : Decoder) := ∃ layers shared, d' = { d with layers, toShared := shared }
  refine @output_preserves d pass P ?_ ⟨_, _, rfl⟩
  rintro d' ref slot ⟨layers, shared, rfl⟩ _
  obtain ⟨layers', shared', h⟩ := bump_eq pass { d with layers, toShared := shared } ref slot
  exact ⟨layers', shared', h⟩

end Decoder

end PictureBuffer
