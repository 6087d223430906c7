import PictureBuffer.Proofs.Isolation
import PictureBuffer.Proofs.Presentation
import PictureBuffer.Proofs.Victims

/-!
# The buffers do not depend on what becomes of the output

Which pictures an output pass takes out is decided by the buffers alone, and by the picture that is
being decoded. Whether a picture is shown or dropped, whether a field is stashed, woven, or taken
out twice because the stash had to be dropped for it, and what the provider and the queue have to do
with that: all of it changes the number of steps, and none of it the pictures that have left the
buffers when the pass returns (`buffers_independent`).

What the choice of a victim depends on is what is left of the slots when everything else is erased
(`Slot.plain`). The pass takes out the first pictures of the presentation, until the decoder is at
rest (`restsAfter_of_returns`); both notions are the same for a decoder and for what is left of it
(`restsAfter_plain`).

A pass is seen here as its caller sees it (`OutputPass.Returns`): it waits for the frames that it
has to wait for, and whatever is shared may change between any two of its steps.
-/

namespace PictureBuffer

/-! ## What the choice of a victim depends on -/

/-- What the choice of a victim depends on: the order count, the flags, the structure, the picture
of the base layer, and whether the slot is free. Everything else is erased. -/
def Slot.plain (slot : Slot) : Slot where
  poc := slot.poc
  flags := slot.flags
  picStruct := slot.picStruct
  base := slot.base
  frame := slot.frame.map fun _ => 0

theorem Slot.isFree_plain (slot : Slot) : slot.plain.isFree = slot.isFree :=
  Option.isNone_map

theorem Slot.plain_strip (mask : Flags) (slot : Slot) :
    (slot.strip mask).plain = slot.plain.strip mask := by
  have hflags : slot.plain.flags = slot.flags := rfl
  unfold strip
  dsimp only
  rw [isFree_plain, hflags]
  split <;> rfl

def Layer.plain (layer : Layer) : Layer where
  dpb := { layer := 0, slots := layer.dpb.slots.map (·.plain) }

def Layers.plain (layers : Layers) : Layers := ⟨layers.base.plain, layers.enhancement.plain⟩

theorem Dpb.plain_without (dpb : Dpb) (n : Nat) (gone : List SlotRef) :
    (dpb.without n gone).slots.map (·.plain) =
      (({ layer := 0, slots := dpb.slots.map (·.plain) } : Dpb).without n gone).slots := by
  apply List.ext_getElem?
  intro i
  simp only [without, List.getElem?_map, List.getElem?_mapIdx, Option.map_map]
  congr 1
  funext slot
  dsimp only [Function.comp_apply]
  split
  · exact Slot.plain_strip .waiting slot
  · rfl

theorem Layers.plain_without (layers : Layers) (gone : List SlotRef) :
    (layers.without gone).plain = layers.plain.without gone := by
  unfold without plain Layer.plain
  dsimp only
  rw [Dpb.plain_without, Dpb.plain_without]
  rfl

theorem Dpb.numInUse_plain (dpb : Dpb) :
    ({ layer := 0, slots := dpb.slots.map (·.plain) } : Dpb).numInUse = dpb.numInUse := by
  unfold numInUse
  rw [List.countP_map]
  rfl

/-- The decoder with everything erased that the choice of a victim does not depend on. -/
def Decoder.plain (d : Decoder) : Decoder := { d with layers := d.layers.plain }

namespace Decoder

variable {d d' : Decoder} {ref : SlotRef} {slot : Slot} {pass : OutputPass} {mask k : Nat}

/-- An entry of the list of pending pictures, erased. -/
def plainEntry (entry : SlotRef × Slot) : SlotRef × Slot := (entry.1, entry.2.plain)

theorem slot?_plain (d : Decoder) (ref : SlotRef) :
    d.plain.slot? ref = (d.slot? ref).map (·.plain) := by
  obtain ⟨n, i⟩ := ref
  match n with
  | 0 | 1 => exact List.getElem?_map
  | n + 2 => rfl

theorem redrawn_plain (d : Decoder) : d.Redrawn (fun _ slot => slot.plain) d.plain :=
  ⟨rfl, rfl, fun _ _ => rfl, fun _ _ => rfl, fun _ _ _ => rfl⟩

theorem pending_plain (d : Decoder) (mask : Nat) :
    d.plain.pending mask = (d.pending mask).map plainEntry :=
  d.redrawn_plain.pending mask

theorem presentation_plain (d : Decoder) (mask : Nat) :
    d.plain.presentation mask = (d.presentation mask).map plainEntry := by
  have hmap : ((d.pending mask).mergeSort notAfter).map plainEntry =
      ((d.pending mask).map plainEntry).mergeSort notAfter :=
    List.map_mergeSort fun _ _ _ _ => rfl
  rw [presentation, presentation, pending_plain, hmap]

theorem firsts_plain (d : Decoder) (pass : OutputPass) (k : Nat) :
    d.plain.firsts pass k = d.firsts pass k := by
  rw [firsts, firsts, presentation_plain, ← List.map_take, List.map_map]
  rfl

theorem overfull_plain (d : Decoder) (mask limit : Nat) :
    d.plain.overfull mask limit = d.overfull mask limit :=
  overfull_congr (Dpb.numInUse_plain _) (Dpb.numInUse_plain _) mask limit

theorem eased_plain : d.plain.Eased pass ↔ d.Eased pass := by
  rw [← mustBump_eq_false_iff, ← mustBump_eq_false_iff, mustBump, mustBump,
    d.redrawn_plain.pendingUnits, overfull_plain]

theorem ownFieldNext_plain : d.plain.OwnFieldNext pass ↔ d.OwnFieldNext pass := by
  unfold OwnFieldNext
  rw [presentation_plain]
  constructor
  · rintro ⟨_, _, rest, hp, hf, hd, hpoc⟩
    obtain ⟨⟨ref, slot⟩, rest', hp', he, -⟩ := List.map_eq_cons_iff.mp hp
    obtain ⟨rfl, rfl⟩ := Prod.mk.inj he
    exact ⟨ref, slot, rest', hp', hf, hd, hpoc⟩
  · rintro ⟨ref, slot, rest, hp, hf, hd, hpoc⟩
    refine ⟨ref, slot.plain, rest.map plainEntry, ?_, hf, hd, hpoc⟩
    rw [hp]
    rfl

theorem atRest_plain : d.plain.AtRest pass ↔ d.AtRest pass :=
  or_congr eased_plain ownFieldNext_plain

/-- **A decoder and what is left of it rest after the same pictures.** -/
theorem restsAfter_plain : d.plain.RestsAfter pass k ↔ d.RestsAfter pass k := by
  have hrest : ∀ j, (d.plain.without (d.plain.firsts pass j)).AtRest pass ↔
      (d.without (d.firsts pass j)).AtRest pass := by
    intro j
    have hwithout : d.plain.without (d.firsts pass j) = (d.without (d.firsts pass j)).plain := by
      unfold plain without
      dsimp only
      rw [Layers.plain_without]
    rw [firsts_plain, hwithout]
    exact atRest_plain
  simp only [RestsAfter, hrest]

/-- The decoder is at rest after one number of pictures only. -/
theorem restsAfter_unique {j : Nat} (hj : d.RestsAfter pass j) (hk : d.RestsAfter pass k) :
    j = k := by
  rcases Nat.lt_trichotomy j k with hlt | heq | hgt
  · exact absurd hj.1 (hk.2 j hlt)
  · exact heq
  · exact absurd hk.1 (hj.2 k hgt)

end Decoder

/-! ## A pass and its caller -/

/-- Two passes consider the same layers and leave as many pictures. They may show others. -/
structure OutputPass.SameLimits (pass pass' : OutputPass) : Prop where
  active : pass'.active = pass.active
  maxPending : pass'.maxPending = pass.maxPending
  maxInUse : pass'.maxInUse = pass.maxInUse

/-- **A pass returns** `e`. It waits for the frames that it has to wait for, and between two of its
steps others may change whatever is shared. -/
inductive OutputPass.Returns (pass : OutputPass) : Decoder → PassEnd → Decoder → Prop
  | settled {d : Decoder} (hv : d.nextVictim? pass = none) : Returns pass d .settled d
  | deferred {d d' : Decoder} {ref : SlotRef} {slot : Slot}
      (hv : d.nextVictim? pass = some (ref, slot))
      (hb : d.bump pass ref slot = (.ok .deferred, d')) : Returns pass d .deferred d'
  | next {d d' d'' : Decoder} {ref : SlotRef} {slot : Slot} {e : PassEnd}
      (hv : d.nextVictim? pass = some (ref, slot)) (hb : d.bump pass ref slot = (.ok .next, d'))
      (shared : Shared) (rest : Returns pass { d' with toShared := shared } e d'') :
      Returns pass d e d''
  | waited {d d' d'' : Decoder} {ref : SlotRef} {slot : Slot} {frame : FrameId} {e : PassEnd}
      (hv : d.nextVictim? pass = some (ref, slot))
      (hb : d.bump pass ref slot = (.ok (.waiting frame), d'))
      (shared : Shared) (rest : Returns pass { d' with toShared := shared } e d'') :
      Returns pass d e d''

namespace Decoder

variable {d d' d₁ d₂ d₁' d₂' : Decoder} {ref : SlotRef} {slot : Slot}
  {pass pass' pass₁ pass₂ : OutputPass} {k : Nat} {e e₁ e₂ : PassEnd}

/-- A pass that does not have to wait, and during which nobody else does anything. -/
theorem returns_of_output (h : d.output pass = (.ok e, d')) (hw : ∀ frame, e ≠ .waiting frame) :
    pass.Returns d e d' := by
  fun_induction d.output pass with
  | case1 d hv =>
    cases h
    exact .settled hv
  | case2 => cases h
  | case3 d ref slot hv d₁ hb =>
    cases h
    exact .deferred hv hb
  | case4 =>
    cases h
    exact absurd rfl (hw _)
  | case5 d ref slot hv d₁ hb ih => exact .next hv hb d₁.toShared (ih h)

theorem not_eased_of_nextVictim? {victim : SlotRef × Slot} (hv : d.nextVictim? pass = some victim) :
    ¬ d.Eased pass := by
  rw [← mustBump_eq_false_iff]
  unfold nextVictim? at hv
  split at hv
  · rename_i hmust
    rw [hmust]
    exact Bool.noConfusion
  · cases hv

/-- **What a pass has taken out when it returns**, whatever else went on: the first pictures of the
presentation, as many as it takes for the decoder to be at rest. -/
theorem restsAfter_of_returns (h : pass.Returns d e d') :
    (∃ k, d.RestsAfter pass k ∧ d'.layers = d.layers.without (d.firsts pass k)) ∧
    d'.decoding = d.decoding ∧ d'.poc = d.poc ∧
    (e = .settled ∧ d'.Eased pass ∨ e = .deferred ∧ ¬ d'.Eased pass) := by
  induction h with
  | @settled d hv =>
    have heased := eased_of_nextVictim? hv
    exact ⟨⟨0, restsAfter_zero (Or.inl heased), (Layers.without_nil _).symm⟩, rfl, rfl,
      Or.inl ⟨rfl, heased⟩⟩
  | @deferred d d' ref slot hv hb =>
    obtain ⟨rest, hp⟩ := presentation_of_nextVictim? hv
    obtain ⟨ho, rfl⟩ := bump_deferred hb
    simp only [isOwnField, Bool.and_eq_true, beq_iff_eq] at ho
    have hrest : d'.AtRest pass := Or.inr ⟨ref, slot, rest, hp, ho.1.1, ho.1.2, ho.2⟩
    exact ⟨⟨0, restsAfter_zero hrest, (Layers.without_nil _).symm⟩, rfl, rfl,
      Or.inr ⟨rfl, not_eased_of_nextVictim? hv⟩⟩
  | @next d d₁ d'' ref slot e hv hb shared rest ih =>
    obtain ⟨⟨k, hk, hl⟩, hdecoding, hpoc, hend⟩ := ih
    have hl : d''.layers = d₁.layers.without (d₁.firsts pass k) := hl
    obtain ⟨ho, hd, hp, hsame | htaken⟩ := bump_next hb
    · refine ⟨⟨k, (restsAfter_congr hsame hd hp).mp hk, ?_⟩, hdecoding.trans hd, hpoc.trans hp,
        hend⟩
      rw [hl, firsts_congr hsame, hsame]
    · refine ⟨⟨k + 1, restsAfter_succ hv (not_atRest_of_next hv ho) htaken hd hp hk, ?_⟩,
        hdecoding.trans hd, hpoc.trans hp, hend⟩
      rw [hl, firsts_succ hv htaken, htaken]
      exact Layers.without_append _ _ _
  | @waited d d₁ d'' ref slot frame e hv hb shared rest ih =>
    obtain ⟨-, -, -, rfl⟩ := bump_waiting hb
    obtain ⟨⟨k, hk, hl⟩, hend⟩ := ih
    exact ⟨⟨k, (restsAfter_congr rfl rfl rfl).mp hk, hl⟩, hend⟩

/-! ## Two passes -/

/-- **The buffers of two decoders are alike**, and so is the picture that they are decoding, as far
as the choice of a victim depends on it. -/
structure SamePictures (d₁ d₂ : Decoder) : Prop where
  slots : ∀ ref, (d₂.slot? ref).map (·.plain) = (d₁.slot? ref).map (·.plain)
  decoding : d₂.decoding = d₁.decoding
  poc : d₂.poc = d₁.poc

theorem SamePictures.layers (h : d₁.SamePictures d₂) : d₂.layers.plain = d₁.layers.plain := by
  have layer : ∀ (n : Nat) (l₁ l₂ : Layer), d₁.layer? n = some l₁ → d₂.layer? n = some l₂ →
      l₂.plain = l₁.plain := by
    intro n l₁ l₂ h₁ h₂
    have hslots : l₂.dpb.slots.map (·.plain) = l₁.dpb.slots.map (·.plain) := by
      apply List.ext_getElem?
      intro i
      have hi := h.slots ⟨n, i⟩
      rw [slot?, slot?, h₁, h₂] at hi
      rw [List.getElem?_map, List.getElem?_map]
      exact hi
    rw [Layer.plain, Layer.plain, hslots]
  rw [Layers.plain, Layers.plain, layer 0 d₁.layers.base d₂.layers.base rfl rfl,
    layer 1 d₁.layers.enhancement d₂.layers.enhancement rfl rfl]

theorem samePictures_of_layers (hl : d₂.layers.plain = d₁.layers.plain)
    (hd : d₂.decoding = d₁.decoding) (hp : d₂.poc = d₁.poc) : d₁.SamePictures d₂ := by
  refine ⟨fun ref => ?_, hd, hp⟩
  rw [← slot?_plain, ← slot?_plain, slot?, slot?, layer?, layer?]
  exact congrArg (fun layers : Layers => (layers.get? ref.layer).bind (·.dpb.slot? ref.index)) hl

/-- What a pass shows has no part in what it takes out. -/
theorem restsAfter_congr_limits (h : pass.SameLimits pass') :
    d.RestsAfter pass' k ↔ d.RestsAfter pass k := by
  simp only [RestsAfter, AtRest, Eased, OwnFieldNext, firsts, h.active, h.maxPending, h.maxInUse]

theorem firsts_congr_limits (h : pass.SameLimits pass') : d.firsts pass' k = d.firsts pass k := by
  rw [firsts, firsts, h.active]

theorem eased_congr_limits (h : pass.SameLimits pass') : d.Eased pass' ↔ d.Eased pass := by
  simp only [Eased, h.active, h.maxPending, h.maxInUse]

/-- The pictures to come out first are those of the same slots. -/
theorem SamePictures.firsts (h : d₁.SamePictures d₂) (pass : OutputPass) (k : Nat) :
    d₂.firsts pass k = d₁.firsts pass k := by
  rw [← firsts_plain, ← d₁.firsts_plain]
  exact @firsts_congr d₁.plain d₂.plain pass h.layers k

theorem SamePictures.restsAfter (h : d₁.SamePictures d₂) :
    d₂.RestsAfter pass k ↔ d₁.RestsAfter pass k := by
  rw [← restsAfter_plain, ← @restsAfter_plain d₁]
  exact @restsAfter_congr d₁.plain d₂.plain pass k h.layers h.decoding h.poc

theorem SamePictures.eased (h : d₁.SamePictures d₂) : d₂.Eased pass ↔ d₁.Eased pass := by
  rw [← eased_plain, ← @eased_plain d₁]
  have hl : d₂.plain.layers = d₁.plain.layers := h.layers
  simp only [Eased, pendingUnits, basePending, pending, activeLayers, layer?, hl]

/-- **Two passes with the same limits take the same pictures out** of buffers that are alike. -/
theorem returns_alike (hlimits : pass₁.SameLimits pass₂) (h : d₁.SamePictures d₂)
    (h₁ : pass₁.Returns d₁ e₁ d₁') (h₂ : pass₂.Returns d₂ e₂ d₂') :
    e₁ = e₂ ∧ d₁'.SamePictures d₂' ∧
      ∃ gone, d₁'.layers = d₁.layers.without gone ∧ d₂'.layers = d₂.layers.without gone := by
  obtain ⟨⟨k₁, hk₁, hl₁⟩, hd₁, hp₁, hend₁⟩ := restsAfter_of_returns h₁
  obtain ⟨⟨k₂, hk₂, hl₂⟩, hd₂, hp₂, hend₂⟩ := restsAfter_of_returns h₂
  obtain rfl : k₂ = k₁ :=
    restsAfter_unique (h.restsAfter.mp ((restsAfter_congr_limits hlimits).mp hk₂)) hk₁
  rw [firsts_congr_limits hlimits, h.firsts] at hl₂
  have hlayers : d₂'.layers.plain = d₁'.layers.plain := by
    rw [hl₁, hl₂, Layers.plain_without, Layers.plain_without, h.layers]
  have hsame : d₁'.SamePictures d₂' := samePictures_of_layers hlayers
    ((hd₂.trans h.decoding).trans hd₁.symm) ((hp₂.trans h.poc).trans hp₁.symm)
  refine ⟨?_, hsame, _, hl₁, hl₂⟩
  have heased : d₂'.Eased pass₂ ↔ d₁'.Eased pass₁ :=
    (eased_congr_limits hlimits).trans hsame.eased
  rcases hend₁ with ⟨rfl, hr₁⟩ | ⟨rfl, hr₁⟩
  · rcases hend₂ with ⟨rfl, -⟩ | ⟨-, hr₂⟩
    · rfl
    · exact absurd (heased.mpr hr₁) hr₂
  · rcases hend₂ with ⟨-, hr₂⟩ | ⟨rfl, -⟩
    · exact absurd (heased.mp hr₂) hr₁
    · rfl

/-! ## The progress of the pictures -/

/-- How far the production of the picture in a slot has come. -/
def progress? (d : Decoder) (ref : SlotRef) : Option Progress :=
  (d.frameAt? ref).map fun frame => (d.store.frame frame).progress

/-- The pictures in the buffers of two decoders have come equally far. -/
def SameProgress (d₁ d₂ : Decoder) : Prop := ∀ ref, d₂.progress? ref = d₁.progress? ref

/-- A decoder of a session, in some state of some run. -/
def Reachable (d : Decoder) : Prop :=
  ∃ config provider log s i, Session.Run config provider log s ∧ s.decoder? i = some d

theorem SamePictures.isSome_frameAt? (h : d₁.SamePictures d₂) (ref : SlotRef) :
    (d₂.frameAt? ref).isSome = (d₁.frameAt? ref).isSome := by
  have hplain : ∀ d : Decoder,
      (d.frameAt? ref).isSome = (((d.slot? ref).map (·.plain)).bind (·.frame)).isSome := by
    intro d
    rw [frameAt?]
    cases d.slot? ref with
    | none => rfl
    | some slot => exact Option.isSome_map.symm
  rw [hplain, hplain, h.slots]

/-- **A pass leaves the frames alone** whose pictures stay in the buffers. -/
theorem Reachable.frame_output (h : d.Reachable) {x : FrameId}
    (hf : (d.output pass).2.frameAt? ref = some x) :
    d.frameAt? ref = some x ∧ (d.output pass).2.store.frame x = d.store.frame x := by
  obtain ⟨config, provider, log, s, i, run, hd⟩ := h
  have hold := (d.ages_output pass).1.frameAt? hf
  have hspares := (d.spares_output pass).1.frames x
    ((Session.apart_of_frameAt? run hd hold).decoder hd)
  have haccounted := (d.grows_output pass).1.accounted _
    ((Session.accounted_iff hd).mp (Session.accounted_run run))
  obtain ⟨slot, hslot, hframe⟩ := frameAt?_eq_some_iff.mp hf
  have hpos := Shared.Accounted.pos haccounted (List.mem_append_left _ (mem_frames hslot hframe))
  exact ⟨hold, by rw [Store.frame, Store.frame, hspares.frame?_eq hpos]⟩

theorem Reachable.progress?_output (h : d.Reachable)
    (hs : ((d.output pass).2.frameAt? ref).isSome = true) :
    (d.output pass).2.progress? ref = d.progress? ref := by
  obtain ⟨x, hf⟩ := Option.isSome_iff_exists.mp hs
  obtain ⟨hold, hframe⟩ := h.frame_output hf
  rw [progress?, progress?, hf, hold, Option.map_some, Option.map_some, hframe]

/-- **The buffers do not depend on what becomes of the output.** Take two decoders whose buffers are
alike, and two passes with the same limits. The decoders may differ in everything else, and so may
what the passes show.

* If both passes return, then they return the same, the same pictures have lost their output flag,
  the same slots are released, and the buffers are alike again.
* If moreover the pictures in the buffers had come equally far, and nobody has interfered, then they
  still have. -/
theorem buffers_independent (hlimits : pass₁.SameLimits pass₂) (h : d₁.SamePictures d₂) :
    (∀ {e₁ e₂ d₁' d₂'}, pass₁.Returns d₁ e₁ d₁' → pass₂.Returns d₂ e₂ d₂' →
      e₁ = e₂ ∧ d₁'.SamePictures d₂' ∧
      ∃ gone, d₁'.layers = d₁.layers.without gone ∧ d₂'.layers = d₂.layers.without gone) ∧
    (d₁.Reachable → d₂.Reachable → d₁.SameProgress d₂ → ∀ {e₁ e₂ d₁' d₂'},
      d₁.output pass₁ = (.ok e₁, d₁') → (∀ frame, e₁ ≠ .waiting frame) →
      d₂.output pass₂ = (.ok e₂, d₂') → (∀ frame, e₂ ≠ .waiting frame) →
      d₁'.SamePictures d₂' ∧ d₁'.SameProgress d₂') := by
  refine ⟨returns_alike hlimits h, ?_⟩
  intro hr₁ hr₂ hprogress e₁ e₂ d₁' d₂' h₁ hw₁ h₂ hw₂
  obtain ⟨-, hsame, -⟩ :=
    returns_alike hlimits h (returns_of_output h₁ hw₁) (returns_of_output h₂ hw₂)
  refine ⟨hsame, fun ref => ?_⟩
  have hsome := hsame.isSome_frameAt? ref
  obtain rfl : (d₁.output pass₁).2 = d₁' := congrArg Prod.snd h₁
  obtain rfl : (d₂.output pass₂).2 = d₂' := congrArg Prod.snd h₂
  cases hf : (d₁.output pass₁).2.frameAt? ref with
  | none =>
    rw [hf, Option.isSome_none, Option.isSome_eq_false_iff, Option.isNone_iff_eq_none] at hsome
    rw [progress?, progress?, hf, hsome]
    rfl
  | some x =>
    have hs₁ : ((d₁.output pass₁).2.frameAt? ref).isSome = true := by rw [hf]; rfl
    rw [hr₁.progress?_output hs₁, hr₂.progress?_output (hsome.trans hs₁), hprogress ref]

end Decoder

namespace Session

/-- The pass that takes the same pictures out as `basePass` and shows none. -/
def dropPass : OutputPass := { basePass with discard := true }

/-- Two fields are decoded, with an output pass in between. -/
def betweenFields (pass : OutputPass) : List Event :=
  [.run 0 (.setSps 0 { width := 2, height := 2 }),
    .run 0 (.setSei { picStruct := .topField }), startBase 10, .run 0 .finishPicture,
    .run 0 (.output pass),
    .run 0 (.setSei { picStruct := .bottomField }), startBase 11, .run 0 .finishPicture]

/-- The decoder once both fields are decoded. -/
def secondField (pass : OutputPass) : Decoder :=
  (((start {} {}).afterAll (betweenFields pass)).decoder? 0).getD
    { toContext := .initial {}, toShared := { queue := { capacity := 0 } } }

theorem secondField_reachable {pass : OutputPass}
    (h : (((start {} {}).afterAll (betweenFields pass)).decoder? 0).isSome = true) :
    (secondField pass).Reachable := by
  obtain ⟨d, hd⟩ := Option.isSome_iff_exists.mp h
  refine ⟨{}, {}, _, _, 0, run_all (betweenFields pass) (@Run.start {} {}), ?_⟩
  rw [secondField, hd, Option.getD_some]

/-- In one decoder the first field waits in the stash, in the other one it was dropped. The pass
that weaves it with the second field, and the pass that drops the second one too, leave the buffers
alike. -/
theorem secondField_independent :
    ((secondField basePass).scheduler.stash.isSome, (secondField dropPass).scheduler.stash.isSome) =
      (true, false) ∧
    ((secondField basePass).output basePass).2.SamePictures
      ((secondField dropPass).output dropPass).2 ∧
    ((secondField basePass).output basePass).2.SameProgress
      ((secondField dropPass).output dropPass).2 := by
  have hlimits : basePass.SameLimits dropPass := ⟨rfl, rfl, rfl⟩
  have hsame : (secondField basePass).SamePictures (secondField dropPass) :=
    Decoder.samePictures_of_layers (by decide +kernel) (by decide +kernel) (by decide +kernel)
  have hprogress : (secondField basePass).SameProgress (secondField dropPass) := by
    have slots : ∀ n < 2, ∀ i < 16, (secondField dropPass).progress? ⟨n, i⟩ =
        (secondField basePass).progress? ⟨n, i⟩ := by decide +kernel
    have outside : ∀ {d : Decoder} {n i : Nat}, (d.layers.base.dpb.slots.length = 16 ∧
        d.layers.enhancement.dpb.slots.length = 16) → ¬ (n < 2 ∧ i < 16) →
        d.progress? ⟨n, i⟩ = none := by
      intro d n i hlength hout
      have hslot : d.slot? ⟨n, i⟩ = none := by
        match n with
        | 0 =>
          have hle : d.layers.base.dpb.slots.length ≤ i := by omega
          exact List.getElem?_eq_none hle
        | 1 =>
          have hle : d.layers.enhancement.dpb.slots.length ≤ i := by omega
          exact List.getElem?_eq_none hle
        | n + 2 => rfl
      rw [Decoder.progress?, Decoder.frameAt?, hslot]
      rfl
    rintro ⟨n, i⟩
    by_cases hin : n < 2 ∧ i < 16
    · exact slots n hin.1 i hin.2
    · rw [outside (by decide +kernel) hin, outside (by decide +kernel) hin]
  have ends : ∀ (d : Decoder) (pass : OutputPass), (d.output pass).1.toOption = some .settled →
      d.output pass = (.ok .settled, (d.output pass).2) :=
    fun d pass h => Prod.ext (eq_ok_of_toOption h) rfl
  refine ⟨by decide +kernel, ?_⟩
  exact (Decoder.buffers_independent hlimits hsame).2
    (secondField_reachable (by decide +kernel)) (secondField_reachable (by decide +kernel))
    hprogress (ends (secondField basePass) basePass (by decide +kernel)) (by simp)
    (ends (secondField dropPass) dropPass (by decide +kernel)) (by simp)

end Session

end PictureBuffer
