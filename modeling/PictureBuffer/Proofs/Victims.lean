import PictureBuffer.Decoder.Output

/-!
# What the choice of a victim depends on

The next victim of an output pass is chosen among the slots whose pictures wait for output, by their
order count. How many pictures wait depends on what access units they belong to. Nothing else of a
slot matters, except that the pictures of a layer are counted: if the slots of two decoders agree
in this, slot by slot (`Decoder.Redrawn`), then the same victim comes next
(`Decoder.Redrawn.nextVictim?`).
-/

namespace PictureBuffer

/-- The least of the images is the image of the least. -/
theorem minOn?_map {α β : Type} {f : β → Int} {g : α → β} (l : List α) :
    (l.map g).minOn? f = (l.minOn? fun a => f (g a)).map g := by
  induction l with
  | nil => rfl
  | cons a l ih =>
    rw [List.map_cons, List.minOn?_cons, List.minOn?_cons, ih]
    cases l.minOn? fun a => f (g a) with
    | none => rfl
    | some b =>
      simp only [Option.map_some, Option.elim_some, minOn]
      split <;> rfl

namespace Decoder

variable {d d' : Decoder} {f : Nat → Slot → Slot} {slot : Slot} {mask n : Nat} {pass : OutputPass}

/-- **Every slot is redrawn** by `f`, which is told the number of the layer. The order count stays,
and which pictures wait for output, and those keep their access unit. -/
structure Redrawn (f : Nat → Slot → Slot) (d d' : Decoder) : Prop where
  base : d'.layers.base.dpb.slots = d.layers.base.dpb.slots.map (f 0)
  enhancement : d'.layers.enhancement.dpb.slots = d.layers.enhancement.dpb.slots.map (f 1)
  poc : ∀ n slot, (f n slot).poc = slot.poc
  output : ∀ n slot, (f n slot).flags.output = slot.flags.output
  unit : ∀ n slot, slot.flags.output = true → (f n slot).base = slot.base

/-- An entry of the list of pending pictures, redrawn. -/
def redraw (f : Nat → Slot → Slot) (entry : SlotRef × Slot) : SlotRef × Slot :=
  (entry.1, f entry.1.layer entry.2)

theorem pendingIn_map {layer layer' : Layer} (hs : layer'.dpb.slots = layer.dpb.slots.map (f n))
    (ho : ∀ slot, (f n slot).flags.output = slot.flags.output) :
    pendingIn n layer' = (pendingIn n layer).map (redraw f) := by
  have hkept : (fun entry : Slot × Nat => entry.1.flags.output) ∘ Prod.map (f n) id =
      fun entry => entry.1.flags.output := funext fun entry => ho entry.1
  unfold pendingIn
  rw [hs, List.zipIdx_map, List.filter_map, List.map_map, List.map_map, hkept]
  rfl

/-- The pictures of the base layer come first. -/
theorem pending_eq (d : Decoder) (mask : Nat) : d.pending mask =
    (if mask.testBit 0 = true then pendingIn 0 d.layers.base else []) ++
      (if mask.testBit 1 = true then pendingIn 1 d.layers.enhancement else []) := by
  unfold pending activeLayers Layers.toList
  rw [List.filter_cons, List.filter_cons, List.filter_nil]
  split <;> split <;>
    simp only [List.flatMap_cons, List.flatMap_nil, List.append_nil, List.nil_append]

/-- Whether a layer is overfull depends on the number of its pictures. -/
theorem overfull_congr (hb : d'.layers.base.dpb.numInUse = d.layers.base.dpb.numInUse)
    (he : d'.layers.enhancement.dpb.numInUse = d.layers.enhancement.dpb.numInUse)
    (mask limit : Nat) : d'.overfull mask limit = d.overfull mask limit := by
  have hsplit : ∀ d : Decoder, d.overfull mask limit =
      (mask.testBit 0 && decide (limit < d.layers.base.dpb.numInUse) ||
        mask.testBit 1 && decide (limit < d.layers.enhancement.dpb.numInUse)) := by
    intro d
    unfold overfull activeLayers Layers.toList
    rw [List.any_filter, List.any_cons, List.any_cons, List.any_nil, Bool.or_false]
  rw [hsplit, hsplit, hb, he]

namespace Redrawn

theorem pending (h : Redrawn f d d') (mask : Nat) :
    d'.pending mask = (d.pending mask).map (redraw f) := by
  rw [pending_eq, pending_eq, pendingIn_map h.base (h.output 0),
    pendingIn_map h.enhancement (h.output 1), List.map_append]
  split <;> split <;> rfl

theorem basePending (h : Redrawn f d d') (ho : slot.flags.output = true) :
    d'.basePending (f n slot) = d.basePending slot := by
  unfold Decoder.basePending
  rw [h.unit n slot ho]
  cases slot.base with
  | none => rfl
  | some index =>
    have hslot : d'.layers.base.dpb.slot? index = (d.layers.base.dpb.slot? index).map (f 0) := by
      rw [Dpb.slot?, h.base, List.getElem?_map, Dpb.slot?]
    rw [Option.bind_some, Option.bind_some, hslot, Option.any_map]
    exact congrArg (Option.any · _) (funext fun old => h.output 0 old)

theorem pendingUnits (h : Redrawn f d d') (mask : Nat) :
    d'.pendingUnits mask = d.pendingUnits mask := by
  unfold Decoder.pendingUnits
  rw [h.pending, List.countP_map]
  refine List.countP_congr fun entry hentry => ?_
  have ho : entry.2.flags.output = true := (mem_pending.mp hentry).2.2
  exact Bool.eq_iff_iff.mp (congrArg not (h.basePending ho))

/-- **The same victim comes next**, as long as the layers are as full as far as the pass can
tell. -/
theorem nextVictim? (h : Redrawn f d d') (hfull :
    d'.overfull pass.active pass.maxInUse = d.overfull pass.active pass.maxInUse) :
    d'.nextVictim? pass = (d.nextVictim? pass).map (redraw f) := by
  unfold Decoder.nextVictim? mustBump
  rw [h.pendingUnits, hfull, h.pending, minOn?_map]
  have hpoc : (fun entry : SlotRef × Slot => (redraw f entry).2.poc) = fun entry => entry.2.poc :=
    funext fun entry => h.poc entry.1.layer entry.2
  rw [hpoc]
  split <;> rfl

end Redrawn

end Decoder

end PictureBuffer
