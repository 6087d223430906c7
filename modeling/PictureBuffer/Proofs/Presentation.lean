import PictureBuffer.Proofs.Origins

/-!
# A pass takes the shortest prefix

The pictures that wait for output have an order of **presentation**: by picture order count, then
by layer and index (`Decoder.presentation`). A pass takes pictures out from the front of it, and
stops as soon as the decoder is **at rest** (`Decoder.AtRest`): either few enough pictures are
left, or the next one is a field that the decoder itself is still decoding.

* `output_takes_least_prefix`: a pass that ends without a failure has taken the **shortest prefix**
  of the order after which the decoder is at rest. No slot loses a flag but the output flag, and a
  slot is given up exactly with its last flag.
* `output_ne_waiting`: it does not stop to wait for a frame if the production of those that it
  would wait for has ended.

`Layers.without` says what the buffers are once given pictures were taken out, all at once.
-/

namespace PictureBuffer

/-! ## Buffers without some of their pictures -/

namespace Slot

theorem without_without (flags mask more : Flags) :
    (flags.without mask).without more = flags.without (mask.union more) := by
  simp [Flags.without, Flags.union, Bool.and_assoc]

/-- Flags may be taken off at once. -/
theorem strip_strip (mask more : Flags) (slot : Slot) :
    (slot.strip mask).strip more = slot.strip (mask.union more) := by
  by_cases he : ((slot.flags.without mask).isEmpty && !slot.isFree) = true
  · have hs : slot.strip mask = { poc := slot.poc } := if_pos he
    have hboth : slot.strip (mask.union more) = { poc := slot.poc } := by
      refine if_pos ?_
      rw [Bool.and_eq_true] at he ⊢
      rw [← without_without]
      refine ⟨?_, he.2⟩
      have hflags := he.1
      generalize slot.flags.without mask = flags at hflags
      simp only [Flags.isEmpty, Flags.without, Bool.and_eq_true, Bool.not_eq_true'] at hflags ⊢
      simp [hflags]
    rw [hs, hboth]
    rfl
  · have hs : slot.strip mask = { slot with flags := slot.flags.without mask } := if_neg he
    rw [hs]
    unfold strip
    dsimp only
    rw [without_without]
    rfl

/-- Flags may be taken off in either order. -/
theorem strip_comm (mask more : Flags) (slot : Slot) :
    (slot.strip mask).strip more = (slot.strip more).strip mask := by
  have hcomm : mask.union more = more.union mask := by simp [Flags.union, Bool.or_comm]
  rw [strip_strip, strip_strip, hcomm]

end Slot

/-- The buffer of layer `n` once the pictures `gone` were taken out of it. -/
def Dpb.without (dpb : Dpb) (n : Nat) (gone : List SlotRef) : Dpb :=
  { dpb with
    slots := dpb.slots.mapIdx fun i slot =>
      if (⟨n, i⟩ : SlotRef) ∈ gone then slot.strip .waiting else slot }

theorem Dpb.slot?_without (dpb : Dpb) (n i : Nat) (gone : List SlotRef) :
    (dpb.without n gone).slot? i = (dpb.slot? i).map fun slot =>
      if (⟨n, i⟩ : SlotRef) ∈ gone then slot.strip .waiting else slot := by
  rw [slot?, without, List.getElem?_mapIdx, slot?]

theorem Dpb.without_nil (dpb : Dpb) (n : Nat) : dpb.without n [] = dpb := by
  simp [without, List.mapIdx_eq_zipIdx_map]

theorem Dpb.without_append (dpb : Dpb) (n : Nat) (gone more : List SlotRef) :
    (dpb.without n gone).without n more = dpb.without n (gone ++ more) := by
  simp only [without, List.mapIdx_mapIdx, Dpb.mk.injEq, true_and]
  congr 1
  funext i slot
  simp only [Function.comp_apply, List.mem_append]
  have hwaiting : Flags.waiting.union .waiting = .waiting := rfl
  by_cases hg : (⟨n, i⟩ : SlotRef) ∈ gone
  · simp [hg, Slot.strip_strip, hwaiting]
  · simp [hg]

/-- One picture taken out. -/
theorem Dpb.without_singleton (dpb : Dpb) (n i : Nat) :
    dpb.without n [⟨n, i⟩] = dpb.modify i (·.strip .waiting) := by
  simp only [without, modify, Dpb.mk.injEq, true_and]
  apply List.ext_getElem?
  intro j
  rw [List.getElem?_mapIdx, List.getElem?_modify]
  by_cases h : i = j
  · subst h
    simp
  · have hj : (⟨n, j⟩ : SlotRef) ∉ [⟨n, i⟩] := by
      simp [Ne.symm h]
    simp [hj, h]

/-- Pictures of other layers are none of its own. -/
theorem Dpb.without_of_ne (dpb : Dpb) {n : Nat} {ref : SlotRef} (h : ref.layer ≠ n) :
    dpb.without n [ref] = dpb := by
  have hi : ∀ i, (⟨n, i⟩ : SlotRef) ∉ [ref] := by
    intro i hm
    rw [← List.mem_singleton.mp hm] at h
    exact h rfl
  simp [without, hi, List.mapIdx_eq_zipIdx_map]

/-- The buffers once the pictures `gone` were taken out. -/
def Layers.without (layers : Layers) (gone : List SlotRef) : Layers where
  base := { layers.base with dpb := layers.base.dpb.without 0 gone }
  enhancement := { layers.enhancement with dpb := layers.enhancement.dpb.without 1 gone }

theorem Layers.without_nil (layers : Layers) : layers.without [] = layers := by
  simp only [without, Dpb.without_nil]

theorem Layers.without_append (layers : Layers) (gone more : List SlotRef) :
    (layers.without gone).without more = layers.without (gone ++ more) := by
  simp only [without, Dpb.without_append]

namespace Decoder

variable {d d' : Decoder} {ref x : SlotRef} {slot : Slot} {pass : OutputPass} {mask : Nat}
  {others : List FrameId}

/-- The decoder once the pictures `gone` were taken out. -/
def without (d : Decoder) (gone : List SlotRef) : Decoder :=
  { d with layers := d.layers.without gone }

theorem slot?_without (d : Decoder) (gone : List SlotRef) (x : SlotRef) :
    (d.without gone).slot? x =
      (d.slot? x).map fun slot => if x ∈ gone then slot.strip .waiting else slot := by
  obtain ⟨n, i⟩ := x
  match n with
  | 0 => exact Dpb.slot?_without _ _ _ _
  | 1 => exact Dpb.slot?_without _ _ _ _
  | n + 2 => rfl

theorem layers_stripOutput (d : Decoder) (ref : SlotRef) :
    (d.stripOutput ref).layers = d.layers.without [ref] := by
  obtain ⟨n, i⟩ := ref
  unfold Layers.without
  match n with
  | 0 =>
    rw [Dpb.without_singleton, Dpb.without_of_ne _ (by simp)]
    rfl
  | 1 =>
    rw [Dpb.without_singleton, Dpb.without_of_ne _ (by simp)]
    rfl
  | n + 2 =>
    rw [Dpb.without_of_ne _ (Nat.succ_ne_zero _),
      Dpb.without_of_ne _ (fun h => Nat.succ_ne_zero n (Nat.succ.inj h))]
    rfl

/-! ## The order of presentation -/

/-- `a` is not to be shown after `b`. -/
def notAfter (a b : SlotRef × Slot) : Bool :=
  decide (a.2.poc < b.2.poc ∨ a.2.poc = b.2.poc ∧
    (a.1.layer < b.1.layer ∨ a.1.layer = b.1.layer ∧ a.1.index ≤ b.1.index))

/-- The pictures of the layers in `mask` that wait for output, in the order of **presentation**. -/
def presentation (d : Decoder) (mask : Nat) : List (SlotRef × Slot) :=
  (d.pending mask).mergeSort notAfter

theorem notAfter_trans (a b c : SlotRef × Slot) (hab : notAfter a b = true)
    (hbc : notAfter b c = true) : notAfter a c = true := by
  simp only [notAfter, decide_eq_true_eq] at hab hbc ⊢
  omega

theorem notAfter_total (a b : SlotRef × Slot) : (notAfter a b || notAfter b a) = true := by
  simp only [notAfter, Bool.or_eq_true, decide_eq_true_eq]
  omega

theorem notAfter_antisymm {a b : SlotRef × Slot} (hab : notAfter a b = true)
    (hba : notAfter b a = true) : a.1 = b.1 := by
  obtain ⟨⟨n, i⟩, s⟩ := a
  obtain ⟨⟨m, j⟩, t⟩ := b
  simp only [notAfter, decide_eq_true_eq] at hab hba
  simp only [SlotRef.mk.injEq]
  omega

theorem pairwise_presentation (d : Decoder) (mask : Nat) :
    (d.presentation mask).Pairwise fun a b => notAfter a b = true :=
  List.pairwise_mergeSort notAfter_trans notAfter_total _

theorem mem_presentation {entry : SlotRef × Slot} :
    entry ∈ d.presentation mask ↔ entry ∈ d.pending mask := List.mem_mergeSort

/-- A slot is listed with what it holds. -/
theorem pending_unique {a b : SlotRef × Slot} (ha : a ∈ d.pending mask)
    (hb : b ∈ d.pending mask) (h : a.1 = b.1) : a = b := by
  obtain ⟨-, hsa, -⟩ := mem_pending.mp ha
  obtain ⟨-, hsb, -⟩ := mem_pending.mp hb
  rw [h, hsb] at hsa
  exact Prod.ext h (Option.some.inj hsa).symm

/-- The list of pending pictures goes by layer and index. -/
theorem pairwise_pending (d : Decoder) (mask : Nat) :
    (d.pending mask).Pairwise fun a b =>
      a.1.layer < b.1.layer ∨ a.1.layer = b.1.layer ∧ a.1.index < b.1.index := by
  have layers : (d.activeLayers mask).Pairwise fun a b => a.1 < b.1 := by
    apply List.Pairwise.filter
    simp [Layers.toList]
  unfold pending
  rw [List.pairwise_flatMap]
  constructor
  · intro entry _
    have indices : (entry.2.dpb.slots.zipIdx).Pairwise fun a b => a.2 < b.2 := by
      have hr := List.pairwise_lt_range' (s := 0) (n := entry.2.dpb.slots.length)
      rw [← List.zipIdx_map_snd, List.pairwise_map] at hr
      exact hr
    unfold pendingIn
    rw [List.pairwise_map]
    exact (indices.filter _).imp fun h => Or.inr ⟨rfl, h⟩
  · refine layers.imp ?_
    intro a b hlt x hx y hy
    have hxl := (mem_pendingIn.mp hx).1
    have hyl := (mem_pendingIn.mp hy).1
    exact Or.inl (by rw [hxl, hyl]; exact hlt)

theorem nodup_pending (d : Decoder) (mask : Nat) : (d.pending mask).Nodup := by
  refine (pairwise_pending d mask).imp ?_
  rintro a b h rfl
  omega

/-- The scan for the smallest order count finds the first of the smallest ones. -/
theorem minOn?_first {α : Type} {f : α → Int} {R : α → α → Prop} {v : α} {l : List α}
    (hl : l.Pairwise R) (h : l.minOn? f = some v) :
    ∀ y ∈ l, f v < f y ∨ f v = f y ∧ (v = y ∨ R v y) := by
  induction l generalizing v with
  | nil => intro y hy; cases hy
  | cons a l ih =>
    obtain ⟨ha, hl⟩ := List.pairwise_cons.mp hl
    rw [List.minOn?_cons, Option.some.injEq] at h
    cases hm : l.minOn? f with
    | none =>
      rw [hm] at h
      obtain rfl : a = v := h
      have hn : l = [] := by
        cases l with
        | nil => rfl
        | cons b l => simp [List.minOn?_cons] at hm
      subst hn
      intro y hy
      exact Or.inr ⟨by rw [List.mem_singleton.mp hy], Or.inl (List.mem_singleton.mp hy).symm⟩
    | some m =>
      rw [hm, Option.elim_some] at h
      have hfirst := ih hl hm
      by_cases hle : f a ≤ f m
      · rw [minOn_eq_left hle] at h
        subst h
        intro y hy
        rcases List.mem_cons.mp hy with rfl | hy
        · exact Or.inr ⟨rfl, Or.inl rfl⟩
        · have hr := ha y hy
          rcases hfirst y hy with hlt | ⟨heq, -⟩
          · exact Or.inl (Int.lt_of_le_of_lt hle hlt)
          · rcases Int.lt_or_eq_of_le hle with hlt | he
            · exact Or.inl (by rw [← heq]; exact hlt)
            · exact Or.inr ⟨he.trans heq, Or.inr hr⟩
      · rw [minOn_eq_right_of_lt (Int.not_le.mp hle)] at h
        subst h
        intro y hy
        rcases List.mem_cons.mp hy with rfl | hy
        · exact Or.inl (Int.not_le.mp hle)
        · exact hfirst y hy

/-- **The next victim heads the presentation.** -/
theorem presentation_of_nextVictim? {victim : SlotRef × Slot}
    (h : d.nextVictim? pass = some victim) :
    ∃ rest, d.presentation pass.active = victim :: rest := by
  have hmem := mem_pending_of_nextVictim? h
  have hmin : (d.pending pass.active).minOn? (·.2.poc) = some victim := by
    unfold nextVictim? at h
    split at h
    · exact h
    · cases h
  have hfirst : ∀ y ∈ d.pending pass.active, notAfter victim y = true := by
    intro y hy
    have hv := minOn?_first (pairwise_pending d pass.active) hmin y hy
    simp only [notAfter, decide_eq_true_eq]
    rcases hv with hlt | ⟨heq, rfl | hr⟩
    · exact Or.inl hlt
    · omega
    · omega
  cases hp : d.presentation pass.active with
  | nil =>
    have hm := mem_presentation.mpr hmem
    rw [hp] at hm
    cases hm
  | cons head rest =>
    have hsorted := pairwise_presentation d pass.active
    rw [hp] at hsorted
    have hhead : head ∈ d.pending pass.active :=
      mem_presentation.mp (by rw [hp]; exact List.mem_cons_self)
    have hm := mem_presentation.mpr hmem
    rw [hp] at hm
    refine ⟨rest, ?_⟩
    rcases List.mem_cons.mp hm with rfl | hr
    · rfl
    · have hle := (List.pairwise_cons.mp hsorted).1 victim hr
      have he := pending_unique hmem hhead (notAfter_antisymm (hfirst head hhead) hle)
      rw [he]

theorem nodup_presentation (d : Decoder) (mask : Nat) : (d.presentation mask).Nodup :=
  (List.mergeSort_perm _ _).nodup_iff.mpr (nodup_pending d mask)

/-- Taking a picture out leaves the others in order. -/
theorem presentation_of_without (hl : d'.layers = d.layers.without [ref]) (mask : Nat) :
    d'.presentation mask = (d.presentation mask).filter fun entry => entry.1 ≠ ref := by
  have hslot : ∀ x, d'.slot? x = (d.without [ref]).slot? x := by
    intro x
    rw [slot?, layer?, hl]
    rfl
  have hmem : ∀ entry, entry ∈ d'.presentation mask ↔
      entry ∈ (d.presentation mask).filter fun entry => entry.1 ≠ ref := by
    rintro ⟨x, s⟩
    rw [List.mem_filter, decide_eq_true_eq, mem_presentation, mem_presentation, mem_pending,
      mem_pending, hslot, slot?_without]
    by_cases hx : x = ref
    · subst hx
      refine iff_of_false ?_ fun h => h.2 rfl
      rintro ⟨-, hs, ho⟩
      obtain ⟨old, -, rfl⟩ := Option.map_eq_some_iff.mp hs
      rw [if_pos (List.mem_singleton_self x), Slot.flags_strip] at ho
      simp [Flags.without, Flags.waiting] at ho
    · simp [hx]
  have anti : ∀ a b, a ∈ d'.presentation mask →
      b ∈ (d.presentation mask).filter (fun entry => entry.1 ≠ ref) →
      notAfter a b = true → notAfter b a = true → a = b := by
    intro a b ha hb hab hba
    exact pending_unique (mem_presentation.mp ha) (mem_presentation.mp ((hmem b).mpr hb))
      (notAfter_antisymm hab hba)
  have hperm := (List.perm_ext_iff_of_nodup (nodup_presentation d' mask)
    ((nodup_presentation d mask).filter _)).mpr hmem
  exact hperm.eq_of_pairwise anti (pairwise_presentation d' mask)
    ((pairwise_presentation d mask).filter _)

/-- Taking the first picture out leaves the rest. -/
theorem presentation_tail {rest : List (SlotRef × Slot)}
    (h : d.presentation mask = (ref, slot) :: rest)
    (hl : d'.layers = d.layers.without [ref]) : d'.presentation mask = rest := by
  have hnodup := nodup_presentation d mask
  have pending : ∀ entry ∈ (ref, slot) :: rest, entry ∈ d.pending mask := by
    intro entry hm
    exact mem_presentation.mp (by rwa [h])
  rw [h] at hnodup
  rw [presentation_of_without hl, h, List.filter_cons_of_neg (by simp), List.filter_eq_self]
  intro entry hm
  rw [decide_eq_true_eq]
  intro he
  have hsame := pending_unique (pending entry (List.mem_cons_of_mem _ hm))
    (pending _ List.mem_cons_self) he
  rw [hsame] at hm
  exact (List.nodup_cons.mp hnodup).1 hm

/-! ## At rest -/

/-- Few enough pictures are left: at most `pass.maxPending` access units are pending and, unless
none is, no active layer holds more than `pass.maxInUse` pictures. -/
def Eased (d : Decoder) (pass : OutputPass) : Prop :=
  d.pendingUnits pass.active ≤ pass.maxPending ∧
    (d.pendingUnits pass.active = 0 ∨ ∀ n layer, pass.active.testBit n = true →
      d.layer? n = some layer → layer.dpb.numInUse ≤ pass.maxInUse)

/-- The next picture is a field with the order count of the picture that the decoder is
decoding. -/
def OwnFieldNext (d : Decoder) (pass : OutputPass) : Prop :=
  ∃ ref slot rest, d.presentation pass.active = (ref, slot) :: rest ∧
    slot.picStruct.isField = true ∧ d.decoding = true ∧ slot.poc = d.poc

/-- **At rest**: there is nothing left that a pass would take out. -/
def AtRest (d : Decoder) (pass : OutputPass) : Prop := d.Eased pass ∨ d.OwnFieldNext pass

theorem overfull_eq_false_iff {limit : Nat} : d.overfull mask limit = false ↔
    ∀ n layer, mask.testBit n = true → d.layer? n = some layer →
      layer.dpb.numInUse ≤ limit := by
  simp only [overfull, List.any_eq_false, decide_eq_true_eq, Nat.not_lt, activeLayers,
    List.mem_filter, Prod.forall, and_imp, Layers.toList, List.mem_cons, List.not_mem_nil,
    or_false, Prod.mk.injEq]
  constructor
  · intro h n layer hm hl
    rcases n with _ | _ | n
    · exact h 0 layer (Or.inl ⟨rfl, (Option.some.inj hl).symm⟩) hm
    · exact h 1 layer (Or.inr ⟨rfl, (Option.some.inj hl).symm⟩) hm
    · cases hl
  · rintro h n layer (⟨rfl, rfl⟩ | ⟨rfl, rfl⟩) hm
    · exact h 0 _ hm rfl
    · exact h 1 _ hm rfl

theorem mustBump_eq_false_iff : d.mustBump pass = false ↔ d.Eased pass := by
  simp only [mustBump, Eased, ← overfull_eq_false_iff, Bool.or_eq_false_iff,
    Bool.and_eq_false_iff, decide_eq_false_iff_not, Nat.not_lt, Nat.le_zero]

theorem eased_of_nextVictim? (h : d.nextVictim? pass = none) : d.Eased pass := by
  rw [← mustBump_eq_false_iff]
  unfold nextVictim? at h
  split at h
  · have hn : d.pending pass.active = [] := by
      cases hp : d.pending pass.active with
      | nil => rfl
      | cons a l => rw [hp, List.minOn?_cons] at h; cases h
    simp [mustBump, pendingUnits, hn]
  · rename_i hm
    exact Bool.not_eq_true _ ▸ hm

/-- Only the buffers and the picture being decoded matter. -/
theorem atRest_congr (hl : d'.layers = d.layers) (hd : d'.decoding = d.decoding)
    (hp : d'.poc = d.poc) : d'.AtRest pass ↔ d.AtRest pass := by
  simp only [AtRest, Eased, OwnFieldNext, presentation, pendingUnits, basePending, pending,
    activeLayers, layer?, hl, hd, hp]

/-- A step that goes on takes its victim out, or leaves the buffers alone and tries again. -/
theorem bump_next (h : d.bump pass ref slot = (.ok .next, d')) :
    d.isOwnField slot = false ∧ d'.decoding = d.decoding ∧ d'.poc = d.poc ∧
      (d'.layers = d.layers ∨ d'.layers = d.layers.without [ref]) := by
  obtain ⟨layers, shared, he⟩ := bump_eq pass d ref slot
  have hc : d'.decoding = d.decoding ∧ d'.poc = d.poc := by
    rw [h] at he
    rw [show d' = _ from he]
    exact ⟨rfl, rfl⟩
  have hb := bumped pass d ref slot
  rw [h] at hb
  generalize hr : (Except.ok Bump.next : Except Fault Bump) = result at hb
  cases hb with
  | empty | deferred | waiting => cases hr
  | dropped _ ho => exact ⟨ho, hc.1, hc.2, Or.inr (layers_stripOutput _ _)⟩
  | handed _ ho =>
    refine ⟨ho, hc.1, hc.2, ?_⟩
    split
    · exact Or.inl rfl
    · exact Or.inr (layers_stripOutput _ _)

/-- As long as a step goes on, the decoder was not at rest before it. -/
theorem not_atRest_of_next (hv : d.nextVictim? pass = some (ref, slot))
    (ho : d.isOwnField slot = false) : ¬ d.AtRest pass := by
  rintro (he | ⟨ref', slot', rest, hp, hf, hd, hpoc⟩)
  · rw [← mustBump_eq_false_iff] at he
    unfold nextVictim? at hv
    rw [he] at hv
    cases hv
  · obtain ⟨rest', hp'⟩ := presentation_of_nextVictim? hv
    rw [hp, List.cons.injEq, Prod.mk.injEq] at hp'
    obtain ⟨⟨-, rfl⟩, -⟩ := hp'
    simp [isOwnField, hf, hd, hpoc] at ho

/-! ## The prefix -/

/-- The first `k` pictures in the order of presentation. -/
def firsts (d : Decoder) (pass : OutputPass) (k : Nat) : List SlotRef :=
  ((d.presentation pass.active).take k).map (·.1)

theorem firsts_zero (d : Decoder) (pass : OutputPass) : d.firsts pass 0 = [] := rfl

theorem firsts_congr (h : d'.layers = d.layers) (k : Nat) :
    d'.firsts pass k = d.firsts pass k := by
  simp only [firsts, presentation, pending, activeLayers, h]

/-- The pictures left after the first one was taken out. -/
theorem firsts_succ (hv : d.nextVictim? pass = some (ref, slot))
    (hl : d'.layers = d.layers.without [ref]) (k : Nat) :
    d.firsts pass (k + 1) = ref :: d'.firsts pass k := by
  obtain ⟨rest, hp⟩ := presentation_of_nextVictim? hv
  rw [firsts, hp, List.take_succ_cons, List.map_cons, firsts, presentation_tail hp hl]

/-- After the first `k` pictures, and no fewer, the decoder is at rest. -/
def RestsAfter (d : Decoder) (pass : OutputPass) (k : Nat) : Prop :=
  (d.without (d.firsts pass k)).AtRest pass ∧
    ∀ j < k, ¬ (d.without (d.firsts pass j)).AtRest pass

theorem restsAfter_zero (h : d.AtRest pass) : d.RestsAfter pass 0 := by
  refine ⟨?_, fun j hj => absurd hj (Nat.not_lt_zero j)⟩
  rwa [firsts_zero, without, Layers.without_nil]

theorem restsAfter_congr {k : Nat} (hl : d'.layers = d.layers) (hd : d'.decoding = d.decoding)
    (hp : d'.poc = d.poc) : d'.RestsAfter pass k ↔ d.RestsAfter pass k := by
  have hr : ∀ j, (d'.without (d'.firsts pass j)).AtRest pass ↔
      (d.without (d.firsts pass j)).AtRest pass := by
    intro j
    rw [firsts_congr hl]
    exact atRest_congr (congrArg (Layers.without · (d.firsts pass j)) hl) hd hp
  simp only [RestsAfter, hr]

theorem restsAfter_succ {k : Nat} (hv : d.nextVictim? pass = some (ref, slot))
    (h0 : ¬ d.AtRest pass) (hl : d'.layers = d.layers.without [ref])
    (hd : d'.decoding = d.decoding) (hp : d'.poc = d.poc) (h : d'.RestsAfter pass k) :
    d.RestsAfter pass (k + 1) := by
  have hr : ∀ j, (d'.without (d'.firsts pass j)).AtRest pass ↔
      (d.without (d.firsts pass (j + 1))).AtRest pass := by
    intro j
    rw [firsts_succ hv hl]
    have hw := congrArg (Layers.without · (d'.firsts pass j)) hl
    exact atRest_congr (hw.trans (Layers.without_append d.layers [ref] _)) hd hp
  refine ⟨(hr k).mp h.1, ?_⟩
  intro j hj
  cases j with
  | zero => rwa [firsts_zero, without, Layers.without_nil]
  | succ j => exact fun hrest => h.2 j (Nat.lt_of_succ_lt_succ hj) ((hr j).mpr hrest)

/-- **What a pass takes out**, if it ends without a failure and without having to wait. -/
theorem layers_output {e : PassEnd} (h : d.output pass = (.ok e, d'))
    (hw : ∀ frame, e ≠ .waiting frame) :
    ∃ k, d.RestsAfter pass k ∧ d'.layers = d.layers.without (d.firsts pass k) := by
  fun_induction d.output pass with
  | case1 d hv =>
    cases h
    exact ⟨0, restsAfter_zero (Or.inl (eased_of_nextVictim? hv)), (Layers.without_nil _).symm⟩
  | case2 => cases h
  | case3 d ref slot hv d₁ hb =>
    cases h
    obtain ⟨rest, hp⟩ := presentation_of_nextVictim? hv
    obtain ⟨ho, rfl⟩ := bump_deferred hb
    simp only [isOwnField, Bool.and_eq_true, beq_iff_eq] at ho
    exact ⟨0, restsAfter_zero (Or.inr ⟨ref, slot, rest, hp, ho.1.1, ho.1.2, ho.2⟩),
      (Layers.without_nil _).symm⟩
  | case4 => cases h; exact absurd rfl (hw _)
  | case5 d ref slot hv d₁ hb ih =>
    obtain ⟨k, hk, hl⟩ := ih h
    obtain ⟨ho, hd, hp, hsame | htaken⟩ := bump_next hb
    · refine ⟨k, (restsAfter_congr hsame hd hp).mp hk, ?_⟩
      rw [hl, firsts_congr hsame, hsame]
    · refine ⟨k + 1, restsAfter_succ hv (not_atRest_of_next hv ho) htaken hd hp hk, ?_⟩
      rw [hl, firsts_succ hv htaken, htaken]
      exact Layers.without_append _ _ _

/-! ## Waiting -/

/-- A slot is in use if and only if it holds a frame. -/
def Owned (d : Decoder) : Prop :=
  ∀ ref slot, d.slot? ref = some slot → (slot.flags.isEmpty = true ↔ slot.frame = none)

/-- The frames that a pass would wait for are no longer being produced. -/
def Settled (d : Decoder) (pass : OutputPass) : Prop :=
  d.config.threading = .frame → ∀ ref slot frame, (ref, slot) ∈ d.pending pass.active →
    slot.frame = some frame → slot.picStruct.isField = true → d.isOwnField slot = false →
    (d.store.frame frame).progress ≠ .pending

/-- A picture that is pending after a step was pending before it. -/
theorem pending_of_next (hb : d.bump pass ref slot = (.ok .next, d')) {entry : SlotRef × Slot}
    (h : entry ∈ d'.pending mask) : entry ∈ d.pending mask := by
  obtain ⟨x, s⟩ := entry
  obtain ⟨hm, hs, ho⟩ := mem_pending.mp h
  refine mem_pending.mpr ⟨hm, ?_, ho⟩
  obtain ⟨-, -, -, hl | hl⟩ := bump_next hb
  · rw [slot?, layer?, hl] at hs
    exact hs
  · have hs' : (d.without [ref]).slot? x = some s := by
      rw [slot?, layer?, hl] at hs
      exact hs
    rw [slot?_without, Option.map_eq_some_iff] at hs'
    obtain ⟨old, hold, he⟩ := hs'
    split at he
    · rw [← he, Slot.flags_strip] at ho
      simp [Flags.without, Flags.waiting] at ho
    · rwa [← he]

/-- The production of a frame that a slot holds does not start again. -/
theorem settled_of_next (held : d.Accounted others) (settled : d.Settled pass)
    (hb : d.bump pass ref slot = (.ok .next, d')) (hgrows : d.Grows d') : d'.Settled pass := by
  obtain ⟨layers, shared, he⟩ := bump_eq pass d ref slot
  rw [hb] at he
  intro ht x s frame hx hf hfield ho
  have hx' := pending_of_next hb hx
  have hs := (mem_pending.mp hx).2.1
  have hs' := (mem_pending.mp hx').2.1
  have hconfig : d'.config = d.config := by
    rw [show d' = _ from he]
  have hown : d.isOwnField s = d'.isOwnField s := by
    rw [show d' = _ from he]
    rfl
  have hprogress := settled (hconfig ▸ ht) x s frame hx' hf hfield (hown.trans ho)
  obtain ⟨new, hnew⟩ := (hgrows.accounted others held).frame? hs hf
  have hlt : frame < d.store.cells.size :=
    Store.lt_size_of_handles_pos
      (Shared.Accounted.pos held (List.mem_append_left others (mem_frames hs' hf)))
  obtain ⟨old, hold, -, hp⟩ := hgrows.evolves.frames hlt hnew
  rw [Store.frame, hold, Option.getD_some] at hprogress
  rw [Store.frame, hnew, Option.getD_some, hp hprogress]
  exact hprogress

/-- A pass does not stop to wait if the frames that it would wait for are no longer being
produced. -/
theorem output_ne_waiting (held : d.Accounted others) (settled : d.Settled pass)
    (frame : FrameId) : (d.output pass).1 ≠ .ok (.waiting frame) := by
  fun_induction d.output pass with
  | case1 | case2 | case3 => simp
  | case4 d ref slot hv frame' d' hb =>
    obtain ⟨hf, ho, hw, -⟩ := bump_waiting hb
    unfold outcome? at hw
    dsimp only at hw
    split at hw
    · rename_i hfield
      rw [Bool.and_eq_true, decide_eq_true_eq] at hfield
      have hp := settled hfield.2 ref slot frame' (mem_pending_of_nextVictim? hv) hf hfield.1 ho
      intro _
      cases hc : (d.store.frame frame').progress with
      | pending => exact hp hc
      | produced => rw [hc] at hw; cases hw
      | cancelled => rw [hc] at hw; cases hw
    · cases hw
  | case5 d ref slot hv d' hb ih =>
    have hgrows := grows_bump pass (mem_pending.mp (mem_pending_of_nextVictim? hv)).2.1
    rw [hb] at hgrows
    exact ih (hgrows.accounted others held) (settled_of_next held settled hb hgrows)

/-! ## The law of a pass -/

/-- A slot that is given up is given up with its last flag. -/
theorem owned_strip {slot : Slot} (h : slot.flags.isEmpty = true ↔ slot.frame = none)
    (gone : Bool) {slot' : Slot} (hs : slot' = if gone then slot.strip .waiting else slot) :
    slot'.flags = (if gone then slot.flags.without .waiting else slot.flags) ∧
      slot'.frame = if slot'.flags.isEmpty then none else slot.frame := by
  subst hs
  cases gone with
  | true =>
    simp only [if_true]
    rw [Slot.frame_strip, Slot.flags_strip]
    exact ⟨rfl, rfl⟩
  | false =>
    refine ⟨rfl, ?_⟩
    simp only [Bool.false_eq_true, if_false]
    split
    · rename_i he
      exact h.mp he
    · rfl

/-- **A pass takes the shortest prefix.** Let every slot in use hold a frame, and no other, let
every handle have a holder, as it has in every run (`Session.accounted_run`), and let the frames
that the pass would wait for be settled. Then the pass does not wait; and if it ends without a
failure, the pictures that lost their output flag are the first `k` in the order of presentation,
for the smallest `k` that leaves the decoder at rest. Other flags stay, and a slot gives up its
frame if and only if it is left without a flag. -/
theorem output_takes_least_prefix (owned : d.Owned) (held : d.Accounted others)
    (settled : d.Settled pass) :
    (∀ frame, (d.output pass).1 ≠ .ok (.waiting frame)) ∧
    ∀ e, (d.output pass).1 = .ok e → ∃ k,
      ((d.without (d.firsts pass k)).AtRest pass ∧
        ∀ j < k, ¬ (d.without (d.firsts pass j)).AtRest pass) ∧
      ∀ ref, ((d.output pass).2.slot? ref).isSome = (d.slot? ref).isSome ∧
        ∀ slot slot', d.slot? ref = some slot → (d.output pass).2.slot? ref = some slot' →
          slot'.flags =
            (if ref ∈ d.firsts pass k then slot.flags.without .waiting else slot.flags) ∧
          slot'.frame = if slot'.flags.isEmpty then none else slot.frame := by
  have hne := output_ne_waiting held settled
  refine ⟨hne, ?_⟩
  intro e he
  have hend : d.output pass = (.ok e, (d.output pass).2) := Prod.ext he rfl
  obtain ⟨k, hk, hl⟩ := layers_output hend fun frame hw => hne frame (by rw [he, hw])
  have hslot : ∀ ref, (d.output pass).2.slot? ref = (d.slot? ref).map fun slot =>
      if ref ∈ d.firsts pass k then slot.strip .waiting else slot := by
    intro ref
    rw [← slot?_without, slot?, layer?, hl]
    rfl
  refine ⟨k, hk, fun ref => ⟨by rw [hslot, Option.isSome_map], ?_⟩⟩
  intro slot slot' hs hs'
  rw [hslot, hs, Option.map_some, Option.some.injEq] at hs'
  by_cases hm : ref ∈ d.firsts pass k
  · rw [if_pos hm] at hs' ⊢
    exact owned_strip (owned ref slot hs) true hs'.symm
  · rw [if_neg hm] at hs' ⊢
    exact owned_strip (owned ref slot hs) false hs'.symm

/-- A decoder with three pending pictures, the first of them a field, in the order `1`, `0`,
`2` of presentation. -/
def threePending : Decoder where
  toContext :=
    { Context.initial { threading := .frame } with
      layers.base.dpb.slots :=
        [{ poc := 4, flags := .waiting, frame := some 0 },
          { poc := 2, flags := { output := true, shortTerm := true }, frame := some 1,
            picStruct := .topField },
          { poc := 8, flags := .waiting, frame := some 2 }, {}]
      layers.enhancement.dpb.slots := [] }
  toShared :=
    { store := { cells := Array.replicate 3 (some ⟨Frame.empty.produce, true, 1⟩) }
      queue := { capacity := 4 } }

theorem threePending_slots {slot : Slot} (h : threePending.slot? ref = some slot) :
    slot ∈ threePending.layers.base.dpb.slots := by
  obtain ⟨n, i⟩ := ref
  match n with
  | 0 => exact List.mem_of_getElem? h
  | 1 => cases h
  | n + 2 => cases h

/-- The pass that leaves one access unit pending, in both layers. -/
def leaveOne : OutputPass where
  active := 3
  shown := 3
  maxPending := 1
  maxInUse := 16

/-- The law at `threePending`: with room for one access unit, the two pictures that are shown first
leave. One of them is still a reference, and keeps its slot. -/
theorem output_threePending :
    (threePending.output leaveOne).1 = .ok .settled ∧
    (threePending.output leaveOne).2.layers.base.dpb.slots.map (·.flags) =
      [{}, { shortTerm := true }, .waiting, {}] ∧
    (∀ frame, (threePending.output leaveOne).1 ≠ .ok (.waiting frame)) ∧
    ∃ k,
      ((threePending.without (threePending.firsts leaveOne k)).AtRest leaveOne ∧
        ∀ j < k, ¬ (threePending.without (threePending.firsts leaveOne j)).AtRest leaveOne) ∧
      ∀ ref, ((threePending.output leaveOne).2.slot? ref).isSome =
          (threePending.slot? ref).isSome ∧
        ∀ slot slot', threePending.slot? ref = some slot →
          (threePending.output leaveOne).2.slot? ref = some slot' →
          slot'.flags =
            (if ref ∈ threePending.firsts leaveOne k then slot.flags.without .waiting
              else slot.flags) ∧
          slot'.frame = if slot'.flags.isEmpty then none else slot.frame := by
  have owned : threePending.Owned := by
    intro ref slot h
    have hall : ∀ slot ∈ threePending.layers.base.dpb.slots,
        (slot.flags.isEmpty = true ↔ slot.frame = none) := by decide
    exact hall slot (threePending_slots h)
  have held : threePending.Accounted [] := by
    intro id
    match id with
    | 0 | 1 | 2 => decide
    | id + 3 => rfl
  have settled : threePending.Settled leaveOne := by
    intro _ ref slot frame h hf _ _
    have hall : ∀ slot ∈ threePending.layers.base.dpb.slots, ∀ frame ∈ slot.frame,
        (threePending.store.frame frame).progress ≠ .pending := by decide
    exact hall slot (threePending_slots (mem_pending.mp h).2.1) frame hf
  have ends : (threePending.output leaveOne).1 = .ok .settled := by
    refine eq_ok_of_toOption ?_
    decide +kernel
  have hflags : (threePending.output leaveOne).2.layers.base.dpb.slots.map (·.flags) =
      [{}, { shortTerm := true }, .waiting, {}] := by decide +kernel
  obtain ⟨hwaits, hprefix⟩ := output_takes_least_prefix owned held settled
  exact ⟨ends, hflags, hwaits, hprefix .settled ends⟩

end Decoder

end PictureBuffer
