import PictureBuffer.Proofs.Subsets

/-!
# Distinct order counts

No two slots of a layer that are in use should hold pictures of one order count
(`Decoder.Distinct`). A picture that is started is refused if the layer holds its order count
already. A stand-in is made when the look-up finds nothing, and the look-up by low bits can miss a
picture that has the very order count of the candidate: it never names the current picture's order
count, and it compares low bits with a value that need not fit into them. The candidate then
**doubles** the picture that was missed (`Decoder.Doubles`).

* `distinct_deriveSets_iff`: this is the only way in which a derivation breaks the rule. It does if
  and only if it doubles a picture that stays in use (`Decoder.LeavesDouble`).
* `distinct_iff`: the order counts are distinct all along a sequence of events if and only if no
  derivation among them leaves a double.
* `not_leavesDouble`: none does whose low bits are in range and are not the current order count.
* `not_always_distinct`: a run in which the current picture is doubled.
-/

namespace PictureBuffer

namespace Slot

variable {slot slot' : Slot}

theorem inUse_of_strip {mask : Flags} (h : (slot.strip mask).InUse) : slot.InUse := by
  rw [InUse, flags_strip] at h
  rw [InUse, ← Bool.not_eq_true]
  intro he
  simp [Flags.isEmpty] at he
  simp [Flags.isEmpty, Flags.without, he] at h

theorem isFree_of_strip {mask : Flags} (h : (slot.strip mask).isFree = false) :
    slot.isFree = false := by
  rw [isFree, frame_strip] at h
  split at h
  · cases h
  · exact h

theorem placeholder_mark (marking : Marking) (h : slot.flags.placeholder = true) :
    (slot.mark marking).flags.placeholder = true := by
  rw [flags_mark]
  split
  · exact h
  · simp [Flags.union, Flags.without, Flags.references, h]

/-- With age, a slot keeps its order count and is not taken into use. -/
theorem Ages.kept (h : slot.Ages slot') : slot'.poc = slot.poc ∧ (slot'.InUse → slot.InUse) := by
  induction h with
  | refl => exact ⟨rfl, id⟩
  | strip _ mask ih => exact ⟨(poc_strip mask _).trans ih.1, fun hu => ih.2 (inUse_of_strip hu)⟩
  | selectLists _ hs ih =>
    obtain ⟨-, rfl⟩ := selectLists_ok hs
    exact ih
  | setLists _ _ ih => exact ih

end Slot

namespace Decoder

variable {d d' d'' : Decoder} {layer n i j k index : Nat} {sps : Sps} {c : Candidate}
  {slot : Slot} {hdr : SliceHeader}

/-! ## Twins -/

/-- **No two slots in use of a layer hold pictures of one order count.** -/
def Distinct (d : Decoder) : Prop :=
  ∀ n i j a b, d.slot? ⟨n, i⟩ = some a → d.slot? ⟨n, j⟩ = some b → a.InUse → b.InUse →
    a.poc = b.poc → i = j

/-- Both slots of a layer hold pictures, of one order count. -/
def Twins (d : Decoder) (n i j : Nat) : Prop :=
  ∃ a b, d.slot? ⟨n, i⟩ = some a ∧ d.slot? ⟨n, j⟩ = some b ∧ a.isFree = false ∧
    b.isFree = false ∧ a.poc = b.poc

/-- Sound slots are in use exactly if they hold a picture. -/
theorem Sound.distinct_iff_twins (h : d.Sound) : d.Distinct ↔ ∀ n i j, d.Twins n i j → i = j := by
  have huse : ∀ {ref slot}, d.slot? ref = some slot → (slot.isFree = false ↔ slot.InUse) := by
    intro ref slot hs
    obtain ⟨hv, hkept⟩ := Slot.sound_iff.mp (h ref slot hs)
    exact ⟨hkept, hv.held_of_inUse⟩
  constructor
  · rintro hd n i j ⟨a, b, ha, hb, hfa, hfb, hp⟩
    exact hd n i j a b ha hb ((huse ha).mp hfa) ((huse hb).mp hfb) hp
  · intro hd n i j a b ha hb hua hub hp
    exact hd n i j ⟨a, b, ha, hb, (huse ha).mpr hua, (huse hb).mpr hub, hp⟩

/-- Ageing brings no order count in. -/
theorem Distinct.ages (h : d.Distinct) (hages : d.Ages d') : d'.Distinct := by
  intro n i j a b ha hb hua hub hp
  obtain ⟨a₀, ha₀, hagesa⟩ := hages.slot ha
  obtain ⟨b₀, hb₀, hagesb⟩ := hages.slot hb
  refine h n i j a₀ b₀ ha₀ hb₀ (hagesa.kept.2 hua) (hagesb.kept.2 hub) ?_
  rw [← hagesa.kept.1, ← hagesb.kept.1, hp]

/-- A picture that is started has an order count of its own. -/
theorem Distinct.begins {info : PictureInfo} (h : d.Distinct) (hsound : d.Sound)
    (hbegins : d.Begins layer info index d') : d'.Distinct := by
  obtain ⟨sps, frame, hentered⟩ := hbegins.entered
  -- Whoever else is in use in the layer was there before, with another order count.
  have other : ∀ {i s}, d'.slot? ⟨layer, i⟩ = some s → s.InUse → s.poc = info.poc → i = index := by
    intro i s hs hu hp
    by_cases hi : i = index
    · exact hi
    have hold := (hbegins.others ⟨layer, i⟩ fun he => hi (congrArg SlotRef.index he)).symm.trans hs
    exact absurd hp (hbegins.unheld i s hold
      ((Slot.sound_iff.mp (hsound _ s hold)).1.held_of_inUse hu))
  have new : ∀ {s}, d'.slot? ⟨layer, index⟩ = some s → s.poc = info.poc := by
    intro s hs
    rw [← Option.some.inj (hentered.symm.trans hs)]
    rfl
  intro n i j a b ha hb hua hub hp
  by_cases hi : (⟨n, i⟩ : SlotRef) = ⟨layer, index⟩
  · cases hi
    exact (other hb hub (hp.symm.trans (new ha))).symm
  · by_cases hj : (⟨n, j⟩ : SlotRef) = ⟨layer, index⟩
    · cases hj
      exact other ha hua (hp.trans (new hb))
    · rw [hbegins.others _ hi] at ha
      rw [hbegins.others _ hj] at hb
      exact h n i j a b ha hb hua hub hp

/-! ## Candidates that double a picture -/

/-- **A candidate doubles the picture in slot `k`**: it gives low bits only, and the look-up finds
no picture of the layer with them, although slot `k` holds one with this very order count. -/
structure Doubles (d : Decoder) (layer : Nat) (sps : Sps) (c : Candidate) (k : Nat) : Prop where
  sps_eq : d.sps? layer = some sps
  lowBits : c.fullPoc = false
  missed : ∀ i slot, d.slot? ⟨layer, i⟩ = some slot → slot.isFree = false →
    pocLsb sps.log2PocLsb slot.poc = c.poc → slot.poc = d.poc
  held : ∃ slot, d.slot? ⟨layer, k⟩ = some slot ∧ slot.isFree = false ∧ slot.poc = c.poc

/-- **A derivation leaves a double**: the candidates up to some `c` are entered, `c` doubles a
picture, and this picture is still in use in the end. -/
def LeavesDouble (d : Decoder) (layer : Nat) (hdr : SliceHeader) : Prop :=
  ∃ before c after d₁ sps k slot, hdr.candidates d.poc = before ++ c :: after ∧
    (d.clearSets layer).addCandidates layer before = (.ok (), d₁) ∧
    (d₁.addCandidate layer c).1 = .ok () ∧ d₁.Doubles layer sps c k ∧
    (d.deriveSets layer hdr).2.slot? ⟨layer, k⟩ = some slot ∧ slot.InUse

/-- A candidate whose picture is found doubles nothing. -/
theorem Doubles.missing (h : d.Doubles layer sps c k) {index : Nat} {slot : Slot} {store : Store}
    (hs : d.Source layer sps c index slot store) :
    ∃ free frame, d.slot? ⟨layer, index⟩ = some free ∧ free.isFree = true ∧
      slot = (d.standIn layer sps c.poc).slot sps frame := by
  cases hs with
  | found hs held named =>
    rw [Candidate.lookup, h.lowBits, if_neg Bool.false_ne_true, Dpb.Lookup.names_low_iff] at named
    exact absurd (h.missed index slot hs held named.1) named.2
  | @missing free frame _ hs hfree hslot => exact ⟨free, frame, hs, hfree, hslot⟩

/-- A candidate that is missing, but not its order count. -/
theorem doubles_of_unnamed (hsps : d.sps? n = some sps)
    (unnamed : ∀ i s, d.slot? ⟨n, i⟩ = some s → s.isFree = false →
      (c.lookup sps d.poc).names c.poc s.poc = false)
    (hs : d.slot? ⟨n, k⟩ = some slot) (held : slot.isFree = false) (hp : slot.poc = c.poc) :
    d.Doubles n sps c k := by
  have hlow : c.fullPoc = false := by
    rw [← Bool.not_eq_true]
    intro hfull
    have hname := unnamed k slot hs held
    rw [Candidate.lookup, if_pos hfull, hp, Dpb.Lookup.names_full_iff.mpr rfl] at hname
    cases hname
  refine ⟨hsps, hlow, fun i s hi hheld hlsb => ?_, slot, hs, held, hp⟩
  have hname := unnamed i s hi hheld
  rw [Candidate.lookup, hlow, if_neg Bool.false_ne_true] at hname
  by_contra hne
  rw [Dpb.Lookup.names_low_iff.mpr ⟨hlsb, hne⟩] at hname
  cases hname

/-! ### Where twins come from -/

theorem Twins.symm (h : d.Twins n i j) : d.Twins n j i := by
  obtain ⟨a, b, ha, hb, hfa, hfb, hp⟩ := h
  exact ⟨b, a, hb, ha, hfb, hfa, hp.symm⟩

/-- If every picture was there before, so were twins. -/
theorem Twins.of_held (h : d'.Twins n i j)
    (hheld : ∀ ref s, d'.slot? ref = some s → s.isFree = false →
      ∃ old, d.slot? ref = some old ∧ old.isFree = false ∧ old.poc = s.poc) : d.Twins n i j := by
  obtain ⟨a, b, ha, hb, hfa, hfb, hp⟩ := h
  obtain ⟨a₀, ha₀, hfa₀, hpa⟩ := hheld _ a ha hfa
  obtain ⟨b₀, hb₀, hfb₀, hpb⟩ := hheld _ b hb hfb
  exact ⟨a₀, b₀, ha₀, hb₀, hfa₀, hfb₀, by rw [hpa, hpb, hp]⟩

theorem twins_of_clearSets (h : (d.clearSets layer).Twins n i j) : d.Twins n i j := by
  refine h.of_held fun ref s hs hheld => ?_
  rw [slot?_clearSets] at hs
  split at hs
  · obtain ⟨old, hold, rfl⟩ := Option.map_eq_some_iff.mp hs
    refine ⟨old, hold, ?_, ?_⟩
    · dsimp only at hheld
      split at hheld <;> split at hheld
      · exact Slot.isFree_of_strip hheld
      · exact hheld
      · rw [Slot.isFree_mark] at hheld
        exact Slot.isFree_of_strip hheld
      · rwa [Slot.isFree_mark] at hheld
    · dsimp only
      split <;> split <;> simp [Slot.poc_mark, Slot.poc_strip]
  · exact ⟨s, hs, hheld, rfl⟩

theorem twins_of_sweep (h : (d.onDpb layer Dpb.sweep).Twins n i j) : d.Twins n i j := by
  refine h.of_held fun ref s hs hheld => ?_
  rw [slot?_sweep] at hs
  split at hs
  · obtain ⟨old, hold, rfl⟩ := Option.map_eq_some_iff.mp hs
    exact ⟨old, hold, Slot.isFree_of_strip hheld, (Slot.poc_strip .empty old).symm⟩
  · exact ⟨s, hs, hheld, rfl⟩

/-- **Where twins come from**: they were there before, or the candidate doubled one of them. -/
theorem Enters.twins (hent : d.Enters layer sps c index slot d') (hij : i ≠ j)
    (h : d'.Twins n i j) :
    d.Twins n i j ∨ (n = layer ∧ ∃ k, (k = i ∨ k = j) ∧ d.Doubles layer sps c k) := by
  cases hent.source with
  | found hs held =>
    refine Or.inl (h.of_held fun ref s hs' hheld => ?_)
    by_cases hr : ref = ⟨layer, index⟩
    · subst hr
      obtain rfl := Option.some.inj (hs'.symm.trans hent.marked)
      exact ⟨slot, hs, held, (Slot.poc_mark c.marking slot).symm⟩
    · exact ⟨s, (hent.others ref hr).symm.trans hs', hheld, rfl⟩
  | @missing free frame unnamed _ _ hslot =>
    have hpoc : (slot.mark c.marking).poc = c.poc := by
      rw [Slot.poc_mark, hslot]
      rfl
    have one : ∀ {i j}, i ≠ j → d'.Twins n i j → (⟨n, i⟩ : SlotRef) = ⟨layer, index⟩ →
        n = layer ∧ d.Doubles layer sps c j := by
      rintro i j hij ⟨a, b, ha, hb, hfa, hfb, hp⟩ hi
      cases hi
      have hj : (⟨layer, j⟩ : SlotRef) ≠ ⟨layer, index⟩ :=
        fun he => hij (congrArg SlotRef.index he).symm
      rw [hent.others _ hj] at hb
      obtain rfl := Option.some.inj (ha.symm.trans hent.marked)
      exact ⟨rfl, doubles_of_unnamed hent.sps_eq unnamed hb hfb (hp.symm.trans hpoc)⟩
    by_cases hi : (⟨n, i⟩ : SlotRef) = ⟨layer, index⟩
    · obtain ⟨hn, hd⟩ := one hij h hi
      exact Or.inr ⟨hn, j, Or.inr rfl, hd⟩
    · by_cases hj : (⟨n, j⟩ : SlotRef) = ⟨layer, index⟩
      · obtain ⟨hn, hd⟩ := one hij.symm h.symm hj
        exact Or.inr ⟨hn, i, Or.inl rfl, hd⟩
      · obtain ⟨a, b, ha, hb, hrest⟩ := h
        rw [hent.others _ hi] at ha
        rw [hent.others _ hj] at hb
        exact Or.inl ⟨a, b, ha, hb, hrest⟩

theorem twins_of_addCandidates (hij : i ≠ j) {cs : List Candidate} {d : Decoder}
    (h : (d.addCandidates layer cs).2.Twins n i j) : d.Twins n i j ∨
      (n = layer ∧ ∃ before c after d₁ sps k, (k = i ∨ k = j) ∧ cs = before ++ c :: after ∧
        d.addCandidates layer before = (.ok (), d₁) ∧ (d₁.addCandidate layer c).1 = .ok () ∧
        d₁.Doubles layer sps c k) := by
  induction cs generalizing d with
  | nil => exact Or.inl h
  | cons c cs ih =>
    rw [addCandidates] at h
    obtain ⟨fault, store, he, -⟩ | ⟨sps, index, slot, d', he, hent⟩ := d.addCandidate_cases layer c
    · rw [he] at h
      exact Or.inl h
    · rw [he] at h
      rcases ih h with htwins | ⟨hn, before, c', after, d₁, sps', k, hk, rfl, hb, hok, hd⟩
      · rcases hent.twins hij htwins with htwins | ⟨hn, k, hk, hd⟩
        · exact Or.inl htwins
        · exact Or.inr ⟨hn, [], c, cs, d, sps, k, hk, rfl, rfl, by rw [he], hd⟩
      · refine Or.inr ⟨hn, c :: before, c', after, d₁, sps', k, hk, rfl, ?_, hok, hd⟩
        rw [addCandidates, he]
        exact hb

theorem twins_of_addHeader (hij : i ≠ j) (h : (d.addHeader layer hdr).2.Twins n i j) :
    d.Twins n i j ∨ (n = layer ∧ ∃ before c after d₁ sps k, (k = i ∨ k = j) ∧
        hdr.candidates d.poc = before ++ c :: after ∧
        d.addCandidates layer before = (.ok (), d₁) ∧ (d₁.addCandidate layer c).1 = .ok () ∧
        d₁.Doubles layer sps c k) := by
  refine twins_of_addCandidates hij ?_
  revert h
  refine addHeader_induction (P := fun d' => d'.Twins n i j → _) id fun {d'} hp h => hp ?_
  -- The base layer's picture is looked up by its full order count, and is not doubled.
  revert h
  refine addInterLayer_preserves (P := fun d'' => d''.Twins n i j → d'.Twins n i j) id
    (fun _ _ => id) fun _ _ hent htwins => ?_
  rcases hent.twins hij htwins with htwins | ⟨-, k, -, hd⟩
  · exact htwins
  · cases hd.lowBits

/-! ### What becomes of them -/

/-- **Pictures stay where they are** while candidates are entered: they keep their order count, and
a stand-in is still one. -/
def Keeps (d d' : Decoder) : Prop :=
  ∀ ref slot, d.slot? ref = some slot → slot.isFree = false →
    ∃ new, d'.slot? ref = some new ∧ new.isFree = false ∧ new.poc = slot.poc ∧
      (slot.flags.placeholder = true → new.flags.placeholder = true)

theorem Keeps.refl (d : Decoder) : d.Keeps d := fun _ slot hs hheld => ⟨slot, hs, hheld, rfl, id⟩

theorem Keeps.trans (h : d.Keeps d') (h' : d'.Keeps d'') : d.Keeps d'' := by
  intro ref slot hs hheld
  obtain ⟨mid, hmid, hheldm, hpm, hm⟩ := h ref slot hs hheld
  obtain ⟨new, hnew, hheldn, hpn, hn⟩ := h' ref mid hmid hheldm
  exact ⟨new, hnew, hheldn, hpn.trans hpm, fun hp => hn (hm hp)⟩

theorem Enters.keeps (hent : d.Enters layer sps c index slot d') : d.Keeps d' := by
  intro ref s hs hheld
  by_cases hr : ref = ⟨layer, index⟩
  · subst hr
    cases hent.source with
    | found hfound =>
      obtain rfl := Option.some.inj (hs.symm.trans hfound)
      exact ⟨_, hent.marked, (Slot.isFree_mark _ _).trans hheld, Slot.poc_mark _ _,
        Slot.placeholder_mark _⟩
    | missing _ hfree hisFree =>
      obtain rfl := Option.some.inj (hs.symm.trans hfree)
      rw [hheld] at hisFree
      cases hisFree
  · exact ⟨s, (hent.others ref hr).trans hs, hheld, rfl, id⟩

theorem keeps_addCandidates (d : Decoder) (layer : Nat) (cs : List Candidate) :
    d.Keeps (d.addCandidates layer cs).2 := by
  obtain ⟨-, -, -, hp, -⟩ := @addCandidates_induction d layer (fun _ d' => d.Keeps d') cs
    (fun hp _ => hp) (fun _ hp hent => hp.trans hent.keeps) [] (.refl d)
  exact hp

/-- What the candidates after some `c` leave of the pictures. -/
theorem keeps_rest {before after : List Candidate} {d₁ d₂ : Decoder}
    (hcs : hdr.candidates d.poc = before ++ c :: after)
    (hb : d.addCandidates layer before = (.ok (), d₁))
    (hc : d₁.addCandidate layer c = (.ok (), d₂)) : d₂.Keeps (d.addHeader layer hdr).2 := by
  have hall : d.addCandidates layer (hdr.candidates d.poc) = d₂.addCandidates layer after := by
    rw [hcs, addCandidates_append, hb]
    dsimp only
    rw [addCandidates, hc]
  refine addHeader_induction (P := fun d' => d₂.Keeps d') ?_ fun hk => ?_
  · rw [hall]
    exact d₂.keeps_addCandidates layer after
  · exact addInterLayer_preserves hk (fun _ _ => hk) fun _ _ hent => hk.trans hent.keeps

/-- The stand-in of a candidate that doubles a picture is entered beside it. -/
theorem Doubles.entered (h : d.Doubles layer sps c k) {sps' : Sps}
    (hent : d.Enters layer sps' c index slot d') : k ≠ index ∧
      (∃ double, d'.slot? ⟨layer, index⟩ = some double ∧ double.isFree = false ∧
        double.poc = c.poc ∧ double.flags.placeholder = true) ∧
      ∃ held, d'.slot? ⟨layer, k⟩ = some held ∧ held.isFree = false ∧ held.poc = c.poc := by
  obtain rfl : sps' = sps := Option.some.inj (hent.sps_eq.symm.trans h.sps_eq)
  obtain ⟨free, frame, hfree, hisFree, hslot⟩ := h.missing hent.source
  obtain ⟨held, hs, hheld, hp⟩ := h.held
  have hk : k ≠ index := by
    rintro rfl
    obtain rfl := Option.some.inj (hs.symm.trans hfree)
    rw [hheld] at hisFree
    cases hisFree
  refine ⟨hk, ⟨_, hent.marked, ?_, ?_, ?_⟩, held, ?_, hheld, hp⟩
  · rw [Slot.isFree_mark]
    exact hent.source.held
  · rw [Slot.poc_mark, hslot]
    rfl
  · refine Slot.placeholder_mark _ ?_
    rw [hslot]
    rfl
  · exact (hent.others _ fun he => hk (congrArg SlotRef.index he)).trans hs

theorem not_distinct_of_leavesDouble (h : d.LeavesDouble layer hdr) :
    ¬(d.deriveSets layer hdr).2.Distinct := by
  obtain ⟨before, c, after, d₁, sps, k, s, hcs, hb, hok, hd, hs, huse⟩ := h
  have hcs' : hdr.candidates (d.clearSets layer).poc = before ++ c :: after := by
    rw [(d.deriving_clearSets layer).poc_eq, hcs]
  obtain ⟨fault, store, he, -⟩ | ⟨sps', index, slot, d₂, he, hent⟩ := d₁.addCandidate_cases layer c
  · rw [he] at hok
    cases hok
  · obtain ⟨hk, ⟨double, hdouble, hheld, hp, hplaceholder⟩, held, hheld', hfree, hp'⟩ :=
      hd.entered hent
    have hkeeps := keeps_rest hcs' hb he
    obtain ⟨new, hnew, -, hpnew, hstandIn⟩ := hkeeps _ double hdouble hheld
    obtain ⟨kept, hkept, -, hpkept, -⟩ := hkeeps _ held hheld' hfree
    have hinUse : new.InUse := Slot.inUse_of_placeholder (hstandIn hplaceholder)
    cases hg : d.layers.get? layer with
    | none =>
      match layer with
      | 0 => cases hg
      | 1 => cases hg
      | n + 2 => cases hd.sps_eq
    | some l =>
      rw [deriveSets_eq hg] at hs ⊢
      dsimp only at hs ⊢
      intro hdistinct
      rw [slot?_sweep, if_pos rfl, hkept, Option.map_some] at hs
      obtain rfl := Option.some.inj hs
      refine hk (hdistinct layer k index _ (new.strip .empty) ?_ ?_ huse ?_ ?_)
      · rw [slot?_sweep, if_pos rfl, hkept]
        rfl
      · rw [slot?_sweep, if_pos rfl, hnew]
        rfl
      · rw [Slot.strip_empty_of_inUse hinUse]
        exact hinUse
      · rw [Slot.poc_strip, Slot.poc_strip, hpkept, hpnew, hp, hp']

/-- **A derivation keeps the order counts distinct if and only if it leaves no double.** -/
theorem distinct_deriveSets_iff {others : List FrameId} (h : d.Distinct) (hsound : d.Sound)
    (ha : d.Accounted others) (layer : Nat) (hdr : SliceHeader) :
    (d.deriveSets layer hdr).2.Distinct ↔ ¬d.LeavesDouble layer hdr := by
  refine ⟨fun hdistinct hleaves => not_distinct_of_leavesDouble hleaves hdistinct, fun hnone => ?_⟩
  have hsound' := sound_deriveSets hsound layer hdr ha
  refine hsound'.distinct_iff_twins.mpr fun n i j htwins => ?_
  by_cases hij : i = j
  · exact hij
  cases hg : d.layers.get? layer with
  | none =>
    rw [deriveSets_of_invalid hg] at htwins
    exact hsound.distinct_iff_twins.mp h n i j htwins
  | some l =>
    have hmid : ((d.clearSets layer).addHeader layer hdr).2.Twins n i j := by
      rw [deriveSets_eq hg] at htwins
      exact twins_of_sweep htwins
    rcases twins_of_addHeader hij hmid with
      hclear | ⟨rfl, before, c, after, d₁, sps, k, hk, hcs, hb, hok, hd⟩
    · exact hsound.distinct_iff_twins.mp h n i j (twins_of_clearSets hclear)
    · refine absurd ?_ hnone
      obtain ⟨a, b, has, hbs, hfa, hfb, -⟩ := htwins
      have huse : ∀ {ref s}, (d.deriveSets n hdr).2.slot? ref = some s → s.isFree = false →
          s.InUse := fun hs => (Slot.sound_iff.mp (hsound' _ _ hs)).2
      rw [(d.deriving_clearSets n).poc_eq] at hcs
      rcases hk with rfl | rfl
      · exact ⟨before, c, after, d₁, sps, k, a, hcs, hb, hok, hd, has, huse has hfa⟩
      · exact ⟨before, c, after, d₁, sps, k, b, hcs, hb, hok, hd, hbs, huse hbs hfb⟩

/-- **No double comes of low bits that are in range** and are not the current order count. -/
theorem not_leavesDouble (hsps : d.sps? layer = some sps) (hbits : sps.log2PocLsb ≤ 30)
    (h : ∀ c ∈ hdr.candidates d.poc, c.fullPoc = false →
      0 ≤ c.poc ∧ c.poc < 2 ^ sps.log2PocLsb ∧ c.poc ≠ d.poc) : ¬d.LeavesDouble layer hdr := by
  rintro ⟨before, c, after, d₁, sps', k, -, hcs, hb, -, hd, -, -⟩
  have hderiv := (d.deriving_clearSets layer).trans
    ((d.clearSets layer).deriving_addCandidates layer before)
  rw [hb] at hderiv
  obtain rfl : sps' = sps :=
    Option.some.inj (hd.sps_eq.symm.trans ((hderiv.sps?_eq layer).trans hsps))
  obtain ⟨hnonneg, hlt, hne⟩ := h c (by simp [hcs]) hd.lowBits
  obtain ⟨slot, hs, hheld, hp⟩ := hd.held
  have hlsb : pocLsb sps'.log2PocLsb slot.poc = c.poc :=
    (pocLsb_eq_iff hbits hnonneg hlt slot.poc).mpr (hp ▸ Int.ModEq.refl slot.poc)
  have hpoc := hd.missed k slot hs hheld hlsb
  rw [hp, hderiv.poc_eq] at hpoc
  exact hne hpoc

end Decoder

/-! ## Sessions -/

namespace Session

variable {s : Session}

/-- No decoder holds two pictures of one layer and one order count. -/
def Distinct (s : Session) : Prop := ∀ i d, s.decoder? i = some d → d.Distinct

/-- The event is a derivation that leaves a double. -/
def LeavesDouble (s : Session) (e : Event) : Prop :=
  ∃ i layer hdr d, e = .run i (.deriveSets layer hdr) ∧ s.decoder? i = some d ∧
    d.LeavesDouble layer hdr

/-- **One event keeps the order counts distinct if and only if it leaves no double.** -/
theorem distinct_step_iff (h : s.Distinct) (hsound : s.Sound) (ha : s.Accounted) (e : Event) :
    (s.step e).2.Distinct ↔ ¬s.LeavesDouble e := by
  constructor
  · rintro hdistinct ⟨i, layer, hdr, d, rfl, hd, hleaves⟩
    exact Decoder.not_distinct_of_leavesDouble hleaves
      (hdistinct i _ (decoder?_run hd (.deriveSets layer hdr)))
  · intro hnone j d hd
    obtain ⟨i, old, hold, ⟨command, rfl, rfl⟩ | ⟨owns, hcontext⟩⟩ := decoder?_step hd
    · have hdistinct := h i old hold
      cases command with
      | startPicture layer info =>
        obtain ⟨fault, -, hages, -⟩ | ⟨index, -, hbegins⟩ := old.startPicture_slots layer info
        · exact hdistinct.ages hages
        · exact hdistinct.begins (hsound i old hold) hbegins
      | deriveSets layer hdr =>
        refine (Decoder.distinct_deriveSets_iff hdistinct (hsound i old hold)
          ((accounted_iff hold).mp ha) layer hdr).mpr fun hleaves => ?_
        exact hnone ⟨i, layer, hdr, old, rfl, hold, hleaves⟩
      | _ => exact hdistinct.ages (old.ages_run trivial)
    · intro n k l a b hsa hsb
      rw [Decoder.slot?, Decoder.layer?, hcontext] at hsa hsb
      exact h i old hold n k l a b hsa hsb

theorem distinct_start (config : Config) (provider : Provider) :
    (start config provider).Distinct := by
  intro i d hd n k l a b hsa hsb hua
  rw [slot?_start hd hsa] at hua
  cases hua

/-- The state after one more event. -/
theorem afterAll_take_succ {events : List Event} {k : Nat} {e : Event} (h : events[k]? = some e) :
    s.afterAll (events.take (k + 1)) = ((s.afterAll (events.take k)).step e).2 := by
  induction events generalizing s k with
  | nil => cases h
  | cons first rest ih =>
    cases k with
    | zero =>
      cases h
      rfl
    | succ k => exact ih h

/-- **When order counts are distinct.** Along any sequence of events, no decoder ever has two slots
of one layer in use with pictures of one order count, **if and only if** no derivation among the
events leaves a double. -/
theorem distinct_iff (config : Config) (provider : Provider) (events : List Event) :
    (∀ k, ((start config provider).afterAll (events.take k)).Distinct) ↔
      ∀ k e, events[k]? = some e →
        ¬((start config provider).afterAll (events.take k)).LeavesDouble e := by
  have hstep : ∀ {k e}, events[k]? = some e →
      ((start config provider).afterAll (events.take k)).Distinct →
      (((start config provider).afterAll (events.take (k + 1))).Distinct ↔
        ¬((start config provider).afterAll (events.take k)).LeavesDouble e) := by
    intro k e he hdistinct
    have run := run_all (events.take k) (@Run.start config provider)
    rw [afterAll_take_succ he]
    exact distinct_step_iff hdistinct (sound_run run) (accounted_run run) e
  constructor
  · intro h k e he
    exact (hstep he (h k)).mp (h (k + 1))
  · intro h k
    induction k with
    | zero => exact distinct_start config provider
    | succ k ih =>
      cases he : events[k]? with
      | some e => exact (hstep he ih).mpr (h k e he)
      | none =>
        have hlen := List.getElem?_eq_none_iff.mp he
        rw [List.take_of_length_le hlen] at ih
        rw [List.take_of_length_le (Nat.le_succ_of_le hlen)]
        exact ih

/-- A picture of order count `5` names its own order count, by its low bits, as a long-term
reference. -/
def selfReference : List Event :=
  [.run 0 (.setSps 0 { width := 2, height := 2 }),
    .run 0 (.startPicture 0 { poc := 5, output := true, numSlices := 1, pps := {} }),
    .run 0 (.deriveSets 0
      { shortTerm := some {}, longTerm := { pocs := [5], used := [true], fullPoc := [false] } })]

/-- **The current picture is doubled**, so it is not true of every run that order counts are
distinct. -/
theorem not_always_distinct : ¬ ∀ (config : Config) (provider : Provider) (log : List Moment)
    (s : Session) (i : Nat) (d : Decoder), Run config provider log s → s.decoder? i = some d →
    d.Distinct := by
  intro h
  have run := run_all selfReference (@Run.start {} {})
  obtain ⟨d, hd⟩ : ∃ d, ((start {} {}).afterAll selfReference).decoder? 0 = some d := ⟨_, rfl⟩
  obtain ⟨a, b, ha, hb, hua, hub, hp⟩ : ∃ a b, d.slot? ⟨0, 0⟩ = some a ∧ d.slot? ⟨0, 1⟩ = some b ∧
      a.InUse ∧ b.InUse ∧ a.poc = b.poc := by
    cases hd
    exact ⟨_, _, rfl, rfl, rfl, rfl, rfl⟩
  have heq := h {} {} _ _ 0 d run hd 0 0 1 a b ha hb hua hub hp
  cases heq

end Session

end PictureBuffer
