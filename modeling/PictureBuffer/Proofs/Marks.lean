import PictureBuffer.Proofs.Soundness

/-!
# The marks that a derivation leaves

A derivation takes the marking off the pictures of a layer and gives it back to those that the
candidates name, one by one. When it ends, early or not, the marks say what the sets say
(`Decoder.Derived`): a picture is a long-term reference if it has an entry in a long-term subset,
else a short-term one if it has an entry in a short-term subset, and else is kept only if it waits
for output. The current picture is left alone, and so is the other layer, apart from the picture
entered as inter-layer reference.

The short-term candidates come first, so while one of them is marked no picture has an entry in a
long-term subset (`Midway.enters_shortTerm`); a long-term candidate takes its picture over from
them (`Midway.enters_longTerm`).

* `deriveSets_derived`: this is so for every derivation, in every state of every run, as long as
  the current slot still holds the picture that was started there (`Decoder.HoldsCurrent`).
* `holdsCurrent_startPicture`, `HoldsCurrent.run`: a picture that was started is held until it
  leaves its slot.
-/

namespace PictureBuffer

/-! ## Entries -/

namespace RefSets

variable {sets : RefSets} {subset : Subset} {subsets : List Subset} {entry : RefEntry}
  {ref : SlotRef}

/-- A slot has an entry in one of the subsets. -/
def NamesIn (sets : RefSets) (subsets : List Subset) (ref : SlotRef) : Prop :=
  ∃ subset ∈ subsets, ∃ entry ∈ (sets.get subset).entries, entry.slot = ref

theorem not_namesIn_empty (subsets : List Subset) (ref : SlotRef) :
    ¬({} : RefSets).NamesIn subsets ref := by
  rintro ⟨subset, -, entry, hm, -⟩
  cases subset <;> cases hm

/-- An entry that is added names its own slot, in its own subset. -/
theorem namesIn_push (room : (sets.get subset).isFull = false) :
    (sets.push subset entry).NamesIn subsets ref ↔
      sets.NamesIn subsets ref ∨ (subset ∈ subsets ∧ entry.slot = ref) := by
  constructor
  · rintro ⟨other, ho, e, hm, he⟩
    rw [entries_push room, List.mem_append] at hm
    rcases hm with hm | hm
    · exact Or.inl ⟨other, ho, e, hm, he⟩
    · split at hm
      · rename_i hsub
        obtain rfl := List.mem_singleton.mp hm
        exact Or.inr ⟨hsub ▸ ho, he⟩
      · cases hm
  · rintro (⟨other, ho, e, hm, he⟩ | ⟨ho, he⟩)
    · refine ⟨other, ho, e, ?_, he⟩
      rw [entries_push room]
      exact List.mem_append_left _ hm
    · refine ⟨subset, ho, entry, ?_, he⟩
      rw [entries_push room, if_pos rfl]
      exact List.mem_append_right _ List.mem_cons_self

/-- For other slots nothing changes. -/
theorem namesIn_push_of_ne (room : (sets.get subset).isFull = false) (h : ref ≠ entry.slot) :
    (sets.push subset entry).NamesIn subsets ref ↔ sets.NamesIn subsets ref := by
  rw [namesIn_push room]
  exact or_iff_left fun hn => h hn.2.symm

end RefSets

/-! ## What a derivation leaves behind -/

/-- **The marks of a slot say what the sets say**: what a derivation makes of a slot of its layer
that is not the current picture's. -/
structure Slot.Derived (sets : RefSets) (ref : SlotRef) (old new : Slot) : Prop where
  longTerm : new.flags.longTerm = true ↔ sets.NamesIn Subset.longTerms ref
  shortTerm : new.flags.shortTerm = true ↔
    sets.NamesIn Subset.shortTerms ref ∧ ¬sets.NamesIn Subset.longTerms ref
  inUse : new.InUse ↔ sets.NamesIn Subset.all ref ∨ old.flags.output = true
  output : new.flags.output = old.flags.output

namespace Slot

variable {sets sets' : RefSets} {ref : SlotRef} {old new new' : Slot} {marking : Marking}

/-- Only the flags matter. -/
theorem Derived.of_flags (h : old.Derived sets ref new) (hf : new'.flags = new.flags) :
    old.Derived sets ref new' := by
  constructor
  · rw [hf]
    exact h.longTerm
  · rw [hf]
    exact h.shortTerm
  · rw [InUse, hf]
    exact h.inUse
  · rw [hf]
    exact h.output

/-- Only the entries of the slot itself matter. -/
theorem Derived.congr (h : old.Derived sets ref new)
    (hn : ∀ subsets, sets'.NamesIn subsets ref ↔ sets.NamesIn subsets ref) :
    old.Derived sets' ref new := by
  constructor
  · rw [hn]
    exact h.longTerm
  · rw [hn, hn]
    exact h.shortTerm
  · rw [hn]
    exact h.inUse
  · exact h.output

/-- A slot whose marking was taken off waits for output at most. -/
theorem derived_of_cleared (hf : new.flags = { output := old.flags.output }) (ref : SlotRef) :
    old.Derived {} ref new := by
  have hn := fun subsets => RefSets.not_namesIn_empty subsets ref
  constructor
  · simp [hf, hn]
  · simp [hf, hn]
  · simp [InUse, Flags.isEmpty, hf, hn]
  · rw [hf]

/-- A picture that was marked for its entry. -/
theorem derived_of_marked {slot : Slot} (hheld : slot.isFree = false)
    (ho : slot.flags.output = old.flags.output) (hall : sets.NamesIn Subset.all ref)
    (hm : (marking = .longTerm ∧ sets.NamesIn Subset.longTerms ref) ∨
      (marking = .shortTerm ∧ sets.NamesIn Subset.shortTerms ref ∧
        ¬sets.NamesIn Subset.longTerms ref)) :
    old.Derived sets ref (slot.mark marking) := by
  have hflags := flags_mark marking slot
  rw [hheld, if_neg Bool.false_ne_true] at hflags
  have hout : (slot.mark marking).flags.output = old.flags.output := by
    rw [hflags, ← ho]
    cases marking <;> simp [Flags.union, Flags.without, Flags.references, Marking.flags]
  obtain ⟨rfl, hlong⟩ | ⟨rfl, hshort, hlong⟩ := hm
  · refine ⟨?_, ?_, iff_of_true (inUse_mark (by simp) hheld) (Or.inl hall), hout⟩
    · simp [hflags, Flags.union, Marking.flags, hlong]
    · simp [hflags, Flags.union, Flags.without, Flags.references, Marking.flags, hlong]
  · refine ⟨?_, ?_, iff_of_true (inUse_mark (by simp) hheld) (Or.inl hall), hout⟩
    · simp [hflags, Flags.union, Flags.without, Flags.references, Marking.flags, hlong]
    · simp [hflags, Flags.union, Marking.flags, hshort, hlong]

/-- The flags that are left before the first candidate. -/
theorem flags_cleared {store : Store} (h : old.Sound store) :
    (mark .none (if old.flags.placeholder then old.strip .all else old)).flags =
      { output := old.flags.output } := by
  split
  · rename_i hp
    have hframe := frame_strip .all old
    have hflags := flags_strip .all old
    have hnone : old.flags.without .all = {} := by simp [Flags.without, Flags.all]
    have hempty : Flags.isEmpty {} = true := rfl
    rw [hnone, if_pos hempty] at hframe
    rw [flags_mark, isFree, hframe, Option.isNone_none, if_pos rfl, hflags, hnone, (h.standIn hp).1]
  · rename_i hp
    rw [Bool.not_eq_true] at hp
    rw [flags_mark]
    split
    · rename_i hfree
      have hempty : old.flags.isEmpty = true := by
        rw [← Bool.not_eq_false]
        exact (sound_iff.mp h).1.free hfree
      simp [Flags.isEmpty] at hempty
      obtain ⟨⟨⟨ho, hs⟩, hl⟩, -⟩ := hempty
      rw [ho]
      generalize old.flags = flags at *
      obtain ⟨a, b, c, e⟩ := flags
      simp_all
    · simp [Flags.union, Flags.without, Flags.references, Marking.flags, hp]

/-- A slot does not become a stand-in's with age. -/
theorem Ages.placeholder (h : old.Ages new) (hp : old.flags.placeholder = false) :
    new.flags.placeholder = false := by
  induction h with
  | refl => exact hp
  | strip _ mask ih =>
    rw [flags_strip]
    simp [Flags.without, ih]
  | selectLists _ hs ih =>
    obtain ⟨-, rfl⟩ := selectLists_ok hs
    exact ih
  | setLists _ _ ih => exact ih

end Slot

/-- **What a derivation leaves behind** in the buffers. -/
structure Decoder.Derived (d : Decoder) (layer : Nat) (d' : Decoder) : Prop where
  slots : ∀ ref old, ref.layer = layer → d.current ≠ some ref → d.slot? ref = some old →
    ∃ new, d'.slot? ref = some new ∧ old.Derived d'.sets ref new
  current : ∀ ref, d.current = some ref →
    d'.slot? ref = d.slot? ref ∧ ¬d'.sets.NamesIn Subset.all ref
  others : ∀ ref, ref.layer ≠ layer → d'.slot? ref = d.slot? ref ∨
    (ref.layer = 0 ∧ d'.sets.NamesIn [.interLayer0] ref)

namespace Decoder

variable {d₀ d d' : Decoder} {layer n : Nat} {sps : Sps} {c : Candidate} {index : Nat} {slot : Slot}

/-- The current slot holds the picture that was started there: it is in use, and not by a
stand-in. -/
def HoldsCurrent (d : Decoder) : Prop :=
  ∃ ref slot, d.current = some ref ∧ d.slot? ref = some slot ∧ slot.InUse ∧
    slot.flags.placeholder = false

/-! ## Candidate by candidate -/

/-- **In the middle of a derivation**, which began in the state `d₀`. -/
structure Midway (d₀ : Decoder) (layer : Nat) (d : Decoder) : Prop extends
    d₀.Derived layer d where
  current_eq : d.current = d₀.current
  free : ∀ ref slot, d.slot? ref = some slot → slot.isFree = true → ¬slot.InUse

/-- The current picture is never entered. -/
theorem Midway.ne_current (h : Midway d₀ layer d) (hcur : d₀.HoldsCurrent)
    (hent : d.Enters n sps c index slot d') : d₀.current ≠ some ⟨n, index⟩ := by
  intro hc
  cases hent.source with
  | found _ _ _ other => exact other (h.current_eq.trans hc)
  | missing _ hs hfree =>
    obtain ⟨ref, held, href, hheld, huse, -⟩ := hcur
    obtain rfl := Option.some.inj (hc.symm.trans href)
    rw [(h.current _ hc).1, hheld] at hs
    obtain rfl := Option.some.inj hs
    refine h.free ⟨n, index⟩ held ?_ hfree huse
    rw [(h.current _ hc).1, hheld]

/-- The picture of a candidate waits for output if the slot's picture did before. -/
theorem Midway.output_source (h : Midway d₀ layer d) (hent : d.Enters layer sps c index slot d')
    (hne : d₀.current ≠ some ⟨layer, index⟩) {old : Slot}
    (hold : d₀.slot? ⟨layer, index⟩ = some old) : slot.flags.output = old.flags.output := by
  obtain ⟨now, hnow, hderived⟩ := h.slots ⟨layer, index⟩ old rfl hne hold
  cases hent.source with
  | found hs =>
    obtain rfl := Option.some.inj (hs.symm.trans hnow)
    exact hderived.output
  | @missing free _ _ hs hfree hslot =>
    obtain rfl := Option.some.inj (hs.symm.trans hnow)
    have hidle := h.free _ _ hs hfree
    have hout : free.flags.output = false := by
      rw [← Bool.not_eq_true]
      intro ho
      exact hidle (by simp [Slot.InUse, Flags.isEmpty, ho])
    rw [hslot, ← hderived.output, hout]
    rfl

/-- A candidate is entered. What it does to its own slot is left to show. -/
theorem Midway.of_enters (h : Midway d₀ layer d) (hcur : d₀.HoldsCurrent)
    (hent : d.Enters n sps c index slot d')
    (hentered : ∀ old, n = layer → d₀.slot? ⟨n, index⟩ = some old →
      slot.flags.output = old.flags.output →
      old.Derived d'.sets ⟨n, index⟩ (slot.mark c.marking))
    (hbase : n ≠ layer → n = 0 ∧ c.subset = .interLayer0) : Midway d₀ layer d' := by
  have hne := h.ne_current hcur hent
  have hnames : ∀ {ref}, ref ≠ ⟨n, index⟩ → ∀ subsets,
      d'.sets.NamesIn subsets ref ↔ d.sets.NamesIn subsets ref := by
    intro ref hr subsets
    rw [hent.sets]
    exact RefSets.namesIn_push_of_ne hent.room hr
  refine ⟨⟨?_, ?_, ?_⟩, hent.deriv.current_eq.trans h.current_eq, ?_⟩
  · intro ref old hl hc hold
    by_cases hr : ref = ⟨n, index⟩
    · subst hr
      obtain rfl : n = layer := hl
      exact ⟨_, hent.marked, hentered old rfl hold (h.output_source hent hne hold)⟩
    · obtain ⟨new, hnew, hderived⟩ := h.slots ref old hl hc hold
      exact ⟨new, (hent.others ref hr).trans hnew, hderived.congr (hnames hr)⟩
  · intro ref hc
    have hr : ref ≠ ⟨n, index⟩ := by
      rintro rfl
      exact hne hc
    rw [hent.others ref hr, hnames hr]
    exact h.current ref hc
  · intro ref hl
    by_cases hr : ref = ⟨n, index⟩
    · subst hr
      obtain ⟨hzero, hsubset⟩ := hbase hl
      refine Or.inr ⟨hzero, ?_⟩
      rw [hent.sets, RefSets.namesIn_push hent.room, hsubset]
      exact Or.inr ⟨List.mem_cons_self, rfl⟩
    · rw [hent.others ref hr, hnames hr]
      exact h.others ref hl
  · intro ref s hs
    by_cases hr : ref = ⟨n, index⟩
    · subst hr
      obtain rfl := Option.some.inj (hs.symm.trans hent.marked)
      intro hfree
      rw [Slot.isFree, Slot.frame_mark] at hfree
      exact absurd hfree (Bool.eq_false_iff.mp hent.source.held)
    · rw [hent.others ref hr] at hs
      exact h.free ref s hs

/-- The entry of a candidate of the layer itself. -/
theorem namesIn_entered (hent : d.Enters n sps c index slot d') {subsets : List Subset}
    (hs : c.subset ∈ subsets) : d'.sets.NamesIn subsets ⟨n, index⟩ := by
  rw [hent.sets, RefSets.namesIn_push hent.room]
  exact Or.inr ⟨hs, rfl⟩

/-- A short-term candidate, before the first long-term one. -/
theorem Midway.enters_shortTerm (h : Midway d₀ layer d) (hcur : d₀.HoldsCurrent)
    (hent : d.Enters layer sps c index slot d') (hm : c.marking = .shortTerm)
    (hs : c.subset ∈ Subset.shortTerms) (hlong : ∀ ref, ¬d.sets.NamesIn Subset.longTerms ref) :
    Midway d₀ layer d' ∧ ∀ ref, ¬d'.sets.NamesIn Subset.longTerms ref := by
  have hlong' : ∀ ref, ¬d'.sets.NamesIn Subset.longTerms ref := by
    intro ref
    rw [hent.sets, RefSets.namesIn_push hent.room]
    rintro (hn | ⟨hs', -⟩)
    · exact hlong ref hn
    · exact Subset.not_mem_longTerms hs hs'
  refine ⟨h.of_enters hcur hent (fun old _ _ ho => ?_) fun hne => absurd rfl hne, hlong'⟩
  exact Slot.derived_of_marked hent.source.held ho (namesIn_entered hent (Subset.mem_all _))
    (Or.inr ⟨hm, namesIn_entered hent hs, hlong' _⟩)

theorem Midway.enters_longTerm (h : Midway d₀ layer d) (hcur : d₀.HoldsCurrent)
    (hent : d.Enters layer sps c index slot d') (hm : c.marking = .longTerm)
    (hs : c.subset ∈ Subset.longTerms) : Midway d₀ layer d' := by
  refine h.of_enters hcur hent (fun old _ _ ho => ?_) fun hne => absurd rfl hne
  exact Slot.derived_of_marked hent.source.held ho (namesIn_entered hent (Subset.mem_all _))
    (Or.inl ⟨hm, namesIn_entered hent hs⟩)

/-- A candidate is refused. -/
theorem Midway.refused (h : Midway d₀ layer d) (store : Store) :
    Midway d₀ layer { d with store } :=
  ⟨⟨h.slots, h.current, h.others⟩, h.current_eq, h.free⟩

theorem midway_clearSets {others : List FrameId} (h : d.Sound) (hcur : d.HoldsCurrent)
    (ha : d.Accounted others) (layer : Nat) : Midway d layer (d.clearSets layer) := by
  have hunderway := underway_clearSets h layer ((d.steady_clearSets layer).accounted others ha)
  refine ⟨⟨?_, ?_, ?_⟩, (d.deriving_clearSets layer).current_eq,
    fun ref slot hs => (hunderway ref slot hs).1.free⟩
  · intro ref old hl hc hold
    refine ⟨_, ?_, Slot.derived_of_cleared (Slot.flags_cleared (h ref old hold)) ref⟩
    rw [slot?_clearSets, if_pos hl, hold, Option.map_some]
    dsimp only
    rw [if_neg hc]
  · intro ref hc
    refine ⟨?_, RefSets.not_namesIn_empty _ ref⟩
    obtain ⟨ref', held, hc', hheld, -, hp⟩ := hcur
    obtain rfl := Option.some.inj (hc.symm.trans hc')
    rw [slot?_clearSets]
    split
    · simp [hheld, hp]
    · rfl
  · intro ref hl
    rw [slot?_clearSets, if_neg hl]
    exact Or.inl rfl

/-! ## All candidates -/

theorem midway_addCandidates (h : Midway d₀ layer d) (hcur : d₀.HoldsCurrent)
    (hlong : ∀ ref, ¬d.sets.NamesIn Subset.longTerms ref) (hdr : SliceHeader) (poc : Int) :
    Midway d₀ layer (d.addCandidates layer (hdr.candidates poc)).2 := by
  obtain ⟨first, rest, he, hfirst, hrest⟩ := hdr.candidates_eq poc
  obtain ⟨-, -, -, hp, -⟩ := @addCandidates_induction d layer
    (fun _ d => Midway d₀ layer d ∧ ∀ ref, ¬d.sets.NamesIn Subset.longTerms ref) first
    (fun hp _ => ⟨hp.1.refused _, hp.2⟩)
    (fun hc hp hent =>
      hp.1.enters_shortTerm hcur hent (hfirst _ hc).1 (hfirst _ hc).2 hp.2) [] ⟨h, hlong⟩
  rw [he, addCandidates_append]
  rcases hadd : d.addCandidates layer first with ⟨_ | _, d'⟩
  · rw [hadd] at hp
    exact hp.1
  · rw [hadd] at hp
    obtain ⟨-, -, -, hp', -⟩ := @addCandidates_induction d' layer
      (fun _ d => Midway d₀ layer d) rest (fun hp _ => hp.refused _)
      (fun hc hp hent => hp.enters_longTerm hcur hent (hrest _ hc).1 (hrest _ hc).2) [] hp.1
    exact hp'

theorem midway_addHeader (h : Midway d₀ layer d) (hcur : d₀.HoldsCurrent)
    (hlong : ∀ ref, ¬d.sets.NamesIn Subset.longTerms ref) (hdr : SliceHeader) :
    Midway d₀ layer (d.addHeader layer hdr).2 := by
  refine addHeader_induction (midway_addCandidates h hcur hlong hdr d.poc) fun hp => ?_
  refine addInterLayer_preserves hp (fun store _ => hp.refused store) fun hl _ hent => ?_
  exact hp.of_enters hcur hent (fun _ hzero => absurd hzero.symm hl) fun _ => ⟨rfl, rfl⟩

/-- The sweep at the end takes nothing from a slot that has flags. -/
theorem derived_sweep (h : Midway d₀ layer d) (hcur : d₀.HoldsCurrent) :
    d₀.Derived layer (d.onDpb layer Dpb.sweep) := by
  refine ⟨?_, ?_, ?_⟩
  · intro ref old hl hc hold
    obtain ⟨new, hnew, hderived⟩ := h.slots ref old hl hc hold
    refine ⟨new.strip .empty, ?_, ?_⟩
    · rw [slot?_sweep, if_pos hl, hnew]
      rfl
    · rw [sets_onDpb]
      refine hderived.of_flags ?_
      rw [Slot.flags_strip]
      simp [Flags.without, Flags.empty]
  · intro ref hc
    obtain ⟨hslot, hnone⟩ := h.current ref hc
    obtain ⟨ref', held, hc', hheld, huse, -⟩ := hcur
    obtain rfl := Option.some.inj (hc.symm.trans hc')
    rw [sets_onDpb, slot?_sweep, hslot, hheld, Option.map_some, Slot.strip_empty_of_inUse huse,
      ite_self]
    exact ⟨rfl, hnone⟩
  · intro ref hl
    rw [sets_onDpb, slot?_sweep, if_neg hl]
    exact h.others ref hl

/-- What a derivation leaves behind, from sound slots. -/
theorem derived_of_sound {others : List FrameId} (h : d.Sound) (hcur : d.HoldsCurrent)
    (ha : d.Accounted others) (hl : layer < 2) (hdr : SliceHeader) :
    d.Derived layer (d.deriveSets layer hdr).2 := by
  obtain ⟨l, hg⟩ : ∃ l, d.layers.get? layer = some l := by
    match layer, hl with
    | 0, _ => exact ⟨_, rfl⟩
    | 1, _ => exact ⟨_, rfl⟩
  rw [deriveSets_eq hg]
  exact derived_sweep (midway_addHeader (midway_clearSets h hcur ha layer) hcur
    (RefSets.not_namesIn_empty _) hdr) hcur

/-! ## The current picture -/

/-- A derivation leaves the slot of the current picture alone. -/
theorem slot?_current_deriveSets {others : List FrameId} (h : d.Sound) (hcur : d.HoldsCurrent)
    (ha : d.Accounted others) (layer : Nat) (hdr : SliceHeader) {ref : SlotRef}
    (hc : d.current = some ref) : (d.deriveSets layer hdr).2.slot? ref = d.slot? ref := by
  rcases Nat.lt_or_ge layer 2 with hl | hl
  · exact ((derived_of_sound h hcur ha hl hdr).current ref hc).1
  · have hg : d.layers.get? layer = none := by
      obtain ⟨k, rfl⟩ := Nat.exists_eq_add_of_le' hl
      rfl
    rw [deriveSets_of_invalid hg]

/-- A picture that was started is held. -/
theorem holdsCurrent_startPicture {info : PictureInfo} {ref : SlotRef}
    (h : (d.startPicture layer info).1 = .ok ref) :
    (d.startPicture layer info).2.HoldsCurrent := by
  obtain ⟨fault, he, -⟩ | ⟨index, -, hbegins⟩ := d.startPicture_slots layer info
  · rw [h] at he
    cases he
  · obtain ⟨sps, frame, hslot⟩ := hbegins.entered
    refine ⟨_, _, hbegins.current, hslot, ?_, rfl⟩
    change Flags.isEmpty { output := info.output, shortTerm := true } = false
    simp [Flags.isEmpty]

/-- **A picture that was started is held until it leaves its slot**: no command puts a stand-in in
its place. -/
theorem HoldsCurrent.run {others : List FrameId} (h : d.HoldsCurrent) (hsound : d.Sound)
    (ha : d.Accounted others) (command : Command)
    (hcurrent : (d.run command).2.current = d.current)
    (hframe : ∀ ref, d.current = some ref → (d.run command).2.frameAt? ref = d.frameAt? ref) :
    (d.run command).2.HoldsCurrent := by
  have hsound' := sound_run hsound command ha
  have aged : d.Ages (d.run command).2 → (d.run command).2.HoldsCurrent := by
    intro hages
    obtain ⟨ref, slot, hc, hs, huse, hp⟩ := h
    obtain ⟨new, hnew, hslot⟩ := hages.slot_of_old hs
    refine ⟨ref, new, hcurrent.trans hc, hnew, ?_, Slot.Ages.placeholder hslot hp⟩
    have hsame := hframe ref hc
    rw [frameAt?, hnew, frameAt?, hs, Option.bind_some, Option.bind_some] at hsame
    refine (hsound' ref new hnew).held.mp ?_
    rw [hsame]
    exact (hsound ref slot hs).held.mpr huse
  cases command with
  | startPicture layer info =>
    obtain ⟨fault, -, hages, -⟩ | ⟨index, hok, -⟩ := d.startPicture_slots layer info
    · exact aged hages
    · exact holdsCurrent_startPicture hok
  | deriveSets layer hdr =>
    have hsame := @slot?_current_deriveSets _ _ hsound h ha layer hdr
    obtain ⟨ref, slot, hc, hs, huse, hp⟩ := h
    exact ⟨ref, slot, hcurrent.trans hc, (hsame hc).trans hs, huse, hp⟩
  | _ => exact aged (d.ages_run trivial)

end Decoder

/-! ## Sessions -/

namespace Session

variable {config : Config} {provider : Provider} {log : List Moment} {s : Session} {i : Nat}
  {d : Decoder}

/-- **After every derivation, completed or broken off, the marks say what the sets say.** This is so
in every state of every run in which the current slot still holds the picture that was started
there, for each of the two layers and any slice header. -/
theorem deriveSets_derived (run : Run config provider log s) (hd : s.decoder? i = some d)
    (hcur : d.HoldsCurrent) {layer : Nat} (hl : layer < 2) (hdr : SliceHeader) :
    d.Derived layer (d.deriveSets layer hdr).2 :=
  Decoder.derived_of_sound (sound_run run i d hd) hcur
    ((accounted_iff hd).mp (accounted_run run)) hl hdr

/-- A picture of order count `8` is decoded, and one of `10` begun. -/
def twoPictures : List Event :=
  [.run 0 (.setSps 0 { width := 2, height := 2 }),
    .run 0 (.startPicture 0 { poc := 8, output := true, numSlices := 1, pps := {} }),
    .run 0 .finishPicture,
    .run 0 (.startPicture 0 { poc := 10, output := true, numSlices := 1, pps := {} })]

/-- The second picture refers to the first one, which is there, and to another, which is not. -/
def twoReferences : SliceHeader where
  shortTerm := some { deltas := [-2, -4], used := [true, true], numNegative := 2 }

/-- The marks after the derivation for a picture with two references. -/
theorem twoReferences_derived : ∃ log d,
    Run {} {} log ((start {} {}).afterAll twoPictures) ∧
    ((start {} {}).afterAll twoPictures).decoder? 0 = some d ∧ d.HoldsCurrent ∧
    (d.deriveSets 0 twoReferences).2.sets.stCurrBefore.pocs = [8, 6] ∧
    d.Derived 0 (d.deriveSets 0 twoReferences).2 := by
  have run := run_all twoPictures (@Run.start {} {})
  obtain ⟨d, hd⟩ : ∃ d, ((start {} {}).afterAll twoPictures).decoder? 0 = some d := ⟨_, rfl⟩
  have hcur : d.HoldsCurrent := by
    cases hd
    exact ⟨⟨0, 1⟩, _, rfl, rfl, rfl, rfl⟩
  have hpocs : (d.deriveSets 0 twoReferences).2.sets.stCurrBefore.pocs = [8, 6] := by
    cases hd
    decide +kernel
  exact ⟨_, d, run, hd, hcur, hpocs, deriveSets_derived run hd hcur (by decide) twoReferences⟩

end Session

end PictureBuffer
