import PictureBuffer.Proofs.PlaneSizes
import PictureBuffer.Proofs.Room
import PictureBuffer.Proofs.Teardown
import PictureBuffer.Proofs.ValidLists

/-!
# Stand-ins for missing references

A derivation that finds no picture for a candidate makes a stand-in for it. The stand-ins of the
derivation before have left first, and one that has just been made is found by later candidates of
its order count. So a derivation that succeeds leaves one stand-in for each order count that was
missing, and no others (`Decoder.StandIns`), if the order counts are given in full.

What a slot of the layer holds (`Slot.holding`) is followed along the candidates: it is what the
slot held before them, or the slot was free and took a stand-in (`Decoder.Replacing`). Nothing is
said of the marking, which each candidate changes.

* `neutral_fillNeutral`: every sample of a frame that was filled is in the middle of its range.
* `frame?_addCandidate`: the frame of a stand-in is a new one, of the layer's size and format.
* `eq_of_placeholder`: nobody else has the order count of a stand-in.
* `deriveSets_standIns`: the stand-ins that are left, in every state of every run.
-/

namespace PictureBuffer

/-! ## Neutral frames -/

/-- The bits in which a sample is stored. -/
def Format.storedBits (format : Format) : Nat := if format.isHighBitDepth then 16 else 8

namespace Frame

variable {bitDepth : Nat}

/-- Sample `i` of a plane: a byte, or a little-endian word if the format has deep samples. -/
def sample? (frame : Frame) (p i : Nat) : Option Nat :=
  frame.planes[p]?.bind fun plane =>
    if frame.layout.format.isHighBitDepth then
      plane.data[2 * i]?.bind fun low =>
        plane.data[2 * i + 1]?.map fun high => low.toNat + 256 * high.toNat
    else plane.data[i]?.map (·.toNat)

/-- **Every sample is in the middle** of the range of `bitDepth` bits, if they can be stored. -/
def Neutral (frame : Frame) (bitDepth : Nat) : Prop :=
  1 ≤ bitDepth → bitDepth ≤ frame.layout.format.storedBits →
    ∀ p i sample, frame.sample? p i = some sample → sample = 2 ^ (bitDepth - 1)

theorem neutral_eq (hpos : 1 ≤ bitDepth) (hle : bitDepth ≤ 16) :
    neutral bitDepth = 2 ^ (bitDepth - 1) := by
  rw [neutral, Nat.one_shiftLeft, Nat.max_eq_right hpos, Nat.min_eq_right hle]

/-- The bytes of a plane that is filled with bytes. -/
theorem getElem?_fillBytes {value i : Nat} {plane : ByteArray} {byte : UInt8}
    (h : (fillBytes value plane).data[i]? = some byte) : byte = UInt8.ofNat value := by
  unfold fillBytes flatPlane at h
  rw [Array.getElem?_replicate] at h
  split at h
  · exact (Option.some.inj h).symm
  · cases h

/-- The words of a plane that is filled with words. -/
theorem getElem?_fillWords {value i : Nat} {plane : ByteArray} {low high : UInt8}
    (hlow : (fillWords value plane).data[2 * i]? = some low)
    (hhigh : (fillWords value plane).data[2 * i + 1]? = some high) :
    low = UInt8.ofNat value ∧ high = UInt8.ofNat (value / 256) := by
  unfold fillWords at hlow hhigh
  rw [Array.getElem?_mapIdx, Option.map_eq_some_iff] at hlow hhigh
  obtain ⟨old, -, rfl⟩ := hlow
  obtain ⟨old', hold', rfl⟩ := hhigh
  have hlt : 2 * i + 1 < plane.size := (Array.getElem?_eq_some_iff.mp hold').1
  have heven : ¬plane.size ≤ 2 * i / 2 * 2 + 1 := by omega
  have hodd : ¬plane.size ≤ (2 * i + 1) / 2 * 2 + 1 := by omega
  refine ⟨?_, ?_⟩
  · rw [if_neg heven, if_pos (by omega)]
  · rw [if_neg hodd, if_neg (by omega)]

/-- **A frame that was filled is neutral.** -/
theorem neutral_fillNeutral (frame : Frame) (bitDepth : Nat) :
    (frame.fillNeutral bitDepth).Neutral bitDepth := by
  intro hpos hle p i sample hs
  have hformat : (frame.fillNeutral bitDepth).layout.format = frame.layout.format := rfl
  rw [hformat, Format.storedBits] at hle
  unfold sample? at hs
  rw [hformat] at hs
  obtain ⟨plane, hplane, hs⟩ := Option.bind_eq_some_iff.mp hs
  unfold fillNeutral at hplane
  dsimp only at hplane
  rw [List.getElem?_map] at hplane
  obtain ⟨old, -, rfl⟩ := Option.map_eq_some_iff.mp hplane
  cases hhigh : frame.layout.format.isHighBitDepth with
  | false =>
    rw [hhigh, if_neg Bool.false_ne_true] at hle
    rw [hhigh, if_neg Bool.false_ne_true, if_neg Bool.false_ne_true] at hs
    obtain ⟨byte, hbyte, rfl⟩ := Option.map_eq_some_iff.mp hs
    have hlt : 2 ^ (bitDepth - 1) < 2 ^ 8 := Nat.pow_lt_pow_right (by decide) (by omega)
    rw [getElem?_fillBytes hbyte, neutral_eq hpos (by omega), UInt8.toNat_ofNat_of_lt' hlt]
  | true =>
    rw [hhigh, if_pos rfl] at hle
    rw [hhigh, if_pos rfl, if_pos rfl] at hs
    obtain ⟨low, hlow, hs⟩ := Option.bind_eq_some_iff.mp hs
    obtain ⟨high, hhigh, rfl⟩ := Option.map_eq_some_iff.mp hs
    obtain ⟨rfl, rfl⟩ := getElem?_fillWords hlow hhigh
    have hlt : 2 ^ (bitDepth - 1) < 2 ^ 16 := Nat.pow_lt_pow_right (by decide) (by omega)
    rw [neutral_eq hpos hle, UInt8.toNat_ofNat', UInt8.toNat_ofNat']
    generalize 2 ^ (bitDepth - 1) = value at hlt ⊢
    omega

/-- **What a stand-in shows**: a frame of the size and the format of its layer, produced, and with
neutral samples if it was to be filled. -/
structure StandsFor (frame : Frame) (sps : Sps) (fill : Bool) : Prop where
  sized : frame.Sized
  format : frame.layout.format = sps.format
  width : frame.layout.width = sps.width
  height : frame.layout.height = sps.height
  produced : frame.progress = .produced
  neutral : fill = true → frame.Neutral sps.bitDepth

theorem standsFor_standInFrame (sps : Sps) (fill : Bool) (planes : List PlaneGeometry)
    (sideData : List SideData) :
    (Dpb.standInFrame sps fill planes sideData).StandsFor sps fill := by
  let frame := { blank ⟨sps.format, sps.width, sps.height, planes⟩ with sideData }
  have hblank : frame.Sized := sized_blank _
  cases fill with
  | false => exact ⟨hblank, rfl, rfl, rfl, rfl, fun h => by cases h⟩
  | true =>
    refine ⟨hblank.fillNeutral _, rfl, rfl, rfl, rfl, fun _ => ?_⟩
    exact neutral_fillNeutral frame sps.bitDepth

end Frame

/-- **A stand-in as it is to be**: marked for reference and not for output, with a frame that shows
what a stand-in is to show. -/
structure Slot.StandsIn (slot : Slot) (store : Store) (sps : Sps) (fill : Bool) : Prop where
  marked : slot.flags.shortTerm = true ∨ slot.flags.longTerm = true
  silent : slot.flags.output = false
  shown : ∃ x frame, slot.frame = some x ∧ store.frame? x = some frame ∧ frame.StandsFor sps fill

/-! ## What a slot holds -/

/-- What a slot holds: its frame, the order count of the picture, and whether it is a stand-in. -/
def Slot.holding (slot : Slot) : Option FrameId × Int × Bool :=
  (slot.frame, slot.poc, slot.flags.placeholder)

section Holding

variable {a b : Slot} (h : a.holding = b.holding)

include h

theorem Slot.frame_of_holding : a.frame = b.frame := congrArg Prod.fst h

theorem Slot.isFree_of_holding : a.isFree = b.isFree := congrArg Option.isNone (frame_of_holding h)

theorem Slot.poc_of_holding : a.poc = b.poc := congrArg (·.2.1) h

theorem Slot.placeholder_of_holding : a.flags.placeholder = b.flags.placeholder :=
  congrArg (·.2.2) h

end Holding

theorem Slot.holding_mark (marking : Marking) (slot : Slot) :
    (slot.mark marking).holding = slot.holding := by
  unfold mark
  split
  · rfl
  · cases marking <;> simp [holding, Flags.without, Flags.union, Flags.references, Marking.flags]

/-- A slot that a sweep leaves with its picture is left as it is. -/
theorem Slot.strip_empty_of_held {slot : Slot} (h : (slot.strip .empty).isFree = false) :
    slot.strip .empty = slot := by
  have hsame : slot.flags.without .empty = slot.flags := by simp [Flags.without, Flags.empty]
  refine Slot.strip_empty_of_inUse ?_
  have hu := Slot.inUse_strip .empty h
  rwa [InUse, flags_strip, hsame] at hu

namespace Decoder

variable {d₀ d d' : Decoder} {layer index : Nat} {sps : Sps} {c : Candidate}
  {a b slot new free : Slot} {cs : List Candidate} {hdr : SliceHeader} {x : FrameId}

/-! ## One stand-in -/

/-- A stand-in enters a slot of the buffer, on a new frame that shows what it is to show. -/
theorem entered_insertStandIn {dpb dpb' : Dpb} {store store' : Store} {new : NewPicture}
    {fill : Bool} (h : dpb.insertStandIn store sps new fill = (.ok index, dpb', store')) :
    ∃ slot x frame, dpb'.slot? index = some slot ∧ slot.frame = some x ∧
      (∀ i, i ≠ index → dpb'.slot? i = dpb.slot? i) ∧ store.cells.size ≤ x ∧
      x < store'.cells.size ∧ store'.frame? x = some frame ∧ frame.StandsFor sps fill := by
  obtain ⟨x, planes, sideData, hframe, hslot⟩ := Dpb.frame?_insertStandIn h
  obtain ⟨_, _, hcase, -⟩ | ⟨_, _, _, _, hcase, hadd, -⟩ :=
    dpb.insertStandIn_cases store sps new fill
  · rw [h] at hcase
    cases hcase
  · rw [h] at hcase
    cases hcase
    obtain ⟨_, hslot', hx, -⟩ := hadd.entered
    rw [hslot] at hslot'
    cases hslot'
    obtain rfl := Option.some.inj hx
    exact ⟨_, x, _, hslot, rfl, hadd.others, hadd.fresh, hadd.known, hframe,
      Frame.standsFor_standInFrame sps fill planes sideData⟩

/-- **The frame of a stand-in** is a new one, and shows what a stand-in is to show. -/
theorem frame?_addCandidate (he : d.addCandidate layer c = (.ok (), d'))
    (hs : d.slot? ⟨layer, index⟩ = some free) (hfree : free.isFree = true)
    (hs' : d'.slot? ⟨layer, index⟩ = some new) (hf : new.frame = some x) :
    ∃ sps frame, d.sps? layer = some sps ∧ d.store.cells.size ≤ x ∧ x < d'.store.cells.size ∧
      d'.store.frame? x = some frame ∧ frame.StandsFor sps (!d.config.accelerated) := by
  have hnone : free.frame ≠ some x := by
    rw [Slot.isFree, Option.isNone_iff_eq_none] at hfree
    rw [hfree]
    exact fun h => by cases h
  -- The frame is not the one of a picture that was in the slot before.
  have entered : ∀ {mid : Decoder} {k : Nat}, d' = mid.enter layer c k →
      ∃ slot, mid.slot? ⟨layer, index⟩ = some slot ∧ slot.frame = some x := by
    rintro mid k rfl
    rw [slot?_enter] at hs'
    split at hs'
    · obtain ⟨slot, hslot, rfl⟩ := Option.map_eq_some_iff.mp hs'
      exact ⟨slot, hslot, (Slot.frame_mark c.marking slot).symm.trans hf⟩
    · exact ⟨new, hs', hf⟩
  obtain ⟨_, _, hcase⟩ | ⟨l, sps, k, hg, hsps, -, ⟨-, -, hcase⟩ | ⟨-, dpb, store, hin, hcase⟩⟩ :=
    d.addCandidate_ways layer c
  · cases he.symm.trans hcase
  · have heq : d' = _ := congrArg Prod.snd (he.symm.trans hcase)
    obtain ⟨slot, hslot, hframe⟩ := entered heq
    obtain rfl := Option.some.inj (hs.symm.trans hslot)
    exact absurd hframe hnone
  · have heq : d' = _ := congrArg Prod.snd (he.symm.trans hcase)
    obtain ⟨slot, hslot, hframe⟩ := entered heq
    let mid : Decoder := { d with layers := d.layers.set layer { l with dpb }, store }
    have hlayers : mid.layers = d.layers.set layer { l with dpb } := rfl
    rw [slot?_set hg hlayers, if_pos rfl] at hslot
    obtain ⟨standIn, y, frame, hstandIn, hy, hothers, hle, hlt, hshown, hfor⟩ :=
      entered_insertStandIn hin
    have hk : index = k := by
      by_contra hne
      have hold : d.slot? ⟨layer, index⟩ = l.dpb.slot? index := slot?_eq hg
      rw [hothers index hne, ← hold, hs] at hslot
      obtain rfl := Option.some.inj hslot
      exact hnone hframe
    subst hk
    obtain rfl := Option.some.inj (hstandIn.symm.trans hslot)
    obtain rfl := Option.some.inj (hframe.symm.trans hy)
    have hshared : d'.store = store := by
      rw [heq, shared_enter]
    rw [hshared]
    exact ⟨sps, frame, by rw [sps?, hg, Option.bind_some, hsps], hle, hlt, hshown, hfor⟩

/-- **A stand-in made since `d₀`**: it is on a new frame, which shows what a stand-in is to show. -/
structure MadeSince (d₀ : Decoder) (layer : Nat) (d : Decoder) (slot : Slot) : Prop where
  placeholder : slot.flags.placeholder = true
  shows : ∃ x sps, slot.frame = some x ∧ d₀.sps? layer = some sps ∧
    d₀.store.cells.size ≤ x ∧ x < d.store.cells.size ∧
    ∀ frame, d.store.frame? x = some frame → frame.StandsFor sps (!d₀.config.accelerated)

theorem MadeSince.of_holding (h : d₀.MadeSince layer d slot) (he : new.holding = slot.holding) :
    d₀.MadeSince layer d new := by
  obtain ⟨x, sps, hf, hrest⟩ := h.shows
  exact ⟨(Slot.placeholder_of_holding he).trans h.placeholder, x, sps,
    (Slot.frame_of_holding he).trans hf, hrest⟩

/-- What a stand-in shows stays as it is, or goes with its frame. -/
theorem MadeSince.later (h : d₀.MadeSince layer d slot) (hs : d.SparesAll d') :
    d₀.MadeSince layer d' slot := by
  obtain ⟨x, sps, hf, hsps, hle, hlt, hframe⟩ := h.shows
  exact ⟨h.placeholder, x, sps, hf, hsps, hle, Nat.lt_of_lt_of_le hlt hs.size_le,
    fun frame hx => hframe frame (hs.frames x hlt frame hx)⟩

/-- A stand-in holds its frame. -/
theorem MadeSince.held (h : d₀.MadeSince layer d slot) : slot.isFree = false := by
  obtain ⟨x, -, hf, -⟩ := h.shows
  rw [Slot.isFree, hf]
  rfl

/-! ## The candidates of a layer -/

/-- **In the middle of a derivation** that began with `d₀`: each slot of the layer holds what it
held, or it was free and holds a stand-in. -/
structure Replacing (d₀ : Decoder) (layer : Nat) (d : Decoder) : Prop where
  deriv : d₀.Deriving d
  spares : d₀.SparesAll d
  slots : ∀ i slot, d.slot? ⟨layer, i⟩ = some slot → ∃ old, d₀.slot? ⟨layer, i⟩ = some old ∧
    (slot.holding = old.holding ∨ old.isFree = true ∧ d₀.MadeSince layer d slot)

theorem Replacing.start (d : Decoder) (layer : Nat) : d.Replacing layer d :=
  ⟨.refl d, .refl d, fun _ slot hs => ⟨slot, hs, Or.inl rfl⟩⟩

/-- One more candidate is entered. -/
theorem Replacing.enters (h : d₀.Replacing layer d) (he : d.addCandidate layer c = (.ok (), d')) :
    d₀.Replacing layer d' := by
  have hspares := d.spares_addCandidate layer c
  rw [he] at hspares
  obtain ⟨_, _, hcase, -⟩ | ⟨sps, index, entered, _, hcase, hent⟩ := d.addCandidate_cases layer c
  · rw [he] at hcase
    cases hcase
  rw [he] at hcase
  cases hcase
  refine ⟨h.deriv.trans hent.deriv, h.spares.trans hspares, fun i slot hs => ?_⟩
  -- What was in a slot before is there still, up to its marking.
  have kept : ∀ {before : Slot}, d.slot? ⟨layer, i⟩ = some before →
      slot.holding = before.holding → ∃ old, d₀.slot? ⟨layer, i⟩ = some old ∧
        (slot.holding = old.holding ∨ old.isFree = true ∧ d₀.MadeSince layer d' slot) := by
    intro before hbefore heq
    obtain ⟨old, hold, hsame | ⟨hfree, hmade⟩⟩ := h.slots i before hbefore
    · exact ⟨old, hold, Or.inl (heq.trans hsame)⟩
    · exact ⟨old, hold, Or.inr ⟨hfree, (hmade.of_holding heq).later hspares⟩⟩
  by_cases hi : (⟨layer, i⟩ : SlotRef) = ⟨layer, index⟩
  · obtain rfl : i = index := congrArg SlotRef.index hi
    obtain rfl := Option.some.inj (hent.marked.symm.trans hs)
    cases hent.source with
    | found hbefore => exact kept hbefore (Slot.holding_mark c.marking entered)
    | @missing free y _ hbefore hfree hslot =>
      have hframe : (entered.mark c.marking).frame = some y := by
        rw [Slot.frame_mark, hslot]
        rfl
      have hstandIn : (entered.mark c.marking).flags.placeholder = true :=
        Slot.placeholder_mark c.marking (by rw [hslot]; rfl)
      obtain ⟨old, hold, hsame | ⟨-, hmade⟩⟩ := h.slots i free hbefore
      · have hfree₀ : old.isFree = true := (Slot.isFree_of_holding hsame).symm.trans hfree
        obtain ⟨sps', shown, hsps, hle, hlt, hshown, hfor⟩ :=
          frame?_addCandidate he hbefore hfree hs hframe
        rw [h.deriv.sps?_eq] at hsps
        rw [h.deriv.config_eq] at hfor
        refine ⟨old, hold, Or.inr ⟨hfree₀, hstandIn, y, sps', hframe, hsps,
          Nat.le_trans h.spares.size_le hle, hlt, fun frame hy => ?_⟩⟩
        obtain rfl := Option.some.inj (hshown.symm.trans hy)
        exact hfor
      · exact absurd hmade.held (by rw [hfree]; exact fun h => by cases h)
  · exact kept ((hent.others _ hi).symm.trans hs) rfl

theorem Replacing.addCandidates (h : d₀.Replacing layer d)
    (he : d.addCandidates layer cs = (.ok (), d')) : d₀.Replacing layer d' := by
  induction cs generalizing d with
  | nil =>
    cases he
    exact h
  | cons c cs ih =>
    rw [Decoder.addCandidates] at he
    rcases hc : d.addCandidate layer c with ⟨_ | _, mid⟩
    · rw [hc] at he
      cases he
    · rw [hc] at he
      exact ih (h.enters hc) he

/-! ## The layer before its candidates -/

/-- A stand-in is gone, and all else is held as it was. -/
theorem holding_clearSets {i : Nat} (hs : (d.clearSets layer).slot? ⟨layer, i⟩ = some slot) :
    ∃ old, d.slot? ⟨layer, i⟩ = some old ∧
      slot.holding = if old.flags.placeholder then (none, old.poc, false) else old.holding := by
  rw [slot?_clearSets, if_pos rfl] at hs
  obtain ⟨old, hold, rfl⟩ := Option.map_eq_some_iff.mp hs
  refine ⟨old, hold, ?_⟩
  dsimp only
  generalize hkept : (if old.flags.placeholder then old.strip .all else old) = kept
  have hmark : (if d.current = some ⟨layer, i⟩ then kept else kept.mark .none).holding =
      kept.holding := by
    split
    · rfl
    · exact Slot.holding_mark .none kept
  rw [hmark, ← hkept]
  split
  · have hall : (old.flags.without .all).isEmpty = true := by
      simp [Flags.isEmpty, Flags.without, Flags.all]
    have hnone : (old.flags.without .all).placeholder = false := by
      simp [Flags.without, Flags.all]
    rw [Slot.holding, Slot.frame_strip, if_pos hall, Slot.poc_strip, Slot.flags_strip, hnone]
  · rfl

/-- No stand-in is left. -/
theorem placeholder_clearSets {i : Nat}
    (hs : (d.clearSets layer).slot? ⟨layer, i⟩ = some slot) : slot.flags.placeholder = false := by
  obtain ⟨old, -, heq⟩ := holding_clearSets hs
  have hp : slot.flags.placeholder = _ := congrArg (·.2.2) heq
  split at hp
  · exact hp
  · rename_i hnot
    exact hp.trans (Bool.eq_false_iff.mpr hnot)

/-! ## The layer after its candidates -/

section Added

variable {d₁ : Decoder} {i j : Nat}
  (hadd : (d.clearSets layer).addCandidates layer cs = (.ok (), d₁))

include hadd

theorem replacing_addCandidates : (d.clearSets layer).Replacing layer d₁ :=
  (Replacing.start (d.clearSets layer) layer).addCandidates hadd

/-- **A stand-in has taken a free slot.** -/
theorem madeSince_of_placeholder (hs : d₁.slot? ⟨layer, i⟩ = some slot)
    (hp : slot.flags.placeholder = true) :
    (d.clearSets layer).MadeSince layer d₁ slot ∧
      ∃ old, (d.clearSets layer).slot? ⟨layer, i⟩ = some old ∧ old.isFree = true := by
  obtain ⟨old, hold, hsame | ⟨hfree, hmade⟩⟩ := (replacing_addCandidates hadd).slots i slot hs
  · have hnone := placeholder_clearSets hold
    rw [← Slot.placeholder_of_holding hsame, hp] at hnone
    cases hnone
  · exact ⟨hmade, old, hold, hfree⟩

/-- A picture that was missing is a stand-in. -/
theorem placeholder_of_missing (hs : d₁.slot? ⟨layer, i⟩ = some slot) (held : slot.isFree = false)
    (hmissing : ¬(d.clearSets layer).Holds layer slot.poc) : slot.flags.placeholder = true := by
  obtain ⟨old, hold, hsame | ⟨-, hmade⟩⟩ := (replacing_addCandidates hadd).slots i slot hs
  · exact absurd ⟨i, old, hold, (Slot.isFree_of_holding hsame).symm.trans held,
      (Slot.poc_of_holding hsame).symm⟩ hmissing
  · exact hmade.placeholder

variable (hfull : ∀ c ∈ cs, c.fullPoc = true)

include hfull

/-- **Nobody else has the order count of a stand-in**, if the candidates give theirs in full: two
pictures of one order count would have been there before. -/
theorem eq_of_placeholder (ha : d₁.slot? ⟨layer, i⟩ = some a) (hb : d₁.slot? ⟨layer, j⟩ = some b)
    (hp : a.flags.placeholder = true) (held : b.isFree = false) (hpoc : a.poc = b.poc) :
    i = j := by
  obtain ⟨hmade, old, hold, hfree⟩ := madeSince_of_placeholder hadd ha hp
  by_contra hij
  have htwins : ((d.clearSets layer).addCandidates layer cs).2.Twins layer i j := by
    rw [hadd]
    exact ⟨a, b, ha, hb, hmade.held, held, hpoc⟩
  rcases twins_of_addCandidates hij htwins with
    ⟨before, _, hbefore, -, hheld, -⟩ | ⟨-, done, c, rest, _, _, _, -, rfl, -, -, hd⟩
  · obtain rfl := Option.some.inj (hold.symm.trans hbefore)
    rw [hfree] at hheld
    cases hheld
  · have hlow := hd.lowBits
    rw [hfull c (by simp)] at hlow
    cases hlow

/-- **What a stand-in stands in for was missing.** -/
theorem not_holds_of_placeholder (hs : d₁.slot? ⟨layer, i⟩ = some slot)
    (hp : slot.flags.placeholder = true) : ¬(d.clearSets layer).Holds layer slot.poc := by
  rintro ⟨j, picture, hpicture, held, hpoc⟩
  have hkeeps := (d.clearSets layer).keeps_addCandidates layer cs
  rw [hadd] at hkeeps
  obtain ⟨now, hnow, hheld, hsame, -⟩ := hkeeps _ picture hpicture held
  obtain rfl := eq_of_placeholder hadd hfull hs hnow hp hheld (hpoc.symm.trans hsame.symm)
  obtain ⟨-, old, hold, hfree⟩ := madeSince_of_placeholder hadd hs hp
  obtain rfl := Option.some.inj (hold.symm.trans hpicture)
  rw [held] at hfree
  cases hfree

end Added

/-! ## The stand-ins of a derivation -/

/-- The slot holds a stand-in for the picture with order count `poc`. -/
def StandsAt (d : Decoder) (ref : SlotRef) (poc : Int) : Prop :=
  ∃ slot, d.slot? ref = some slot ∧ slot.flags.placeholder = true ∧ slot.poc = poc

/-- **The stand-ins that a derivation leaves in its layer**: one for each order count that was
missing, and no other. -/
structure StandIns (d : Decoder) (layer : Nat) (hdr : SliceHeader) (d' : Decoder) : Prop where
  named : ∀ i poc, d'.StandsAt ⟨layer, i⟩ poc → poc ∈ d.missing layer hdr
  each : ∀ poc ∈ d.missing layer hdr, ∃! i, d'.StandsAt ⟨layer, i⟩ poc
  /-- All candidates with its order count have their entries on it. -/
  shared : d'.sets.Covers (fun c entry => c.poc ∈ d.missing layer hdr →
    entry.slot.layer = layer ∧ d'.StandsAt entry.slot c.poc) (hdr.candidates d.poc)
  state : ∀ i slot, d'.slot? ⟨layer, i⟩ = some slot → slot.flags.placeholder = true →
    ∃ sps, d.sps? layer = some sps ∧ slot.StandsIn d'.store sps (!d.config.accelerated)
  /-- The stand-ins of the derivation before have given up their frames. -/
  replaced : ∀ i slot x, d.slot? ⟨layer, i⟩ = some slot → slot.flags.placeholder = true →
    slot.frame = some x → ∀ j, d'.frameAt? ⟨layer, j⟩ ≠ some x

/-- Without inter-layer prediction, a derivation that succeeds has entered the candidates of the
layer, and then sweeps it. -/
theorem deriveSets_of_ok (hinter : hdr.interLayer = false)
    (hok : (d.deriveSets layer hdr).1 = .ok ()) :
    ∃ d₁, (d.clearSets layer).addCandidates layer (hdr.candidates d.poc) = (.ok (), d₁) ∧
      (d.deriveSets layer hdr).2 = d₁.onDpb layer Dpb.sweep := by
  cases hg : d.layers.get? layer with
  | none =>
    rw [deriveSets_of_invalid hg] at hok
    cases hok
  | some l =>
    rw [deriveSets_fst hg hinter] at hok
    rcases hadd : (d.clearSets layer).addCandidates layer (hdr.candidates d.poc) with ⟨_ | _, d₁⟩
    · rw [hadd] at hok
      cases hok
    · refine ⟨d₁, rfl, ?_⟩
      rw [deriveSets_eq hg, addHeader, (d.deriving_clearSets layer).poc_eq, hadd]
      dsimp only
      rw [hinter, if_neg Bool.false_ne_true]

/-- A slot that holds a picture after the sweep is as it was. -/
theorem slot?_of_sweep {i : Nat} (hs : (d.onDpb layer Dpb.sweep).slot? ⟨layer, i⟩ = some slot)
    (held : slot.isFree = false) : d.slot? ⟨layer, i⟩ = some slot := by
  rw [slot?_sweep, if_pos rfl] at hs
  obtain ⟨old, hold, rfl⟩ := Option.map_eq_some_iff.mp hs
  rw [Slot.strip_empty_of_held held]
  exact hold

/-- So is one that holds a stand-in. -/
theorem slot?_of_placeholder {i : Nat} (hsound : (d.onDpb layer Dpb.sweep).Sound)
    (hs : (d.onDpb layer Dpb.sweep).slot? ⟨layer, i⟩ = some slot)
    (hp : slot.flags.placeholder = true) :
    slot.isFree = false ∧ d.slot? ⟨layer, i⟩ = some slot := by
  have hheld := (Slot.sound_iff.mp (hsound _ slot hs)).1.held_of_inUse
    (Slot.inUse_of_placeholder hp)
  exact ⟨hheld, slot?_of_sweep hs hheld⟩

/-- The entries of the candidates name the layer and, if it was given in full, the order count. -/
theorem covers_addCandidates {d₁ : Decoder}
    (hadd : (d.clearSets layer).addCandidates layer cs = (.ok (), d₁)) :
    d₁.sets.Covers (fun c entry => entry.slot.layer = layer ∧
      (c.fullPoc = true → entry.poc = c.poc)) cs := by
  have hcovers := (@addCandidates_covers (d.clearSets layer) layer
    (fun c entry => entry.slot.layer = layer ∧ (c.fullPoc = true → entry.poc = c.poc)) cs rfl
    (fun _ hent => ⟨rfl, fun hfull => poc_of_full hent hfull⟩) (by rw [hadd])).1
  rwa [hadd] at hcovers

section Swept

variable {d₁ : Decoder} {i : Nat} {poc : Int} {others : List FrameId}
  (hadd : (d.clearSets layer).addCandidates layer (hdr.candidates d.poc) = (.ok (), d₁))

include hadd

/-- **A missing picture is served by its stand-in.** -/
theorem standsAt_of_serves (hserves : (d₁.onDpb layer Dpb.sweep).Serves ⟨layer, i⟩ poc)
    (hmissing : poc ∈ d.missing layer hdr) :
    (d₁.onDpb layer Dpb.sweep).StandsAt ⟨layer, i⟩ poc := by
  obtain ⟨slot, hs, hserves⟩ := hserves
  obtain rfl := hserves.poc_eq
  have hmid := slot?_of_sweep hs hserves.held
  exact ⟨slot, hs, placeholder_of_missing hadd hmid hserves.held (mem_missing.mp hmissing).2, rfl⟩

/-- The frames of the stand-ins before are nowhere in the layer: no other slot had them, and new
stand-ins have new frames. -/
theorem frameAt?_ne_of_replaced (ha : d.Accounted others) (hsep : d.Separate)
    (hs : d.slot? ⟨layer, i⟩ = some slot) (hp : slot.flags.placeholder = true)
    (hf : slot.frame = some x) (j : Nat) :
    (d₁.onDpb layer Dpb.sweep).frameAt? ⟨layer, j⟩ ≠ some x := by
  intro hx
  have hxi : d.frameAt? ⟨layer, i⟩ = some x := frameAt?_eq_some_iff.mpr ⟨slot, hs, hf⟩
  obtain ⟨new, hnew, hfnew⟩ := frameAt?_eq_some_iff.mp hx
  have hheld : new.isFree = false := by
    rw [Slot.isFree, hfnew]
    rfl
  obtain ⟨old, hold, hsame | ⟨-, hmade⟩⟩ :=
    (replacing_addCandidates hadd).slots j new (slot?_of_sweep hnew hheld)
  · obtain ⟨before, hbefore, hcleared⟩ := holding_clearSets hold
    rw [← hsame] at hcleared
    cases hplaceholder : before.flags.placeholder with
    | true =>
      rw [hplaceholder, if_pos rfl] at hcleared
      cases hfnew.symm.trans (congrArg Prod.fst hcleared)
    | false =>
      rw [hplaceholder, if_neg Bool.false_ne_true] at hcleared
      have hframe : before.frame = some x := (Slot.frame_of_holding hcleared).symm.trans hfnew
      have hxj : d.frameAt? ⟨layer, j⟩ = some x :=
        frameAt?_eq_some_iff.mpr ⟨before, hbefore, hframe⟩
      rw [hsep _ _ x hxj hxi] at hbefore
      obtain rfl := Option.some.inj (hs.symm.trans hbefore)
      rw [hp] at hplaceholder
      cases hplaceholder
  · obtain ⟨y, -, hy, -, hle, -⟩ := hmade.shows
    obtain rfl : x = y := Option.some.inj (hfnew.symm.trans hy)
    have hnew := Nat.le_trans (d.spares_clearSets layer).size_le hle
    exact absurd (ha.lt_of_frameAt? hxi) (Nat.not_lt.mpr hnew)

variable (hfull : hdr.longTerm.AllFull)

include hfull

/-- A stand-in stands in for a candidate that was missing. -/
theorem mem_missing_of_placeholder (hs : d₁.slot? ⟨layer, i⟩ = some slot)
    (hp : slot.flags.placeholder = true) : slot.poc ∈ d.missing layer hdr := by
  have hall : ∀ c ∈ hdr.candidates d.poc, c.fullPoc = true := fun c => fullPoc_of_mem hfull
  obtain ⟨_, hfilling⟩ := filling_addCandidates hall (congrArg Prod.fst hadd)
  rw [hadd] at hfilling
  have hmissing := not_holds_of_placeholder hadd hall hs hp
  have hholds : d₁.Holds layer slot.poc :=
    ⟨i, slot, hs, (madeSince_of_placeholder hadd hs hp).1.held, rfl⟩
  exact mem_missing.mpr ⟨((hfilling.holds slot.poc).mp hholds).resolve_left hmissing, hmissing⟩

/-- **The candidates of missing pictures have their entries on stand-ins**, which serve. -/
theorem covers_standIns (hserves : (d₁.onDpb layer Dpb.sweep).ServesSets) :
    (d₁.onDpb layer Dpb.sweep).sets.Covers (fun c entry => c.poc ∈ d.missing layer hdr →
      entry.slot.layer = layer ∧ (d₁.onDpb layer Dpb.sweep).StandsAt entry.slot c.poc ∧
        (d₁.onDpb layer Dpb.sweep).Serves entry.slot c.poc) (hdr.candidates d.poc) := by
  have hcovers := covers_addCandidates hadd
  rw [← sets_onDpb d₁ layer Dpb.sweep] at hcovers
  refine hcovers.imp fun {subset c entry} hc hentry ⟨hl, hpoc⟩ hmissing => ?_
  have hserved := hserves subset entry hentry
  rw [hpoc (fullPoc_of_mem hfull hc)] at hserved
  obtain ⟨poc, ⟨n, i⟩, longTerm⟩ := entry
  obtain rfl : n = layer := hl
  exact ⟨rfl, standsAt_of_serves hadd hserved hmissing, hserved⟩

/-- Each missing picture has a stand-in, and it is served by it. -/
theorem exists_standsAt (hserves : (d₁.onDpb layer Dpb.sweep).ServesSets)
    (hmissing : poc ∈ d.missing layer hdr) :
    ∃ i, (d₁.onDpb layer Dpb.sweep).StandsAt ⟨layer, i⟩ poc ∧
      (d₁.onDpb layer Dpb.sweep).Serves ⟨layer, i⟩ poc := by
  obtain ⟨⟨c, hc, rfl⟩, -⟩ := mem_missing.mp hmissing
  obtain ⟨⟨_, ⟨n, i⟩, _⟩, -, hentry⟩ := (covers_standIns hadd hfull hserves).exists_entry hc
  obtain ⟨hn, hstands, hserved⟩ := hentry hmissing
  obtain rfl : n = layer := hn
  exact ⟨i, hstands, hserved⟩

/-! ### What is left after the sweep -/

variable (hsound : (d₁.onDpb layer Dpb.sweep).Sound)

include hsound

theorem standsAt_unique {j : Nat} (hi : (d₁.onDpb layer Dpb.sweep).StandsAt ⟨layer, i⟩ poc)
    (hj : (d₁.onDpb layer Dpb.sweep).StandsAt ⟨layer, j⟩ poc) : i = j := by
  obtain ⟨a, hsa, hpa, rfl⟩ := hi
  obtain ⟨b, hsb, hpb, hpoc⟩ := hj
  obtain ⟨-, ha⟩ := slot?_of_placeholder hsound hsa hpa
  obtain ⟨held, hb⟩ := slot?_of_placeholder hsound hsb hpb
  exact eq_of_placeholder hadd (fun c => fullPoc_of_mem hfull) ha hb hpa held hpoc.symm

/-- **A stand-in is as it is to be.** It serves the candidates that it was made for, and shows what
it showed when it was made. -/
theorem standsIn_of_placeholder (ha : (d₁.onDpb layer Dpb.sweep).Accounted others)
    (hserves : (d₁.onDpb layer Dpb.sweep).ServesSets)
    (hs : (d₁.onDpb layer Dpb.sweep).slot? ⟨layer, i⟩ = some slot)
    (hp : slot.flags.placeholder = true) : ∃ sps, d.sps? layer = some sps ∧
      slot.StandsIn (d₁.onDpb layer Dpb.sweep).store sps (!d.config.accelerated) := by
  obtain ⟨-, hmid⟩ := slot?_of_placeholder hsound hs hp
  obtain ⟨x, sps, hf, hsps, -, hlt, hshown⟩ := (madeSince_of_placeholder hadd hmid hp).1.shows
  have hderiv := d.deriving_clearSets layer
  rw [hderiv.sps?_eq] at hsps
  rw [hderiv.config_eq] at hshown
  obtain ⟨frame, hframe⟩ := ha.frame? hs hf
  have hold := (d₁.spares_stripWhere layer (fun _ => true) .empty).frames x hlt frame hframe
  obtain ⟨k, hstands, served, hserved, hserves⟩ := exists_standsAt hadd hfull hserves
    (mem_missing_of_placeholder hadd hfull hmid hp)
  obtain rfl := standsAt_unique hadd hfull hsound ⟨slot, hs, hp, rfl⟩ hstands
  obtain rfl := Option.some.inj (hs.symm.trans hserved)
  exact ⟨sps, hsps, hserves.marked, ((hsound _ slot hs).standIn hp).1, x, frame, hf, hframe,
    hshown frame hold⟩

end Swept

/-- **A derivation that succeeds leaves one stand-in for each missing picture**, if the order counts
of its candidates are given in full. -/
theorem standIns_deriveSets {others : List FrameId} (hsound : d.Sound) (ha : d.Accounted others)
    (hsep : d.Separate) (hinter : hdr.interLayer = false) (hfull : hdr.longTerm.AllFull)
    (hok : (d.deriveSets layer hdr).1 = .ok ()) :
    d.StandIns layer hdr (d.deriveSets layer hdr).2 := by
  have hsound' := sound_deriveSets hsound layer hdr ha
  have ha' := (d.steady_deriveSets layer hdr).accounted others ha
  have hserves : (d.deriveSets layer hdr).2.ServesSets := by
    cases hg : d.layers.get? layer with
    | none =>
      rw [deriveSets_of_invalid hg] at hok
      cases hok
    | some l => exact servesSets_deriveSets hg hdr
  obtain ⟨d₁, hadd, heq⟩ := deriveSets_of_ok hinter hok
  rw [heq] at hsound' ha' hserves ⊢
  constructor
  · rintro i _ ⟨slot, hs, hp, rfl⟩
    exact mem_missing_of_placeholder hadd hfull (slot?_of_placeholder hsound' hs hp).2 hp
  · intro poc hpoc
    obtain ⟨i, hstands, -⟩ := exists_standsAt hadd hfull hserves hpoc
    exact ⟨i, hstands, fun j hj => standsAt_unique hadd hfull hsound' hj hstands⟩
  · exact (covers_standIns hadd hfull hserves).imp fun _ _ hentry hmissing =>
      ⟨(hentry hmissing).1, (hentry hmissing).2.1⟩
  · exact fun i slot hs hp => standsIn_of_placeholder hadd hfull hsound' ha' hserves hs hp
  · exact fun i slot x hs hp hf j => frameAt?_ne_of_replaced hadd ha hsep hs hp hf j

end Decoder

/-! ## Sessions -/

namespace Session

variable {config : Config} {provider : Provider} {log : List Moment} {s : Session} {i : Nat}
  {d : Decoder}

/-- **The stand-ins of a derivation**, in every state of every run. If it succeeds, with order
counts given in full and without inter-layer prediction, then the layer has one stand-in for each
order count among the candidates of which it held no picture, and no others. All candidates of this
order count share it. It is marked for reference, produced and not for output, and neutral unless
the decoding is accelerated. The frames of the stand-ins before are no longer held. -/
theorem deriveSets_standIns (run : Run config provider log s) (hd : s.decoder? i = some d)
    {layer : Nat} {hdr : SliceHeader} (hinter : hdr.interLayer = false)
    (hfull : hdr.longTerm.AllFull) (hok : (d.deriveSets layer hdr).1 = .ok ()) :
    d.StandIns layer hdr (d.deriveSets layer hdr).2 :=
  Decoder.standIns_deriveSets (sound_run run i d hd) ((accounted_iff hd).mp (accounted_run run))
    (separate_of_run run i d hd) hinter hfull hok

/-- After a picture with a stand-in of order count `9`, the next one is begun. -/
def standInBefore : List Event := missingReference ++
  [.run 0 .finishPicture,
    .run 0 (.startPicture 0 { poc := 12, output := true, numSlices := 1, pps := {} })]

/-- The picture refers to order count `10`, which is there, and three times to `11`. -/
def thriceMissing : SliceHeader where
  shortTerm := some { deltas := [-1, -2, -1], used := [true, true], numNegative := 3 }
  longTerm := { pocs := [11], used := [true], fullPoc := [true] }

/-- One stand-in for three candidates, in place of that of another picture. -/
theorem thriceMissing_standIns : ∃ log d,
    Run {} {} log ((start {} {}).afterAll standInBefore) ∧
    ((start {} {}).afterAll standInBefore).decoder? 0 = some d ∧ d.StandsAt ⟨0, 1⟩ 9 ∧
    (d.deriveSets 0 thriceMissing).1 = .ok () ∧ d.missing 0 thriceMissing = {11} ∧
    d.StandIns 0 thriceMissing (d.deriveSets 0 thriceMissing).2 := by
  have run := run_all standInBefore (@Run.start {} {})
  obtain ⟨d, hd⟩ : ∃ d, ((start {} {}).afterAll standInBefore).decoder? 0 = some d := ⟨_, rfl⟩
  have hbefore : d.StandsAt ⟨0, 1⟩ 9 := by
    cases hd
    exact ⟨_, rfl, rfl, rfl⟩
  have hok : (d.deriveSets 0 thriceMissing).1 = .ok () := by
    cases hd
    rfl
  have hmissing : d.missing 0 thriceMissing = {11} := by
    cases hd
    decide +kernel
  have hfull : thriceMissing.longTerm.AllFull := by
    intro i hi
    obtain rfl : i = 0 := Nat.lt_one_iff.mp hi
    rfl
  exact ⟨_, d, run, hd, hbefore, hok, hmissing, deriveSets_standIns run hd rfl hfull hok⟩

end Session

end PictureBuffer
