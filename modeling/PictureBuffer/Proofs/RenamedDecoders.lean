import PictureBuffer.Session
import PictureBuffer.Proofs.Renaming
import PictureBuffer.Proofs.Victims

/-!
# Decoders under other names

Two decoders that differ in the names of their frames (`Decoder.Renamed`), and perhaps in the NAL
unit type of their pictures, which no operation reads, carry out every command alike: they give the
same answer, under the other names, and differ in nothing else afterwards (`Decoder.Renamed.run`).

Each operation has one lemma that says so, named after it.
-/

namespace PictureBuffer

variable {ρ : FrameId → FrameId}

/-! ## The state of a decoder -/

def Layer.rename (ρ : FrameId → FrameId) (layer : Layer) : Layer :=
  { layer with dpb := layer.dpb.rename ρ }

namespace Layers

def rename (ρ : FrameId → FrameId) (layers : Layers) : Layers :=
  ⟨layers.base.rename ρ, layers.enhancement.rename ρ⟩

theorem get?_rename (layers : Layers) (n : Nat) :
    (layers.rename ρ).get? n = (layers.get? n).map (·.rename ρ) := by
  rcases n with _ | _ | n <;> rfl

theorem set_rename (layers : Layers) (n : Nat) (layer : Layer) :
    (layers.rename ρ).set n (layer.rename ρ) = (layers.set n layer).rename ρ := by
  rcases n with _ | _ | n <;> rfl

theorem frames_rename (layers : Layers) :
    (layers.rename ρ).frames = layers.frames.map ρ := by
  rw [frames, frames, List.map_append, ← Dpb.frames_rename, ← Dpb.frames_rename]
  rfl

end Layers

/-- The state of a decoder with its frames under other names, and pictures of NAL unit type
`nalu`. -/
def Context.rename (ρ : FrameId → FrameId) (nalu : NaluType) (context : Context) : Context :=
  { context with layers := context.layers.rename ρ, nalu }

/-- **The state of a decoder, under other names.** The NAL unit type may be any. -/
inductive Context.Renamed (ρ : FrameId → FrameId) (context : Context) : Context → Prop
  | intro (nalu : NaluType) : Renamed ρ context (context.rename ρ nalu)

def Bump.rename (ρ : FrameId → FrameId) : Bump → Bump
  | waiting frame => waiting (ρ frame)
  | bump => bump

def PassEnd.rename (ρ : FrameId → FrameId) : PassEnd → PassEnd
  | waiting frame => waiting (ρ frame)
  | passEnd => passEnd

def Reply.rename (ρ : FrameId → FrameId) : Reply → Reply
  | ended r => ended (r.map (·.rename ρ))
  | pictures taken => pictures (taken.map (·.rename ρ))
  | reply => reply

namespace Decoder

/-- **A decoder under other names.** -/
structure Renamed (ρ : FrameId → FrameId) (d d' : Decoder) : Prop where
  context : d.toContext.Renamed ρ d'.toContext
  shared : d.toShared.Renamed ρ d'.toShared

namespace Renamed

variable {d d' : Decoder} {ref : SlotRef} {slot : Slot}

theorem eq (h : d.Renamed ρ d') : ∃ nalu shared,
    d' = ⟨d.toContext.rename ρ nalu, shared⟩ ∧ d.toShared.Renamed ρ shared := by
  obtain ⟨context, shared⟩ := d'
  obtain ⟨⟨nalu⟩, hs⟩ := h
  exact ⟨nalu, shared, rfl, hs⟩

theorem store (h : d.Renamed ρ d') : d.store.Renamed ρ d'.store := h.shared.store

/-- The state of the decoder changes, without regard to names. -/
theorem onContext (h : d.Renamed ρ d') {f : Context → Context}
    (hf : ∀ c nalu, (f c).Renamed ρ (f (c.rename ρ nalu))) :
    Renamed ρ { d with toContext := f d.toContext } { d' with toContext := f d'.toContext } := by
  obtain ⟨nalu, shared, rfl, hs⟩ := h.eq
  exact ⟨hf _ nalu, hs⟩

/-- What is shared goes on. -/
theorem onShared (h : d.Renamed ρ d') {sh sh' : Shared} (hs : sh.Renamed ρ sh') :
    Renamed ρ { d with toShared := sh } { d' with toShared := sh' } := ⟨h.context, hs⟩

/-- One layer changes, and the store goes on. -/
theorem put (h : d.Renamed ρ d') (n : Nat) (layer : Layer) {store store' : Store}
    (hs : store.Renamed ρ store') : Renamed ρ
      { d with layers := d.layers.set n layer, store }
      { d' with layers := d'.layers.set n (layer.rename ρ), store := store' } := by
  obtain ⟨nalu, shared, rfl, hsh⟩ := h.eq
  obtain ⟨hsh⟩ := hsh
  have hset : (d.layers.rename ρ).set n (layer.rename ρ) = (d.layers.set n layer).rename ρ :=
    d.layers.set_rename n layer
  refine ⟨?_, Shared.Renamed.withStore hs d.scheduler d.queue⟩
  dsimp only [Context.rename]
  rw [hset]
  exact .intro nalu

/-! ### Reading -/

theorem layer? (h : d.Renamed ρ d') (n : Nat) :
    d'.layer? n = (d.layer? n).map (·.rename ρ) := by
  obtain ⟨nalu, shared, rfl, -⟩ := h.eq
  exact d.layers.get?_rename n

theorem slot? (h : d.Renamed ρ d') (ref : SlotRef) :
    d'.slot? ref = (d.slot? ref).map (·.rename ρ) := by
  unfold Decoder.slot?
  rw [h.layer?]
  cases d.layer? ref.layer with
  | none => rfl
  | some layer => exact layer.dpb.slot?_rename ρ ref.index

theorem frameAt? (h : d.Renamed ρ d') (ref : SlotRef) :
    d'.frameAt? ref = (d.frameAt? ref).map ρ := by
  unfold Decoder.frameAt?
  rw [h.slot?]
  cases d.slot? ref <;> rfl

theorem activeLayer (h : d.Renamed ρ d') (n : Nat) :
    d'.activeLayer n = (d.activeLayer n).map fun p => (p.1.rename ρ, p.2) := by
  unfold Decoder.activeLayer
  rw [h.layer?]
  cases d.layer? n with
  | none => rfl
  | some layer =>
    have hsps : (layer.rename ρ).sps = layer.sps := rfl
    dsimp only [Option.map_some]
    rw [hsps]
    cases layer.sps <;> rfl

/-- What a decoder knows apart from its pictures. -/
theorem reads (h : d.Renamed ρ d') {α : Type} (f : Context → α)
    (hf : ∀ context nalu, f (context.rename ρ nalu) = f context) :
    f d'.toContext = f d.toContext := by
  obtain ⟨nalu, shared, rfl, -⟩ := h.eq
  exact hf d.toContext nalu

theorem describe (h : d.Renamed ρ d') : d'.describe = d.describe := by
  obtain ⟨nalu, shared, rfl, -⟩ := h.eq
  rfl

theorem newPicture (h : d.Renamed ρ d') : d'.newPicture = d.newPicture := by
  obtain ⟨nalu, shared, rfl, -⟩ := h.eq
  rfl

/-! ### Changing one part -/

theorem modifyLayer (h : d.Renamed ρ d') (n : Nat) {f f' : Layer → Layer}
    (hf : ∀ layer, f' (layer.rename ρ) = (f layer).rename ρ) :
    (d.modifyLayer n f).Renamed ρ (d'.modifyLayer n f') := by
  unfold Decoder.modifyLayer
  rw [h.layer?]
  cases d.layer? n with
  | none => exact h
  | some layer =>
    dsimp only [Option.map_some]
    rw [hf]
    exact h.put n (f layer) h.store

theorem modifyDpb (h : d.Renamed ρ d') (n : Nat) {f f' : Dpb → Dpb}
    (hf : ∀ dpb, f' (dpb.rename ρ) = (f dpb).rename ρ) :
    (d.modifyDpb n f).Renamed ρ (d'.modifyDpb n f') := by
  refine h.modifyLayer n fun layer => ?_
  have hdpb : f' (layer.rename ρ).dpb = (f layer.dpb).rename ρ := hf layer.dpb
  rw [hdpb]
  rfl

theorem modifySlot (h : d.Renamed ρ d') (ref : SlotRef) {f f' : Slot → Slot}
    (hf : ∀ slot, f' (slot.rename ρ) = (f slot).rename ρ) :
    (d.modifySlot ref f).Renamed ρ (d'.modifySlot ref f') :=
  h.modifyDpb ref.layer fun dpb => dpb.modify_rename ρ hf ref.index

theorem onDpb (h : d.Renamed ρ d') (n : Nat) {f : Dpb → Store → Dpb × Store}
    (hf : ∀ (dpb : Dpb) {store store'}, store.Renamed ρ store' →
      Dpb.Renamed ρ (f dpb store) (f (dpb.rename ρ) store')) :
    (d.onDpb n f).Renamed ρ (d'.onDpb n f) := by
  unfold Decoder.onDpb
  rw [h.layer?]
  cases d.layer? n with
  | none => exact h
  | some layer =>
    obtain ⟨hdpb, hs⟩ := hf layer.dpb h.store
    have hdpb : (f (layer.rename ρ).dpb d'.store).1 = (f layer.dpb d.store).1.rename ρ := hdpb
    dsimp only [Option.map_some]
    rw [hdpb]
    exact h.put n { layer with dpb := (f layer.dpb d.store).1 } hs

/-- Flags are taken off many slots of a layer. -/
theorem stripWhere (h : d.Renamed ρ d') (n : Nat) {p : Slot → Bool}
    (hp : ∀ slot, p (slot.rename ρ) = p slot) (mask : Flags) :
    (d.onDpb n fun dpb store => dpb.stripWhere store p mask).Renamed ρ
      (d'.onDpb n fun dpb store => dpb.stripWhere store p mask) :=
  h.onDpb n fun dpb _ _ hs => dpb.stripWhere_rename hs hp mask

theorem stripOutput (h : d.Renamed ρ d') (ref : SlotRef) :
    (d.stripOutput ref).Renamed ρ (d'.stripOutput ref) :=
  h.onDpb ref.layer fun dpb _ _ hs => dpb.strip_rename hs ref.index .waiting

theorem updateFrame (h : d.Renamed ρ d') (ref : SlotRef) (f : Frame → Frame) :
    (d.updateFrame ref f).Renamed ρ (d'.updateFrame ref f) := by
  unfold Decoder.updateFrame
  rw [h.frameAt?]
  cases d.frameAt? ref with
  | none => exact h
  | some frame =>
    obtain ⟨nalu, shared, rfl, hs⟩ := h.eq
    obtain ⟨hs⟩ := hs
    exact ⟨.intro nalu, Shared.Renamed.withStore (hs.update frame f) d.scheduler d.queue⟩

/-! ### Parameters and pictures -/

theorem setSps (h : d.Renamed ρ d') (layer : Nat) (sps : Sps) :
    Matches id (Renamed ρ) (d.setSps layer sps) (d'.setSps layer sps) := by
  unfold Decoder.setSps
  rw [h.layer?]
  cases d.layer? layer with
  | none => exact .of_rel h
  | some _ => exact .of_rel (h.modifyLayer layer fun _ => rfl)

theorem turnTo (h : d.Renamed ρ d') (info : PictureInfo) :
    (d.turnTo info).Renamed ρ (d'.turnTo info) :=
  h.onContext (f := fun c => { c with poc := info.poc, nalu := info.nalu, pps := some info.pps,
                                       numSlices := info.numSlices }) fun _ _ => .intro info.nalu

theorem startPicture (h : d.Renamed ρ d') (layer : Nat) (info : PictureInfo) :
    Matches id (Renamed ρ) (d.startPicture layer info) (d'.startPicture layer info) := by
  unfold Decoder.startPicture
  rw [h.activeLayer]
  cases d.activeLayer layer with
  | error fault => exact .of_rel h
  | ok p =>
    obtain ⟨l, sps⟩ := p
    have hholds : (l.rename ρ).dpb.holds info.poc = l.dpb.holds info.poc :=
      l.dpb.holds_rename ρ info.poc
    dsimp only [Except.map]
    rw [hholds]
    split
    · exact .of_rel h
    · have ht := h.turnTo info
      obtain ⟨result, ⟨dpb, store⟩, ⟨dpb', store'⟩, he, he', hdpb, hs⟩ :=
        l.dpb.insert_rename ht.store sps ((d.turnTo info).newPicture layer sps info)
      obtain rfl : dpb' = dpb.rename ρ := hdpb
      have he' : (l.rename ρ).dpb.insert (d'.turnTo info).store sps
          ((d'.turnTo info).newPicture layer sps info) = (result, dpb.rename ρ, store') := by
        rw [ht.newPicture]
        exact he'
      rw [he, he']
      cases result with
      | error fault => exact .of_rel (ht.put layer { l with dpb } hs)
      | ok index =>
        have hput := ht.put layer { l with dpb, current := some index } hs
        exact .of_rel (hput.onContext (f := fun c =>
          { c with current := some ⟨layer, index⟩, collocated := none, decoding := true,
                   ownsCurrent := true }) fun _ nalu => .intro nalu)

theorem finishPicture (h : d.Renamed ρ d') : d.finishPicture.Renamed ρ d'.finishPicture := by
  have hcurrent : d'.current = d.current := h.reads (·.current) fun _ _ => rfl
  have howns : d'.ownsCurrent = d.ownsCurrent := h.reads (·.ownsCurrent) fun _ _ => rfl
  have finish : ∀ {a a' : Decoder}, a.Renamed ρ a' →
      Renamed ρ { a with decoding := false } { a' with decoding := false } := fun ha =>
    ha.onContext (f := fun c => { c with decoding := false }) fun _ nalu => .intro nalu
  unfold Decoder.finishPicture
  rw [howns, hcurrent]
  split
  · exact finish (h.updateFrame _ _)
  · exact finish h

theorem abandonPicture (h : d.Renamed ρ d') : d.abandonPicture.Renamed ρ d'.abandonPicture := by
  have hcurrent : d'.current = d.current := h.reads (·.current) fun _ _ => rfl
  have hdecoding : d'.decoding = d.decoding := h.reads (·.decoding) fun _ _ => rfl
  have howns : d'.ownsCurrent = d.ownsCurrent := h.reads (·.ownsCurrent) fun _ _ => rfl
  have abandon : ∀ {a a' : Decoder}, a.Renamed ρ a' →
      Renamed ρ { a with decoding := false, ownsCurrent := false }
        { a' with decoding := false, ownsCurrent := false } := fun ha =>
    ha.onContext (f := fun c => { c with decoding := false, ownsCurrent := false })
      fun _ nalu => .intro nalu
  unfold Decoder.abandonPicture
  rw [hdecoding, howns, hcurrent]
  split
  · exact abandon (h.updateFrame _ _)
  · exact abandon h

theorem unmarkAll (h : d.Renamed ρ d') (layer : Nat) :
    Matches id (Renamed ρ) (d.unmarkAll layer) (d'.unmarkAll layer) := by
  unfold Decoder.unmarkAll
  rw [h.layer?]
  cases d.layer? layer with
  | none => exact .of_rel h
  | some _ => exact .of_rel (h.stripWhere layer (fun _ => rfl) .references)

theorem clear (h : d.Renamed ρ d') : d.clear.Renamed ρ d'.clear := by
  have empty : ∀ {a a' : Decoder} (n : Nat), a.Renamed ρ a' →
      (a.onDpb n Dpb.clear).Renamed ρ (a'.onDpb n Dpb.clear) := fun n ha =>
    ha.stripWhere n (fun _ => rfl) .all
  have leave : ∀ {a a' : Decoder} (n : Nat), a.Renamed ρ a' →
      (a.modifyLayer n ({ · with current := none })).Renamed ρ
        (a'.modifyLayer n ({ · with current := none })) := fun n ha =>
    ha.modifyLayer n fun _ => rfl
  exact (leave 1 (leave 0 (empty 1 (empty 0 h.abandonPicture)))).onContext
    (f := fun c => { c with current := none, collocated := none }) fun _ nalu => .intro nalu

/-! ### Reference picture sets -/

theorem locate (h : d.Renamed ρ d') (layer : Nat) (l : Layer) (sps : Sps) (found : Option Nat)
    (poc : Int) : Matches id (Renamed ρ) (d.locate layer l sps found poc)
      (d'.locate layer (l.rename ρ) sps found poc) := by
  unfold Decoder.locate
  cases found with
  | some index => exact .of_rel h
  | none =>
    have hconfig : d'.config = d.config := h.reads (·.config) fun _ _ => rfl
    obtain ⟨result, ⟨dpb, store⟩, ⟨dpb', store'⟩, he, he', hdpb, hs⟩ :=
      l.dpb.insertStandIn_rename h.store sps (d.describe layer sps poc .standIn)
        (!d.config.accelerated)
    obtain rfl : dpb' = dpb.rename ρ := hdpb
    have he' : (l.rename ρ).dpb.insertStandIn d'.store sps (d'.describe layer sps poc .standIn)
        (!d'.config.accelerated) = (result, dpb.rename ρ, store') := by
      rw [h.describe, hconfig]
      exact he'
    dsimp only
    rw [he, he']
    exact .of_rel (h.put layer { l with dpb } hs)

theorem addCandidate (h : d.Renamed ρ d') (layer : Nat) (c : Candidate) :
    Matches id (Renamed ρ) (d.addCandidate layer c) (d'.addCandidate layer c) := by
  unfold Decoder.addCandidate
  rw [h.activeLayer]
  cases d.activeLayer layer with
  | error fault => exact .of_rel h
  | ok p =>
    obtain ⟨l, sps⟩ := p
    have hcurrent : d'.current = d.current := h.reads (·.current) fun _ _ => rfl
    have hpoc : d'.poc = d.poc := h.reads (·.poc) fun _ _ => rfl
    have hsets : d'.sets = d.sets := h.reads (·.sets) fun _ _ => rfl
    have hfind : ∀ lookup, (l.rename ρ).dpb.find? lookup c.poc = l.dpb.find? lookup c.poc :=
      fun lookup => l.dpb.find?_rename ρ lookup c.poc
    dsimp only [Except.map]
    rw [hcurrent, hpoc, hsets, hfind]
    generalize l.dpb.find? _ _ = found
    split
    · exact .of_rel h
    · obtain ⟨result, d₁, d₁', he, he', h₁⟩ := h.locate layer l sps found c.poc
      rw [he, he']
      cases result with
      | error fault => exact .of_rel h₁
      | ok index =>
        have hslot : ((d₁'.slot? ⟨layer, index⟩).map (·.poc)) =
            (d₁.slot? ⟨layer, index⟩).map (·.poc) := by
          rw [h₁.slot?]
          cases d₁.slot? ⟨layer, index⟩ <;> rfl
        have hmark : (d₁.modifyDpb layer (·.mark index c.marking)).Renamed ρ
            (d₁'.modifyDpb layer (·.mark index c.marking)) :=
          h₁.modifyDpb layer fun dpb => dpb.mark_rename ρ index c.marking
        dsimp only [id]
        rw [hslot]
        exact ⟨.ok (), _, _, rfl, rfl, hmark.onContext (f := fun context => { context with
          sets := context.sets.push c.subset _ }) fun _ nalu => .intro nalu⟩

theorem addCandidates (layer : Nat) (cs : List Candidate) : ∀ {d d' : Decoder}, d.Renamed ρ d' →
    Matches id (Renamed ρ) (d.addCandidates layer cs) (d'.addCandidates layer cs) := by
  induction cs with
  | nil => exact fun h => .of_rel h
  | cons c rest ih =>
    intro d d' h
    obtain ⟨result, d₁, d₁', he, he', h₁⟩ := h.addCandidate layer c
    unfold Decoder.addCandidates
    rw [he, he']
    cases result with
    | error fault => exact .of_rel h₁
    | ok _ => exact ih h₁

theorem addInterLayer (h : d.Renamed ρ d') (layer : Nat) :
    Matches id (Renamed ρ) (d.addInterLayer layer) (d'.addInterLayer layer) := by
  have hbase : d'.layers.base.current.bind d'.layers.base.dpb.slot? =
      (d.layers.base.current.bind d.layers.base.dpb.slot?).map (·.rename ρ) := by
    obtain ⟨nalu, shared, rfl, -⟩ := h.eq
    have hcurrent : (d.toContext.rename ρ nalu).layers.base.current =
      d.layers.base.current := rfl
    dsimp only
    rw [hcurrent]
    cases d.layers.base.current with
    | none => rfl
    | some index => exact d.layers.base.dpb.slot?_rename ρ index
  unfold Decoder.addInterLayer
  rw [hbase]
  split
  · exact .of_rel h
  · cases d.layers.base.current.bind d.layers.base.dpb.slot? with
    | none => exact .of_rel h
    | some slot => exact h.addCandidate 0 ⟨.interLayer0, slot.poc, .shortTerm, true⟩

theorem addHeader (h : d.Renamed ρ d') (layer : Nat) (hdr : SliceHeader) :
    Matches id (Renamed ρ) (d.addHeader layer hdr) (d'.addHeader layer hdr) := by
  have hpoc : d'.poc = d.poc := h.reads (·.poc) fun _ _ => rfl
  obtain ⟨result, d₁, d₁', he, he', h₁⟩ :=
    addCandidates layer (hdr.candidates d.poc) h
  unfold Decoder.addHeader
  rw [hpoc, he, he']
  cases result with
  | error fault => exact .of_rel h₁
  | ok _ =>
    dsimp only [id]
    split
    · exact h₁.addInterLayer layer
    · exact .of_rel h₁

theorem clearSets (h : d.Renamed ρ d') (layer : Nat) :
    (d.clearSets layer).Renamed ρ (d'.clearSets layer) := by
  have hstandIns : (d.onDpb layer Dpb.removeStandIns).Renamed ρ
      (d'.onDpb layer Dpb.removeStandIns) := h.stripWhere layer (fun _ => rfl) .all
  have hcurrent : (d'.onDpb layer Dpb.removeStandIns).current =
    (d.onDpb layer Dpb.removeStandIns).current := hstandIns.reads (·.current) fun _ _ => rfl
  have unmark : ∀ kept,
      ((d.onDpb layer Dpb.removeStandIns).modifyDpb layer (·.unmarkExcept kept)).Renamed ρ
        ((d'.onDpb layer Dpb.removeStandIns).modifyDpb layer (·.unmarkExcept kept)) := fun kept =>
    hstandIns.modifyDpb layer fun dpb => dpb.unmarkExcept_rename ρ kept
  have hsame : (d'.onDpb layer Dpb.removeStandIns).currentIn layer =
      (d.onDpb layer Dpb.removeStandIns).currentIn layer := by
    unfold Decoder.currentIn
    rw [hcurrent]
  unfold Decoder.clearSets
  dsimp only
  rw [hsame]
  exact (unmark _).onContext (f := fun c => { c with sets := {} }) fun _ nalu => .intro nalu

theorem deriveSets (h : d.Renamed ρ d') (layer : Nat) (hdr : SliceHeader) :
    Matches id (Renamed ρ) (d.deriveSets layer hdr) (d'.deriveSets layer hdr) := by
  unfold Decoder.deriveSets
  rw [h.layer?]
  cases d.layer? layer with
  | none => exact .of_rel h
  | some _ =>
    obtain ⟨result, d₁, d₁', he, he', h₁⟩ := (h.clearSets layer).addHeader layer hdr
    dsimp only [Option.map_some]
    rw [he, he']
    exact .of_rel (h₁.stripWhere layer (fun _ => rfl) .empty)

/-! ### Reference lists -/

theorem startSlice (h : d.Renamed ρ d') (hdr : SliceHeader) (slice : Nat) :
    Matches id (Renamed ρ) (d.startSlice hdr slice) (d'.startSlice hdr slice) := by
  have hcurrent : d'.current = d.current := h.reads (·.current) fun _ _ => rfl
  have hpps : d'.pps = d.pps := h.reads (·.pps) fun _ _ => rfl
  have hpicture : d'.currentPicture = d.currentPicture := by
    unfold Decoder.currentPicture
    rw [hcurrent, hpps]
  unfold Decoder.startSlice
  rw [hpicture]
  cases d.currentPicture with
  | error fault => exact .of_rel h
  | ok p =>
    obtain ⟨ref, pps⟩ := p
    dsimp only
    rw [h.slot?]
    cases d.slot? ref with
    | none => exact .of_rel h
    | some slot =>
      dsimp only [Option.map_some]
      rw [slot.selectLists_rename ρ]
      cases slot.selectLists slice (pps.tileScan hdr.address) with
      | error fault => exact .of_rel h
      | ok selected => exact .of_rel (h.modifySlot ref fun _ => rfl)

theorem buildList (h : d.Renamed ρ d') (hdr : SliceHeader) (ref : SlotRef) (secondList : Bool) :
    Matches id (Renamed ρ) (d.buildList hdr ref secondList) (d'.buildList hdr ref secondList) := by
  have hself : d'.selfEntry ref = d.selfEntry ref := by
    obtain ⟨nalu, shared, rfl, -⟩ := h.eq
    rfl
  have hsets : d'.sets = d.sets := h.reads (·.sets) fun _ _ => rfl
  unfold Decoder.buildList
  rw [hself, hsets]
  dsimp only
  split
  · exact .of_rel h
  · rename_i list _
    refine .of_rel ?_
    unfold Decoder.chooseCollocated
    split
    · split
      · rename_i entry _
        exact h.onContext (f := fun c => { c with collocated := some entry.slot })
          fun _ nalu => .intro nalu
      · exact h
    · exact h

theorem buildUsed (h : d.Renamed ρ d') (hdr : SliceHeader) (ref : SlotRef) (both : Bool) :
    Matches id (Renamed ρ) (d.buildUsed hdr ref both) (d'.buildUsed hdr ref both) := by
  obtain ⟨result₀, d₁, d₁', he, he', h₁⟩ := h.buildList hdr ref false
  unfold Decoder.buildUsed
  rw [he, he']
  cases result₀ with
  | error fault => exact .of_rel h₁
  | ok list0 =>
    obtain ⟨result₁, d₂, d₂', he₁, he₁', h₂⟩ := h₁.buildList hdr ref true
    dsimp only [id]
    rw [he₁, he₁']
    split
    · cases result₁ with
      | error fault => exact .of_rel h₂
      | ok list1 => exact .of_rel h₂
    · exact .of_rel h₁

theorem buildLists (h : d.Renamed ρ d') (hdr : SliceHeader) (slice : Nat) :
    Matches id (Renamed ρ) (d.buildLists hdr slice) (d'.buildLists hdr slice) := by
  obtain ⟨result, d₁, d₁', he, he', h₁⟩ := h.startSlice hdr slice
  unfold Decoder.buildLists
  rw [he, he']
  cases result with
  | error fault => exact .of_rel h₁
  | ok _ =>
    have hself : d₁'.selfEntry = d₁.selfEntry := by
      obtain ⟨nalu, shared, rfl, -⟩ := h₁.eq
      rfl
    have hcurrent : d₁'.current = d₁.current := h₁.reads (·.current) fun _ _ => rfl
    have hsets : d₁'.sets = d₁.sets := h₁.reads (·.sets) fun _ _ => rfl
    dsimp only [id]
    rw [hcurrent, hsets, hself]
    cases d₁.current with
    | none => exact .of_rel h₁
    | some ref =>
      dsimp only
      split
      · exact .of_rel h₁
      · split
        · exact .of_rel h₁
        · obtain ⟨lists, d₂, d₂', he₂, he₂', h₂⟩ := h₁.buildUsed hdr ref (hdr.type = .b)
          rw [he₂, he₂']
          cases lists with
          | error fault => exact .of_rel h₂
          | ok lists => exact .of_rel (h₂.modifySlot ref fun _ => rfl)

/-! ### Output -/

theorem redrawn (h : d.Renamed ρ d') : d.Redrawn (fun _ slot => slot.rename ρ) d' := by
  obtain ⟨nalu, shared, rfl, -⟩ := h.eq
  exact ⟨rfl, rfl, fun _ _ => rfl, fun _ _ => rfl, fun _ _ _ => rfl⟩

theorem nextVictim? (h : d.Renamed ρ d') (pass : OutputPass) : d'.nextVictim? pass =
    (d.nextVictim? pass).map fun victim => (victim.1, victim.2.rename ρ) := by
  refine h.redrawn.nextVictim? ?_
  obtain ⟨nalu, shared, rfl, -⟩ := h.eq
  exact overfull_congr (Dpb.numInUse_rename ..) (Dpb.numInUse_rename ..) _ _

theorem emit (h : d.Renamed ρ d') (ref : SlotRef) (slot : Slot) (frame : FrameId) :
    Matches (Except.map (·.rename ρ)) (Renamed ρ) (d.emit ref slot frame)
      (d'.emit ref (slot.rename ρ) (ρ frame)) := by
  have hdts : d'.dts = d.dts := h.reads (·.dts) fun _ _ => rfl
  obtain ⟨result, sh, sh', he, he', hs⟩ := h.shared.emit (slot.victim ref.layer frame) d.dts
  have he' : d'.toShared.emit ((slot.rename ρ).victim ref.layer (ρ frame)) d'.dts =
      (result, sh') := by
    rw [hdts]
    exact he'
  have hd := h.onShared hs
  unfold Decoder.emit
  rw [he, he']
  cases result with
  | error fault => exact .of_rel (hd.stripOutput ref)
  | ok sent =>
    cases sent with
    | again => exact .of_rel hd
    | done => exact .of_rel (hd.stripOutput ref)

theorem dropCancelled (h : d.Renamed ρ d') (ref : SlotRef) (slot : Slot) (shown : Bool) :
    (d.dropCancelled ref slot shown).Renamed ρ (d'.dropCancelled ref (slot.rename ρ) shown) := by
  have hpic : (slot.rename ρ).picStruct = slot.picStruct := rfl
  unfold Decoder.dropCancelled
  rw [hpic]
  dsimp only
  split
  · exact (h.onShared (h.shared.recordOrphans 1)).stripOutput ref
  · exact h.stripOutput ref

theorem bump (h : d.Renamed ρ d') (pass : OutputPass) (ref : SlotRef) (slot : Slot) :
    Matches (Except.map (·.rename ρ)) (Renamed ρ) (d.bump pass ref slot)
      (d'.bump pass ref (slot.rename ρ)) := by
  have hpoc : d'.poc = d.poc := h.reads (·.poc) fun _ _ => rfl
  have hconfig : d'.config = d.config := h.reads (·.config) fun _ _ => rfl
  have hdecoding : d'.decoding = d.decoding := h.reads (·.decoding) fun _ _ => rfl
  have hframe : (slot.rename ρ).frame = slot.frame.map ρ := rfl
  have hown : d'.isOwnField (slot.rename ρ) = d.isOwnField slot := by
    unfold isOwnField
    rw [hpoc, hdecoding]
    rfl
  have houtcome : ∀ frame, d'.outcome? (slot.rename ρ) (ρ frame) = d.outcome? slot frame := by
    intro frame
    unfold outcome?
    rw [hconfig, h.store.frame]
    rfl
  unfold Decoder.bump
  rw [hframe, hown]
  cases slot.frame with
  | none => exact .of_rel h
  | some frame =>
    dsimp only [Option.map_some]
    rw [houtcome]
    split
    · exact .of_rel h
    · cases d.outcome? slot frame with
      | none => exact .of_rel h
      | some produced =>
        cases produced with
        | false => exact .of_rel (h.dropCancelled ref slot (pass.shows ref.layer))
        | true =>
          dsimp only
          split
          · exact h.emit ref slot frame
          · exact .of_rel (h.stripOutput ref)

/-- **An output pass takes the same pictures, under other names.** -/
theorem output (h : d.Renamed ρ d') (pass : OutputPass) :
    Matches (Except.map (·.rename ρ)) (Renamed ρ) (d.output pass) (d'.output pass) := by
  have next : ∀ {d d' d₁ : Decoder} {ref slot} {result : Except Fault Bump}, d.Renamed ρ d' →
      d.nextVictim? pass = some (ref, slot) → d.bump pass ref slot = (result, d₁) →
      ∃ d₁', d'.nextVictim? pass = some (ref, slot.rename ρ) ∧
        d'.bump pass ref (slot.rename ρ) = (result.map (·.rename ρ), d₁') ∧ d₁.Renamed ρ d₁' := by
    intro d d' d₁ ref slot result h hv hb
    obtain ⟨_, _, d₁', he, he', h₁⟩ := h.bump pass ref slot
    cases hb.symm.trans he
    exact ⟨d₁', by rw [h.nextVictim?, hv]; rfl, he', h₁⟩
  fun_induction d.output pass generalizing d' with
  | case1 d hv =>
    have hv' : d'.nextVictim? pass = none := by
      rw [h.nextVictim?, hv]
      rfl
    rw [Decoder.output]
    split
    · exact .of_rel h
    · rename_i hs
      rw [hv'] at hs
      cases hs
  | case2 d ref slot hv fault d₁ hb =>
    obtain ⟨d₁', hv', hb', h₁⟩ := next h hv hb
    rw [output_of_bump hv' hb']
    exact .of_rel h₁
  | case3 d ref slot hv d₁ hb =>
    obtain ⟨d₁', hv', hb', h₁⟩ := next h hv hb
    rw [output_of_bump hv' hb']
    exact .of_rel h₁
  | case4 d ref slot hv frame d₁ hb =>
    obtain ⟨d₁', hv', hb', h₁⟩ := next h hv hb
    rw [output_of_bump hv' hb']
    exact .of_rel h₁
  | case5 d ref slot hv d₁ hb ih =>
    obtain ⟨d₁', hv', hb', h₁⟩ := next h hv hb
    rw [output_of_bump hv' hb']
    exact ih h₁

theorem dropStash (h : d.Renamed ρ d') : Renamed ρ { d with toShared := d.toShared.dropStash }
    { d' with toShared := d'.toShared.dropStash } := h.onShared h.shared.dropStash

theorem dropCurrent (h : d.Renamed ρ d') : d.dropCurrent.Renamed ρ d'.dropCurrent := by
  have hcurrent : d'.current = d.current := h.reads (·.current) fun _ _ => rfl
  have hdecoding : d'.decoding = d.decoding := h.reads (·.decoding) fun _ _ => rfl
  unfold Decoder.dropCurrent
  rw [hcurrent, hdecoding]
  dsimp only
  split
  · exact (h.stripOutput _).abandonPicture
  · exact h.abandonPicture

theorem flush (h : d.Renamed ρ d') :
    Matches (Except.map (·.rename ρ)) (Renamed ρ) d.flush d'.flush := by
  have hpass : d'.flushPass = d.flushPass := by
    obtain ⟨nalu, shared, rfl, -⟩ := h.eq
    rfl
  obtain ⟨result, d₁, d₁', he, he', h₁⟩ := h.dropCurrent.output d.flushPass
  unfold Decoder.flush
  rw [hpass, he, he']
  cases result with
  | error fault => exact .of_rel h₁.clear.dropStash
  | ok passEnd =>
    cases passEnd with
    | settled => exact .of_rel h₁.clear.dropStash
    | deferred => exact .of_rel h₁.clear.dropStash
    | waiting frame => exact .of_rel h₁

/-! ### Commands -/

/-- **A command does the same under other names.** -/
theorem run (h : d.Renamed ρ d') (command : Command) :
    Matches (·.rename ρ) (Renamed ρ) (d.run command) (d'.run command) := by
  -- An operation that can fail, with its result under `reply`.
  have answer : ∀ {α : Type} {f : α → α} {p p' : α × Decoder} (reply : α → Reply),
      (∀ a, reply (f a) = (reply a).rename ρ) → Matches f (Renamed ρ) p p' →
      Matches (·.rename ρ) (Renamed ρ) (reply p.1, p.2) (reply p'.1, p'.2) := by
    intro α f p p' reply hreply hm
    obtain ⟨a, a₁, a₁', rfl, rfl, h₁⟩ := hm
    exact ⟨reply a, a₁, a₁', rfl, Prod.ext (hreply a) rfl, h₁⟩
  cases command with
  | setVps vps =>
    exact .of_rel (h.onContext (f := fun c => { c with vps }) fun _ nalu => .intro nalu)
  | setSps layer sps => exact answer .result (fun _ => rfl) (h.setSps layer sps)
  | setSei sei =>
    exact .of_rel (h.onContext (f := fun c => { c with sei }) fun _ nalu => .intro nalu)
  | setDts dts =>
    exact .of_rel (h.onContext (f := fun c => { c with dts }) fun _ nalu => .intro nalu)
  | setDuration duration =>
    exact .of_rel (h.onContext (f := fun c => { c with duration }) fun _ nalu => .intro nalu)
  | startPicture layer info => exact answer .slot (fun _ => rfl) (h.startPicture layer info)
  | finishPicture => exact .of_rel h.finishPicture
  | unmarkAll layer => exact answer .result (fun _ => rfl) (h.unmarkAll layer)
  | deriveSets layer hdr => exact answer .result (fun _ => rfl) (h.deriveSets layer hdr)
  | startSlice hdr slice => exact answer .result (fun _ => rfl) (h.startSlice hdr slice)
  | buildLists hdr slice => exact answer .lists (fun _ => rfl) (h.buildLists hdr slice)
  | output pass => exact answer .ended (fun _ => rfl) (h.output pass)
  | flush => exact answer .ended (fun _ => rfl) h.flush
  | clear => exact .of_rel h.clear
  | dropStash =>
    have hstash : d'.scheduler.stash.isSome = d.scheduler.stash.isSome := by
      rw [h.shared.stash, Option.isSome_map]
    dsimp only [Decoder.run]
    rw [hstash]
    exact .of_rel h.dropStash

end Renamed

end Decoder

end PictureBuffer
