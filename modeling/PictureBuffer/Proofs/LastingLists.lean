import PictureBuffer.Proofs.KeptLists

/-!
# How long the lists of a picture last

What `Decoder.listsAt?` answers comes from two places. The picture keeps its own tables and its own
picture parameters, but the block that covers a luma position is found with the sequence parameters
that the layer has when the question is asked.

* `Sps.grid_eq_iff`: of the sequence parameters, only the grid of blocks matters: their size and how
  many there are in a row.
* `sps?_run`: only `setSps` changes the parameters of a layer.
* `lists_last`: as long as the picture stays in its slot and none of its slices begins, its tables
  stay the same, so the answers are those of the same tables under the parameters that the layer has
  by then. They are the same answers if these have the same grid, as they do if no new ones with
  another grid were set.
* `not_always_lasting`: new parameters with another grid change the answers for a picture that was
  decoded before.
-/

namespace PictureBuffer

/-! ## The grid of blocks -/

namespace Sps

variable {a b : Sps}

/-- **The grid of blocks**: the logarithm of their size, as it shifts a position of 32 bits, and how
many there are in a row. -/
def grid (sps : Sps) : Nat × Nat := (sps.log2Ctb % 32, sps.ctbWidth)

/-- The position at which the second column of blocks begins tells their size. -/
theorem shift_le (h : ∀ x y, a.ctbAt x y = b.ctbAt x y) : b.log2Ctb % 32 ≤ a.log2Ctb % 32 := by
  have hpos : ∀ n, 0 < 2 ^ n := fun n => Nat.two_pow_pos n
  have hsecond : 2 ^ (a.log2Ctb % 32) / 2 ^ (b.log2Ctb % 32) = 1 := by
    have hcolumn := h (2 ^ (a.log2Ctb % 32)) 0
    rw [ctbAt_eq, ctbAt_eq, Nat.zero_div, Nat.zero_div, Nat.zero_mul, Nat.zero_mul, Nat.zero_add,
      Nat.zero_add, Nat.div_self (hpos _)] at hcolumn
    exact hcolumn.symm
  refine (Nat.pow_le_pow_iff_right (Nat.lt_succ_self 1)).mp (Nat.not_lt.mp fun hlt => ?_)
  rw [Nat.div_eq_of_lt hlt] at hsecond
  cases hsecond

/-- **Two grids are the same exactly if they give all positions the same block.** -/
theorem grid_eq_iff : a.grid = b.grid ↔ ∀ x y, a.ctbAt x y = b.ctbAt x y := by
  constructor
  · intro h x y
    have hsize : a.log2Ctb % 32 = b.log2Ctb % 32 := congrArg Prod.fst h
    have hwidth : a.ctbWidth = b.ctbWidth := congrArg Prod.snd h
    rw [ctbAt, ctbAt, hsize, hwidth]
  · intro h
    have hsize : a.log2Ctb % 32 = b.log2Ctb % 32 :=
      Nat.le_antisymm (shift_le fun x y => (h x y).symm) (shift_le h)
    have hrow := h 0 (2 ^ (a.log2Ctb % 32))
    rw [ctbAt_eq, ctbAt_eq, ← hsize, Nat.div_self (Nat.two_pow_pos _), Nat.one_mul, Nat.one_mul,
      Nat.zero_div, Nat.add_zero, Nat.add_zero] at hrow
    exact Prod.ext hsize hrow

end Sps

/-! ## The two sides of an answer -/

/-- The lists of the block that covers a luma position of the picture, if the blocks are those of
`sps`. -/
def Slot.listsUnder? (slot : Slot) (sps : Sps) (x y : Nat) : Option SliceLists :=
  slot.pps.bind fun pps => slot.listsAt? (pps.tileScan (sps.ctbAt x y))

theorem Slot.listsUnder?_of_record {slot slot' : Slot} (h : slot'.record = slot.record)
    (sps : Sps) (x y : Nat) : slot'.listsUnder? sps x y = slot.listsUnder? sps x y := by
  have hpps : slot'.pps = slot.pps := congrArg Prod.fst h
  have htable : slot'.table = slot.table := congrArg (·.2.1) h
  have hblocks : slot'.blockLists = slot.blockLists := congrArg (·.2.2) h
  unfold listsUnder? listsAt?
  rw [hpps, htable, hblocks]

/-- Of the parameters, only the grid matters. -/
theorem Slot.bind_listsUnder?_of_grid (slot : Slot) {a b : Option Sps}
    (h : a.map Sps.grid = b.map Sps.grid) (x y : Nat) :
    a.bind (slot.listsUnder? · x y) = b.bind (slot.listsUnder? · x y) := by
  cases a with
  | none =>
    rw [Option.map_none, eq_comm, Option.map_eq_none_iff] at h
    rw [h]
  | some a =>
    obtain ⟨b, rfl, hgrid⟩ := Option.map_eq_some_iff.mp h.symm
    simp only [Option.bind_some, listsUnder?, Sps.grid_eq_iff.mp hgrid x y]

namespace Decoder

variable {d d' : Decoder} {ref : SlotRef} {slot : Slot} {command : Command} {n : Nat}

/-- **What answers a question for the lists of a block**: the tables of the slot, and the sequence
parameters of its layer. -/
theorem listsAt?_eq (h : d.slot? ref = some slot) (x y : Nat) :
    d.listsAt? ref x y = (d.sps? ref.layer).bind (slot.listsUnder? · x y) := by
  unfold slot? at h
  unfold listsAt? sps? layer?
  unfold layer? at h
  cases hg : d.layers.get? ref.layer with
  | none => rfl
  | some layer =>
    rw [hg, Option.bind_some] at h
    cases hsps : layer.sps with
    | none => simp [hsps]
    | some sps => simp [hsps, h, Slot.listsUnder?]

/-! ## The parameters of a layer -/

theorem sps?_modifyLayer (d : Decoder) (m : Nat) {f : Layer → Layer} (hf : ∀ l, (f l).sps = l.sps)
    (n : Nat) : (d.modifyLayer m f).sps? n = d.sps? n := by
  unfold modifyLayer layer? sps?
  cases hg : d.layers.get? m with
  | none => rfl
  | some l =>
    dsimp only
    rw [Layers.get?_set hg]
    split
    · rename_i hn
      subst hn
      rw [hg, Option.bind_some, Option.bind_some, hf]
    · rfl

/-- What is set for one layer is not set for the other. -/
theorem sps?_setSps (d : Decoder) {m : Nat} (hm : m ≠ n) (sps : Sps) :
    (d.setSps m sps).2.sps? n = d.sps? n := by
  unfold setSps layer?
  cases hg : d.layers.get? m with
  | none => rfl
  | some l =>
    unfold modifyLayer layer? sps?
    rw [hg]
    dsimp only
    rw [Layers.get?_set hg, if_neg (Ne.symm hm)]

theorem sps?_buildLists (d : Decoder) (hdr : SliceHeader) (slice n : Nat) :
    (d.buildLists hdr slice).2.sps? n = d.sps? n := by
  have modified : ∀ (d : Decoder) ref f, (d.modifySlot ref f).sps? n = d.sps? n :=
    fun d ref f => (Deriving.modifyDpb d ref.layer _).sps?_eq n
  refine buildLists_preserves (P := fun d' => d'.sps? n = d.sps? n) rfl
    (fun _ => modified d _ _) (fun _ h => h) fun _ h => (modified _ _ _).trans h

theorem sps?_startPicture (d : Decoder) (layer : Nat) (info : PictureInfo) (n : Nat) :
    (d.startPicture layer info).2.sps? n = d.sps? n := by
  obtain ⟨_, he, -⟩ | ⟨_, _, he, -⟩ | ⟨l, _, index, _, dpb, store, hg, he, -⟩ :=
    d.startPicture_cases layer info
  · rw [he]
  · rw [he]
    rfl
  · rw [he]
    unfold sps?
    dsimp only
    rw [Layers.get?_set hg]
    split
    · rename_i hn
      rw [hn, hg]
      rfl
    · rfl

theorem sps?_output (d : Decoder) (pass : OutputPass) (n : Nat) :
    (d.output pass).2.sps? n = d.sps? n := by
  let P (d' : Decoder) := d'.sps? n = d.sps? n
  refine (@output_preserves d pass P (fun {d' _ _} h _ => ?_) rfl).1
  refine bump_preserves (P := P) h (fun _ => h) (fun _ _ => h) (fun d'' h' => ?_) pass
  exact ((Deriving.onDpb d'' _ _).sps?_eq n).trans h'

theorem sps?_abandonPicture (d : Decoder) (n : Nat) : d.abandonPicture.sps? n = d.sps? n := by
  rw [sps?, layers_abandonPicture]
  rfl

theorem sps?_clear (d : Decoder) (n : Nat) : d.clear.sps? n = d.sps? n := by
  have forgotten : ∀ (d : Decoder) m,
      (d.modifyLayer m ({ · with current := none })).sps? n = d.sps? n := by
    intro d m
    refine d.sps?_modifyLayer m ?_ n
    exact fun _ => rfl
  change ((((d.abandonPicture.onDpb 0 Dpb.clear).onDpb 1 Dpb.clear).modifyLayer 0
    ({ · with current := none })).modifyLayer 1 ({ · with current := none })).sps? n = d.sps? n
  rw [forgotten, forgotten, (Deriving.onDpb _ 1 _).sps?_eq, (Deriving.onDpb _ 0 _).sps?_eq,
    sps?_abandonPicture]

theorem sps?_flush (d : Decoder) (n : Nat) : d.flush.2.sps? n = d.sps? n := by
  have hdropped : d.dropCurrent.sps? n = d.sps? n := by
    unfold dropCurrent
    dsimp only
    rw [sps?_abandonPicture]
    split
    · exact (Deriving.onDpb d _ _).sps?_eq n
    · rfl
  have ho := (d.dropCurrent.sps?_output d.flushPass n).trans hdropped
  obtain ⟨frame, -, he⟩ | ⟨-, he⟩ := d.flush_cases
  · rw [he]
    exact ho
  · rw [he]
    exact (sps?_clear _ n).trans ho

/-- **Only `setSps` changes the parameters of a layer.** -/
theorem sps?_run (d : Decoder) (h : ∀ sps, command ≠ .setSps n sps) :
    (d.run command).2.sps? n = d.sps? n := by
  cases command with
  | setVps | setSei | setDts | setDuration | dropStash => rfl
  | setSps m sps =>
    refine d.sps?_setSps (fun hm => h sps ?_) sps
    rw [hm]
  | startPicture layer info => exact d.sps?_startPicture layer info n
  | finishPicture =>
    obtain ⟨store, he⟩ := d.finishPicture_store_eq
    dsimp only [run]
    rw [he]
    rfl
  | unmarkAll m =>
    dsimp only [run, unmarkAll]
    split
    · rfl
    · exact (Deriving.onDpb d m _).sps?_eq n
  | deriveSets layer hdr => exact (d.deriving_deriveSets layer hdr).sps?_eq n
  | startSlice hdr slice =>
    exact startSlice_preserves (P := fun d' => d'.sps? n = d.sps? n) rfl
      fun _ => (Deriving.modifyDpb d _ _).sps?_eq n
  | buildLists hdr slice => exact d.sps?_buildLists hdr slice n
  | output pass => exact d.sps?_output pass n
  | flush => exact d.sps?_flush n
  | clear => exact d.sps?_clear n

/-- The grid of blocks of a layer. -/
def grid? (d : Decoder) (n : Nat) : Option (Nat × Nat) := (d.sps? n).map Sps.grid

/-- A layer that has parameters gets the grid of those that are set. -/
theorem grid?_setSps {grid : Nat × Nat} (h : d.grid? n = some grid) (sps : Sps) :
    (d.setSps n sps).2.grid? n = some sps.grid := by
  unfold grid? sps? at h ⊢
  unfold setSps layer?
  cases hg : d.layers.get? n with
  | none =>
    rw [hg] at h
    cases h
  | some l =>
    unfold modifyLayer layer?
    rw [hg]
    dsimp only
    rw [Layers.get?_set_self hg]
    rfl

end Decoder

/-! ## Sessions -/

namespace Session

variable {config : Config} {provider : Provider} {log log' : List Moment} {s s' : Session}
  {i n : Nat} {d d' : Decoder} {ref : SlotRef} {x : FrameId} {slot : Slot} {e : Event}
  {allowed : List Moment → Session → Event → Prop}

/-- The event has decoder `i` begin no slice of the picture in slot `ref`. -/
def SparesSlices (s : Session) (i : Nat) (ref : SlotRef) (e : Event) : Prop :=
  e.slices i = true → (s.decoder? i).bind (·.current) ≠ some ref

/-- If the event has decoder `i` set parameters for layer `n`, they have the same grid. -/
def SparesGrid (s : Session) (i n : Nat) (e : Event) : Prop :=
  ∀ sps, e = .run i (.setSps n sps) → (s.decoder? i).bind (·.grid? n) = some sps.grid

/-- The picture keeps its tables, at one event. -/
theorem record_step (hi : i < s.contexts.length) (hx : x < s.known) (he : s.SparesSlices i ref e)
    (h : ∀ d, s.decoder? i = some d → ∀ slot', d.slot? ref = some slot' → slot'.frame = some x →
      slot'.record = slot.record) :
    ∀ d, (s.step e).2.decoder? i = some d → ∀ slot', d.slot? ref = some slot' →
      slot'.frame = some x → slot'.record = slot.record := by
  refine carried_step hi (fun {d d'} hd hcontext slot' hs => ?_)
    (fun {d command} hrun hd hold => ?_) h
  · have hlayers : d'.layers = d.layers := congrArg Context.layers hcontext
    refine hd slot' ?_
    rw [Decoder.slot?, Decoder.layer?, ← hlayers]
    exact hs
  · subst hrun
    intro slot' hs hf
    by_cases hslices : command.slices = true
    · have hother := he (by simp [Event.slices, hslices])
      rw [hd, Option.bind_some] at hother
      rw [Decoder.slot?_slices_of_ne hother hslices] at hs
      exact hold slot' hs hf
    · have hcarries := d.carries_run (Bool.not_eq_true _ ▸ hslices)
      have hknown : x < d.store.cells.size := by
        rw [(decoder?_eq hd).2]
        exact hx
      obtain ⟨old, hslot, hframe⟩ := hcarries.toConfines.slot hknown hs hf
      exact (hcarries.records ref old slot' x hknown hslot hs hf).trans (hold old hslot hframe)

/-- The picture keeps its tables, along a stretch. -/
theorem record_stretch (h : Stretch allowed log s log' s')
    (hallowed : ∀ log s e, allowed log s e → s.SparesSlices i ref e) (hi : i < s.contexts.length)
    (hx : x < s.known) (hd : s.decoder? i = some d) (hs : d.slot? ref = some slot) :
    ∀ d', s'.decoder? i = some d' → ∀ slot', d'.slot? ref = some slot' →
      slot'.frame = some x → slot'.record = slot.record := by
  suffices i < s'.contexts.length ∧ x < s'.known ∧ ∀ d', s'.decoder? i = some d' →
      ∀ slot', d'.slot? ref = some slot' → slot'.frame = some x →
        slot'.record = slot.record from this.2.2
  induction h with
  | refl =>
    refine ⟨hi, hx, fun d' hd' slot' hs' _ => ?_⟩
    obtain rfl := Option.some.inj (hd.symm.trans hd')
    rw [Option.some.inj (hs.symm.trans hs')]
  | @step log' s' _ e he ih =>
    obtain ⟨hi, hx, hrecord⟩ := ih
    exact ⟨Nat.lt_of_lt_of_le hi (s'.length_contexts_step e),
      Nat.lt_of_lt_of_le hx (s'.evolves_step e).size_le,
      record_step hi hx (hallowed log' s' e he) hrecord⟩

/-- The layer keeps its grid, along a stretch that sets no other one. -/
theorem grid_stretch {grid : Option (Nat × Nat)} (h : Stretch allowed log s log' s')
    (hallowed : ∀ log s e, allowed log s e → s.SparesGrid i n e) (hi : i < s.contexts.length)
    (hgrid : ∀ d, s.decoder? i = some d → d.grid? n = grid) :
    ∀ d', s'.decoder? i = some d' → d'.grid? n = grid := by
  suffices i < s'.contexts.length ∧ ∀ d', s'.decoder? i = some d' → d'.grid? n = grid from this.2
  induction h with
  | refl => exact ⟨hi, hgrid⟩
  | @step log' s' _ e he ih =>
    refine ⟨Nat.lt_of_lt_of_le ih.1 (s'.length_contexts_step e), ?_⟩
    refine carried_step ih.1 (fun {d d'} hd hcontext => ?_)
      (fun {d command} hrun hd hold => ?_) ih.2
    · have hlayers : d'.layers = d.layers := congrArg Context.layers hcontext
      rwa [Decoder.grid?, Decoder.sps?, hlayers]
    · subst hrun
      by_cases hsets : ∃ sps, command = .setSps n sps
      · obtain ⟨sps, rfl⟩ := hsets
        have hkept := hallowed log' s' _ he sps rfl
        rw [hd, Option.bind_some] at hkept
        rw [← hold, hkept]
        exact Decoder.grid?_setSps hkept sps
      · rw [Decoder.grid?, d.sps?_run fun sps hs => hsets ⟨sps, hs⟩]
        exact hold

/-- **Decoded pictures keep their lists**, as long as they are in their slot and none of their
slices begins: a question for the lists of a block is answered with the same tables as before, under
the parameters that the layer has by then. The answers are the same for all positions if these have
the same grid, which is so if no parameters with another grid were set for the layer. -/
theorem lists_last (run : Run config provider log s) (hd : s.decoder? i = some d)
    (hf : d.frameAt? ref = some x) (between : Stretch allowed log s log' s')
    (hallowed : ∀ log s e, allowed log s e → s.SparesSlices i ref e)
    (hd' : s'.decoder? i = some d') (hf' : d'.frameAt? ref = some x) :
    (∃ slot, d.slot? ref = some slot ∧ ∀ px py,
      d.listsAt? ref px py = (d.sps? ref.layer).bind (slot.listsUnder? · px py) ∧
      d'.listsAt? ref px py = (d'.sps? ref.layer).bind (slot.listsUnder? · px py)) ∧
    (d'.grid? ref.layer = d.grid? ref.layer →
      ∀ px py, d'.listsAt? ref px py = d.listsAt? ref px py) ∧
    ((∀ log s e, allowed log s e → s.SparesGrid i ref.layer e) →
      ∀ px py, d'.listsAt? ref px py = d.listsAt? ref px py) := by
  have hi := lt_length_of_context? (decoder?_eq hd).1
  obtain ⟨slot, hs, hframe⟩ := Decoder.frameAt?_eq_some_iff.mp hf
  obtain ⟨slot', hs', hframe'⟩ := Decoder.frameAt?_eq_some_iff.mp hf'
  have hrecord : slot'.record = slot.record :=
    record_stretch between hallowed hi (apart_of_frameAt? run hd hf).known hd hs d' hd' slot' hs'
      hframe'
  have hafter : ∀ px py, d'.listsAt? ref px py =
      (d'.sps? ref.layer).bind (slot.listsUnder? · px py) := by
    intro px py
    rw [Decoder.listsAt?_eq hs']
    exact congrArg _ (funext fun sps => Slot.listsUnder?_of_record hrecord sps px py)
  have hgrid : d'.grid? ref.layer = d.grid? ref.layer →
      ∀ px py, d'.listsAt? ref px py = d.listsAt? ref px py := by
    intro hg px py
    rw [hafter, Decoder.listsAt?_eq hs]
    exact slot.bind_listsUnder?_of_grid hg px py
  refine ⟨⟨slot, hs, fun px py => ⟨Decoder.listsAt?_eq hs px py, hafter px py⟩⟩, hgrid, ?_⟩
  intro hspares
  refine hgrid (grid_stretch between hspares hi (fun d₀ hd₀ => ?_) d' hd')
  rw [Option.some.inj (hd.symm.trans hd₀)]

/-- Another picture is decoded under parameters that give it another size, but the same grid. -/
def underSameGrid : List Event :=
  [.run 0 .finishPicture, .run 0 (.setSps 0 { width := 48, height := 64 }),
    .run 0 (.startPicture 0 { poc := 2, output := true, numSlices := 1, pps := {} }),
    .run 0 (.deriveSets 0 refersBack), .run 0 (.startSlice refersBack 0), .run 0 (.unmarkAll 0)]

/-- No slice of the first decoder's picture in slot `1` begins, and the grid stays the same. -/
def sparesTiles (_ : List Moment) (s : Session) (e : Event) : Prop :=
  s.SparesSlices 0 ⟨0, 1⟩ e ∧ s.SparesGrid 0 0 e

theorem sparesTiles_underSameGrid (log : List Moment) :
    AllowedAll sparesTiles log tilesSliced underSameGrid := by
  have other : ∀ log s (e : Event), e.slices 0 = false →
      (∀ sps, e ≠ .run 0 (.setSps 0 sps)) → sparesTiles log s e := by
    intro log s e hslices hsets
    refine ⟨fun h => ?_, fun sps h => absurd h (hsets sps)⟩
    cases hslices.symm.trans h
  refine ⟨other _ _ _ rfl (by simp), ⟨?_, ?_⟩, other _ _ _ rfl (by simp),
    other _ _ _ rfl (by simp), ⟨?_, ?_⟩, other _ _ _ rfl (by simp), trivial⟩
  · rintro ⟨⟩
  · rintro sps ⟨⟩
    decide +kernel
  · intro _
    decide +kernel
  · rintro sps ⟨⟩

/-- Every block of the picture before reads the lists that it has read, like the first one of its
second tile, a slice without references. -/
theorem underSameGrid_lasting : ∃ d d', tilesSliced.decoder? 0 = some d ∧
    (tilesSliced.afterAll underSameGrid).decoder? 0 = some d' ∧
    d.listsAt? ⟨0, 1⟩ 39 0 = some {} ∧
    ∀ px py, d'.listsAt? ⟨0, 1⟩ px py = d.listsAt? ⟨0, 1⟩ px py := by
  have run : Run {} {} _ tilesSliced := run_all _ (run_all _ (@Run.start {} {}))
  obtain ⟨d, hd⟩ : ∃ d, tilesSliced.decoder? 0 = some d := ⟨_, rfl⟩
  obtain ⟨d', hd'⟩ : ∃ d, (tilesSliced.afterAll underSameGrid).decoder? 0 = some d := ⟨_, rfl⟩
  have hf : d.frameAt? ⟨0, 1⟩ = some 1 ∧ d.listsAt? ⟨0, 1⟩ 39 0 = some {} := by
    cases hd
    decide +kernel
  have hf' : d'.frameAt? ⟨0, 1⟩ = some 1 := by
    cases hd'
    decide +kernel
  obtain ⟨-, -, hlast⟩ := lists_last run hd hf.1 (Stretch.refl.all (sparesTiles_underSameGrid _))
    (fun _ _ _ h => h.1) hd' hf'
  exact ⟨d, d', hd, hd', hf.2, hlast fun _ _ _ h => h.2⟩

/-- Parameters with larger blocks: there are two in a row where there were three. -/
def largerBlocks : Sps := { threeByTwo with log2Ctb := 5 }

/-- **New parameters may change the lists of pictures that were decoded before**: with larger
blocks, the first block of the second tile is taken for one of the first tile, so it is not true of
every picture that its lists last as long as it stays in its slot and none of its slices begins. -/
theorem not_always_lasting : ¬ ∀ (config : Config) (provider : Provider) (log log' : List Moment)
    (s s' : Session) (i : Nat) (d d' : Decoder) (ref : SlotRef) (x : FrameId) (px py : Nat),
    Run config provider log s → s.decoder? i = some d → d.frameAt? ref = some x →
    Stretch (fun _ s e => s.SparesSlices i ref e) log s log' s' → s'.decoder? i = some d' →
    d'.frameAt? ref = some x → d'.listsAt? ref px py = d.listsAt? ref px py := by
  intro h
  have run : Run {} {} _ tilesSliced := run_all _ (run_all _ (@Run.start {} {}))
  obtain ⟨d, hd⟩ : ∃ d, tilesSliced.decoder? 0 = some d := ⟨_, rfl⟩
  obtain ⟨d', hd'⟩ : ∃ d, (tilesSliced.step (.run 0 (.setSps 0 largerBlocks))).2.decoder? 0 =
      some d := ⟨_, rfl⟩
  have before : d.frameAt? ⟨0, 1⟩ = some 1 ∧ d.listsAt? ⟨0, 1⟩ 39 0 = some {} := by
    cases hd
    decide +kernel
  have after : d'.frameAt? ⟨0, 1⟩ = some 1 ∧ d'.listsAt? ⟨0, 1⟩ 39 0 = some backLists := by
    cases hd'
    decide +kernel
  have hsame := h {} {} _ _ _ _ 0 d d' ⟨0, 1⟩ 1 39 0 run hd before.1
    (.step .refl (.run 0 (.setSps 0 largerBlocks)) fun hslices => by cases hslices) hd' after.1
  rw [before.2, after.2] at hsame
  exact absurd hsame (by decide)

end Session

end PictureBuffer
