import PictureBuffer.Proofs.Ranges
import PictureBuffer.Proofs.Settlement
import PictureBuffer.Proofs.Slices
import PictureBuffer.Proofs.Teardown

/-!
# The lists that a block was decoded with

Later pictures ask which reference lists a block of an earlier one was decoded with. The answer goes
through three tables: a luma position belongs to a block with a raster address, the picture
parameters give its tile scan address, and the slot of the picture has the index of a slice for it,
and lists for the slice. Slices may come in any order, and each overwrites the index from its first
block on.

* `Sps.ctbAt_lt`, `tileScan_lt`: the address of a block that covers a luma position is one of those
  that the slot has an index for.
* `Slot.Tabulates`: the tables of a slot say which of the slices so far covered each block last.
  `slot?_buildLists` is what one slice does to them, `Tabulates.slice` that they go on to say so.
* `Decoder.Carries`: nothing else touches them as long as the picture is in its slot.
* `lists_by_block`: so the answer is the lists of the last slice that begins at the block or before
  it, in every state of every run.

The picture may be asked about after others were started. A slice that was refused may have
overwritten indices, and is left out (`Session.Sliced`).
-/

namespace PictureBuffer

/-! ## The address of a block -/

/-- Rounding up gives every position a block. -/
theorem div_lt_of_lt {x n c : Nat} (hc : 0 < c) (h : x < n) : x / c < (n + c - 1) / c := by
  have hle : (x + c) / c ≤ (n + c - 1) / c := Nat.div_le_div_right (by omega)
  rw [Nat.add_div_right x hc] at hle
  exact hle

theorem Sps.ctbAt_eq (sps : Sps) (x y : Nat) : sps.ctbAt x y =
    y / 2 ^ (sps.log2Ctb % 32) * sps.ctbWidth + x / 2 ^ (sps.log2Ctb % 32) := by
  rw [ctbAt, Nat.shiftRight_eq_div_pow, Nat.shiftRight_eq_div_pow]

/-- **A luma position within the picture is covered by a block of it**, if positions can be shifted
by the logarithm of the size of a block. -/
theorem Sps.ctbAt_lt {sps : Sps} {x y : Nat} (hlog : sps.log2Ctb < 32) (hx : x < sps.width)
    (hy : y < sps.height) : sps.ctbAt x y < sps.ctbCount := by
  have hpos : 0 < sps.ctbSize := shiftedOne_pos _ _
  have hsize : sps.ctbSize = 2 ^ sps.log2Ctb := ctbSize_of_lt (by omega)
  have hcolumn : x / sps.ctbSize < sps.ctbWidth := div_lt_of_lt hpos hx
  have hrow : y / sps.ctbSize < sps.ctbHeight := div_lt_of_lt hpos hy
  calc sps.ctbAt x y
      = y / sps.ctbSize * sps.ctbWidth + x / sps.ctbSize := by
        rw [ctbAt_eq, Nat.mod_eq_of_lt hlog, hsize]
    _ < y / sps.ctbSize * sps.ctbWidth + sps.ctbWidth := Nat.add_lt_add_left hcolumn _
    _ = (y / sps.ctbSize + 1) * sps.ctbWidth := (Nat.succ_mul _ _).symm
    _ ≤ sps.ctbHeight * sps.ctbWidth := Nat.mul_le_mul_right _ hrow
    _ = sps.ctbCount := Nat.mul_comm _ _

/-- The tile scan has the blocks of a picture in some order. -/
def Pps.Orders (pps : Pps) (count : Nat) : Prop :=
  pps.tileScanMap = [] ∨ pps.tileScanMap.Perm (List.range count)

theorem Pps.tileScan_lt {pps : Pps} {count raster : Nat} (h : pps.Orders count)
    (hr : raster < count) : pps.tileScan raster < count := by
  unfold tileScan
  rcases h with hnil | hperm
  · rw [hnil]
    exact hr
  · have hlen : raster < pps.tileScanMap.length := by
      rw [hperm.length_eq, List.length_range]
      exact hr
    rw [List.getElem?_eq_getElem hlen, Option.getD_some]
    exact List.mem_range.mp (hperm.mem_iff.mp (List.getElem_mem hlen))

/-! ## The slices of a picture -/

/-- A slice of a picture: the raster address of its first block, its index, and the lists that it
was given. -/
structure SliceCall where
  address : Nat
  slice : Nat
  lists : SliceLists

section

variable {pps : Pps} {calls : List SliceCall} {call : SliceCall} {block : Nat}

/-- **The slice that covers a block**, given by its tile scan address: the last one that begins at
the block or before it. -/
def covering? (pps : Pps) (calls : List SliceCall) (block : Nat) : Option SliceCall :=
  (calls.filter fun call => pps.tileScan call.address ≤ block).getLast?

theorem covering?_concat (pps : Pps) (calls : List SliceCall) (call : SliceCall) (block : Nat) :
    covering? pps (calls ++ [call]) block =
      if pps.tileScan call.address ≤ block then some call else covering? pps calls block := by
  by_cases h : pps.tileScan call.address ≤ block
  · simp [covering?, List.filter_append, h]
  · simp [covering?, List.filter_append, h]

theorem mem_of_covering? (h : covering? pps calls block = some call) : call ∈ calls :=
  List.mem_of_mem_filter (List.mem_of_getLast? h)

/-- The index that a block has: that of the slice which covers it, and zero before there is one. -/
def sliceAt (pps : Pps) (calls : List SliceCall) (block : Nat) : Nat :=
  (covering? pps calls block).elim 0 (·.slice)

theorem sliceAt_concat (pps : Pps) (calls : List SliceCall) (call : SliceCall) (block : Nat) :
    sliceAt pps (calls ++ [call]) block =
      if pps.tileScan call.address ≤ block then call.slice else sliceAt pps calls block := by
  unfold sliceAt
  rw [covering?_concat]
  split <;> rfl

end

/-! ## The tables of a slot -/

namespace Slot

variable {slot a b : Slot} {sps : Sps} {pps : Pps} {calls : List SliceCall} {call : SliceCall}

/-- What a slot keeps for the pictures that ask about its blocks. -/
def record (slot : Slot) : Option Pps × List SliceLists × List Nat :=
  (slot.pps, slot.table, slot.blockLists)

/-- A slot that keeps its picture keeps what there is to know about its blocks. -/
theorem record_strip {mask : Flags} {x : FrameId} (h : (slot.strip mask).frame = some x) :
    (slot.strip mask).record = slot.record := by
  unfold strip at h ⊢
  dsimp only at h ⊢
  split at h
  · cases h
  · rename_i he
    rw [if_neg he]
    rfl

theorem record_mark (marking : Marking) (slot : Slot) :
    (slot.mark marking).record = slot.record := by
  unfold mark
  split <;> rfl

/-- **The tables of a slot tell the slices of its picture**: each block has the index of the slice
that covers it, and the lists of a slice are under its index. -/
structure Tabulates (slot : Slot) (sps : Sps) (pps : Pps) (calls : List SliceCall) : Prop where
  pps_eq : slot.pps = some pps
  blocks : slot.blockLists = (List.range sps.ctbCount).map (sliceAt pps calls)
  room : 0 < slot.table.length
  given : ∀ call ∈ calls, slot.table[call.slice]? = some call.lists
  rest : ∀ k < slot.table.length, (∀ call ∈ calls, call.slice ≠ k) → slot.table[k]? = some {}

theorem Tabulates.of_record (h : a.Tabulates sps pps calls) (hr : b.record = a.record) :
    b.Tabulates sps pps calls := by
  have hpps : b.pps = a.pps := congrArg Prod.fst hr
  have htable : b.table = a.table := congrArg (·.2.1) hr
  have hblocks : b.blockLists = a.blockLists := congrArg (·.2.2) hr
  refine ⟨hpps.trans h.pps_eq, hblocks.trans h.blocks, ?_, ?_, ?_⟩
  · rw [htable]
    exact h.room
  · rw [htable]
    exact h.given
  · rw [htable]
    exact h.rest

/-- A new picture has no slices yet. -/
theorem tabulates_new {new : NewPicture} (hpps : new.pps = some pps) (sps : Sps) (frame : FrameId) :
    (new.slot sps frame).Tabulates sps pps [] := by
  refine ⟨hpps, ?_, ?_, List.forall_mem_nil _, fun k hk _ => ?_⟩
  · have hzero : sliceAt pps [] = fun _ => 0 := rfl
    simp [NewPicture.slot, hzero]
  · simp only [NewPicture.slot, List.length_replicate]
    omega
  · have hk : k < max 1 new.numSlices := by simpa [NewPicture.slot] using hk
    simp [NewPicture.slot, hk]

/-- **One more slice**, with an index of its own: it takes the blocks from its first one on. -/
theorem Tabulates.slice (h : a.Tabulates sps pps calls)
    (hnew : ∀ old ∈ calls, old.slice ≠ call.slice) (hslice : call.slice < a.table.length)
    (hpps : b.pps = a.pps)
    (htable : b.table = a.table.set call.slice call.lists ∨ call.lists = {} ∧ b.table = a.table)
    (hblocks : b.blockLists = a.blockLists.mapIdx fun block old =>
      if pps.tileScan call.address ≤ block then call.slice else old) :
    b.Tabulates sps pps (calls ++ [call]) := by
  have hself : b.table[call.slice]? = some call.lists := by
    rcases htable with hset | ⟨hempty, hsame⟩
    · rw [hset, List.getElem?_set_self hslice]
    · rw [hsame, hempty]
      exact h.rest call.slice hslice hnew
  have hother : ∀ k, k ≠ call.slice → b.table[k]? = a.table[k]? := by
    intro k hk
    rcases htable with hset | ⟨-, hsame⟩
    · rw [hset, List.getElem?_set_ne (Ne.symm hk)]
    · rw [hsame]
  have hlen : b.table.length = a.table.length := by
    rcases htable with hset | ⟨-, hsame⟩
    · rw [hset, List.length_set]
    · rw [hsame]
  refine ⟨hpps.trans h.pps_eq, ?_, ?_, ?_, ?_⟩
  · rw [hblocks, h.blocks]
    refine List.ext_getElem? fun block => ?_
    rw [List.getElem?_mapIdx, List.getElem?_map, List.getElem?_map, Option.map_map]
    by_cases hb : block < sps.ctbCount
    · simp [hb, sliceAt_concat]
    · simp [hb]
  · rw [hlen]
    exact h.room
  · intro c hm
    rcases List.mem_append.mp hm with hold | hself'
    · rw [hother _ (hnew c hold)]
      exact h.given c hold
    · obtain rfl := List.mem_singleton.mp hself'
      exact hself
  · intro k hk hne
    rw [hother k fun hk' => hne call (by simp) hk'.symm]
    exact h.rest k (hlen ▸ hk) fun old ho => hne old (List.mem_append_left _ ho)

/-- **The lists of a block** are those of the slice that covers it, and those of index zero before
there is one. -/
theorem Tabulates.listsAt? (h : slot.Tabulates sps pps calls) {block : Nat}
    (hb : block < sps.ctbCount) :
    (slot.listsAt? block).isSome = true ∧
      slot.listsAt? block = match covering? pps calls block with
        | some call => some call.lists
        | none => slot.table[0]? := by
  have hindex : slot.listsAt? block = slot.table[sliceAt pps calls block]? := by
    unfold Slot.listsAt?
    rw [h.blocks, List.getElem?_map, List.getElem?_range hb]
    rfl
  rw [hindex]
  unfold sliceAt
  cases hc : covering? pps calls block with
  | none =>
    refine ⟨?_, rfl⟩
    rw [Option.elim_none, List.getElem?_eq_getElem h.room]
    rfl
  | some call =>
    have hgiven := h.given call (mem_of_covering? hc)
    rw [Option.elim_some, hgiven]
    exact ⟨rfl, rfl⟩

end Slot

/-- The command begins a slice. -/
def Command.slices : Command → Bool
  | .startSlice .. | .buildLists .. => true
  | _ => false

namespace Decoder

variable {d d' d'' : Decoder} {ref : SlotRef} {slot : Slot} {x : FrameId} {hdr : SliceHeader}
  {slice : Nat} {lists : SliceLists} {pps : Pps} {sps : Sps} {calls : List SliceCall}
  {command : Command}

/-! ## What a slice does to the tables -/

/-- A slice that has begun changes the slot of its picture only. -/
theorem Selects.slot? {selected : Slot} (h : d.Selects hdr slice ref pps slot selected)
    (collocated : Option SlotRef) (r : SlotRef) :
    ({ d.modifySlot ref fun _ => selected with collocated } : Decoder).slot? r =
      if r = ref then some selected else d.slot? r := by
  have hsame : ({ d.modifySlot ref fun _ => selected with collocated } : Decoder).slot? r =
    (d.modifySlot ref fun _ => selected).slot? r := rfl
  rw [hsame, slot?_modifySlot]
  split
  · rename_i hr
    rw [hr, h.slot_eq]
    rfl
  · rfl

/-- **What a slice does to the slot of its picture**: the blocks from its first one on get its
index, and the lists that it is given are put under it. A slice without lists leaves those that are
there. -/
theorem slot?_buildLists (hc : d.current = some ref) (hp : d.pps = some pps)
    (h : (d.buildLists hdr slice).1 = .ok lists) :
    ∃ slot table, d.slot? ref = some slot ∧ slice < slot.table.length ∧
      (table = slot.table.set slice lists ∨ lists = {} ∧ table = slot.table) ∧
      (d.buildLists hdr slice).2.slot? ref = some
        { slot with
          blockLists := slot.blockLists.mapIdx fun block old =>
            if pps.tileScan hdr.address ≤ block then slice else old
          current := slice
          table } := by
  have hbuilds := d.builds hdr slice
  rw [h] at hbuilds
  generalize (d.buildLists hdr slice).2 = d' at hbuilds
  cases hbuilds with
  | @unlisted r p slot selected _ hselects =>
    obtain rfl := Option.some.inj (hselects.current.symm.trans hc)
    obtain rfl := Option.some.inj (hselects.pps_eq.symm.trans hp)
    obtain ⟨hslice, rfl⟩ := Slot.selectLists_ok hselects.select_eq
    refine ⟨slot, slot.table, hselects.slot_eq, hslice, Or.inr ⟨rfl, rfl⟩, ?_⟩
    rw [slot?_modifySlot, if_pos rfl, hselects.slot_eq]
    rfl
  | @listed r p slot selected _ collocated _ hselects =>
    obtain rfl := Option.some.inj (hselects.current.symm.trans hc)
    obtain rfl := Option.some.inj (hselects.pps_eq.symm.trans hp)
    obtain ⟨hslice, rfl⟩ := Slot.selectLists_ok hselects.select_eq
    refine ⟨slot, _, hselects.slot_eq, hslice, Or.inl rfl, ?_⟩
    rw [slot?_modifySlot, if_pos rfl, hselects.slot?, if_pos rfl]
    rfl

/-- The slices of a decoder do nothing to slots other than its current one. -/
theorem slot?_slices_of_ne (hc : d.current ≠ some ref) (h : command.slices = true) :
    (d.run command).2.slot? ref = d.slot? ref := by
  have other : ∀ {hdr slice r pps slot selected}, d.Selects hdr slice r pps slot selected →
      ref ≠ r := by
    rintro hdr slice r pps slot selected hselects rfl
    exact hc hselects.current
  cases command with
  | startSlice hdr slice =>
    dsimp only [run]
    obtain ⟨_, -, he⟩ | ⟨r, pps, slot, selected, hselects, he⟩ := d.startSlice_cases hdr slice
    · rw [he]
    · rw [he, slot?_modifySlot, if_neg (other hselects)]
  | buildLists hdr slice =>
    dsimp only [run]
    have hbuilds := d.builds hdr slice
    generalize d.buildLists hdr slice = result at hbuilds ⊢
    obtain ⟨answer, d'⟩ := result
    dsimp only at hbuilds ⊢
    cases hbuilds with
    | refused => rfl
    | failed hselects => rw [hselects.slot?, if_neg (other hselects)]
    | unlisted _ hselects => rw [slot?_modifySlot, if_neg (other hselects)]
    | listed _ hselects =>
      rw [slot?_modifySlot, if_neg (other hselects), hselects.slot?, if_neg (other hselects)]
  | _ => cases h

/-! ## Everything else -/

/-- **Pictures keep their tables** as long as they stay where they are. -/
structure Carries (d d' : Decoder) : Prop extends Confines d d' where
  records : ∀ ref old new x, x < d.store.cells.size → d.slot? ref = some old →
    d'.slot? ref = some new → new.frame = some x → new.record = old.record

theorem Carries.refl (d : Decoder) : d.Carries d := by
  refine ⟨.refl d, fun ref old new x _ ho hn _ => ?_⟩
  rw [Option.some.inj (ho.symm.trans hn)]

theorem Carries.trans (h : d.Carries d') (h' : d'.Carries d'') : d.Carries d'' := by
  refine ⟨h.toConfines.trans h'.toConfines, fun ref old new x hx ho hn hf => ?_⟩
  have hx' := Nat.lt_of_lt_of_le hx h.size_le
  obtain ⟨mid, hmid, hmf⟩ := h'.toConfines.slot hx' hn hf
  exact (h'.records ref mid new x hx' hmid hn hf).trans (h.records ref old mid x hx ho hmid hmf)

/-- Each slot changes for itself. -/
theorem Carries.of_map (hc : d.Confines d')
    (h : ∀ ref, ∃ g : Slot → Slot, d'.slot? ref = (d.slot? ref).map g ∧
      ∀ slot x, d.slot? ref = some slot → (g slot).frame = some x →
        (g slot).record = slot.record) : d.Carries d' := by
  refine ⟨hc, fun ref old new x _ ho hn hf => ?_⟩
  obtain ⟨g, hg, hrecord⟩ := h ref
  rw [hg, ho] at hn
  cases hn
  exact hrecord old x ho hf

theorem Carries.of_slots (hc : d.Confines d') (h : ∀ ref, d'.slot? ref = d.slot? ref) :
    d.Carries d' :=
  .of_map hc fun ref => ⟨id, by rw [h, Option.map_id_apply], fun _ _ _ _ => rfl⟩

/-- One slot changes. The picture that it holds afterwards entered it, or was there before. -/
theorem Carries.of_one (hc : d.Confines d') (hothers : ∀ r, r ≠ ref → d'.slot? r = d.slot? r)
    (hone : ∀ old new, d.slot? ref = some old → d'.slot? ref = some new → old.isFree = false →
      new.record = old.record) : d.Carries d' := by
  refine ⟨hc, fun r old new x hx ho hn hf => ?_⟩
  by_cases hr : r = ref
  · subst hr
    obtain ⟨old', ho', hframe⟩ := hc.slot hx hn hf
    obtain rfl := Option.some.inj (ho.symm.trans ho')
    exact hone old new ho hn (by rw [Slot.isFree, hframe]; rfl)
  · rw [hothers r hr] at hn
    rw [Option.some.inj (ho.symm.trans hn)]

theorem carries_stripWhere (d : Decoder) (n : Nat) (p : Slot → Bool) (mask : Flags) :
    d.Carries (d.onDpb n fun dpb store => dpb.stripWhere store p mask) := by
  refine .of_map (d.spares_stripWhere n p mask).toConfines fun ref => ?_
  rw [slot?_stripWhere]
  split
  · refine ⟨_, rfl, fun slot x _ hf => ?_⟩
    split at hf
    · rename_i hp
      rw [if_pos hp]
      exact Slot.record_strip hf
    · rename_i hp
      rw [if_neg hp]
  · exact ⟨id, Option.map_id_apply.symm, fun _ _ _ _ => rfl⟩

theorem carries_stripOutput (d : Decoder) (ref : SlotRef) : d.Carries (d.stripOutput ref) := by
  refine .of_map (d.spares_stripOutput ref).toConfines fun r => ?_
  rw [slot?_stripOutput]
  split
  · exact ⟨_, rfl, fun _ _ _ hf => Slot.record_strip hf⟩
  · exact ⟨id, Option.map_id_apply.symm, fun _ _ _ _ => rfl⟩

theorem carries_startPicture (d : Decoder) (layer : Nat) (info : PictureInfo) :
    d.Carries (d.startPicture layer info).2 := by
  have hc := (d.spares_startPicture layer info).toConfines
  obtain ⟨_, -, -, hl⟩ | ⟨_, -, hbegins⟩ := d.startPicture_slots layer info
  · exact .of_slots hc fun ref => by rw [slot?, layer?, hl]; rfl
  · refine .of_one hc hbegins.others fun old new ho _ hheld => ?_
    obtain ⟨free, hfree, hisFree⟩ := hbegins.free
    rw [Option.some.inj (ho.symm.trans hfree), hisFree] at hheld
    cases hheld

theorem carries_addCandidate (d : Decoder) (layer : Nat) (c : Candidate) :
    d.Carries (d.addCandidate layer c).2 := by
  have hc := (d.spares_addCandidate layer c).toConfines
  obtain ⟨fault, store, he, -⟩ | ⟨sps, index, slot, d', he, hent⟩ := d.addCandidate_cases layer c
  · rw [he] at hc ⊢
    exact .of_slots hc fun _ => rfl
  · rw [he] at hc ⊢
    refine .of_one hc hent.others fun old new ho hn hheld => ?_
    rw [hent.marked] at hn
    cases hn
    rw [Slot.record_mark]
    cases hent.source with
    | found hs => rw [Option.some.inj (ho.symm.trans hs)]
    | missing _ hs hfree =>
      rw [Option.some.inj (ho.symm.trans hs), hfree] at hheld
      cases hheld

theorem carries_addCandidates (layer : Nat) (candidates : List Candidate) : ∀ d : Decoder,
    d.Carries (d.addCandidates layer candidates).2 := by
  induction candidates with
  | nil => exact Carries.refl
  | cons c rest ih =>
    intro d
    have hc := d.carries_addCandidate layer c
    unfold addCandidates
    rcases he : d.addCandidate layer c with ⟨_ | _, d'⟩
    · rw [he] at hc
      exact hc
    · rw [he] at hc
      exact hc.trans (ih d')

theorem carries_addInterLayer (d : Decoder) (layer : Nat) :
    d.Carries (d.addInterLayer layer).2 := by
  unfold addInterLayer
  split
  · exact .refl d
  · split
    · exact .refl d
    · exact d.carries_addCandidate 0 _

theorem carries_clearSets (d : Decoder) (layer : Nat) : d.Carries (d.clearSets layer) := by
  refine .of_map (d.spares_clearSets layer).toConfines fun ref => ?_
  rw [slot?_clearSets]
  split
  · refine ⟨_, rfl, fun slot x _ hf => ?_⟩
    have kept : ∀ {kept : Slot}, kept = (if slot.flags.placeholder then slot.strip .all else slot) →
        kept.frame = some x → kept.record = slot.record := by
      rintro _ rfl hk
      split at hk
      · rename_i hp
        rw [if_pos hp]
        exact Slot.record_strip hk
      · rename_i hp
        rw [if_neg hp]
    dsimp only at hf ⊢
    split at hf
    · rename_i hcur
      rw [if_pos hcur]
      exact kept rfl hf
    · rename_i hcur
      rw [if_neg hcur, Slot.record_mark]
      exact kept rfl (by rwa [Slot.frame_mark] at hf)
  · exact ⟨id, Option.map_id_apply.symm, fun _ _ _ _ => rfl⟩

theorem carries_deriveSets (d : Decoder) (layer : Nat) (hdr : SliceHeader) :
    d.Carries (d.deriveSets layer hdr).2 := by
  cases hg : d.layers.get? layer with
  | none =>
    rw [deriveSets_of_invalid hg]
    exact .refl d
  | some l =>
    have hadd : d.Carries ((d.clearSets layer).addHeader layer hdr).2 := by
      refine addHeader_induction ?_ fun h => h.trans (carries_addInterLayer _ layer)
      exact (d.carries_clearSets layer).trans (carries_addCandidates layer _ _)
    rw [deriveSets_eq hg]
    exact hadd.trans (carries_stripWhere _ layer (fun _ => true) .empty)

theorem carries_bump (d : Decoder) (pass : OutputPass) (ref : SlotRef) (slot : Slot) :
    d.Carries (d.bump pass ref slot).2 := by
  refine ⟨(spares_bump pass d ref slot).toConfines, fun r old new x _ ho hn hf => ?_⟩
  let P (d' : Decoder) := ∀ new, d'.slot? r = some new → new.frame = some x →
    new.record = old.record
  have hsame : ∀ d' : Decoder, d'.slot? r = d.slot? r → P d' := by
    intro d' hs new hn _
    rw [Option.some.inj ((hn.symm.trans hs).trans ho)]
  refine bump_preserves (P := P) (hsame d rfl) (fun _ => hsame _ rfl) (fun _ _ => hsame _ rfl) ?_
    pass new hn hf
  intro d' h new hn hf
  rw [slot?_stripOutput] at hn
  split at hn
  · obtain ⟨mid, hmid, rfl⟩ := Option.map_eq_some_iff.mp hn
    rw [Slot.record_strip hf]
    exact h mid hmid (Slot.within_strip .waiting mid x hf).1
  · exact h new hn hf

theorem carries_output (d : Decoder) (pass : OutputPass) : d.Carries (d.output pass).2 :=
  (@output_preserves d pass (fun d' => d.Carries d') (fun h _ => h.trans (carries_bump _ pass _ _))
    (.refl d)).1

theorem carries_abandonPicture (d : Decoder) : d.Carries d.abandonPicture :=
  .of_slots d.confines_abandonPicture fun ref => by
    rw [slot?, layer?, layers_abandonPicture]
    rfl

theorem carries_clear (d : Decoder) : d.Carries d.clear :=
  .of_map d.confines_clear fun ref => ⟨_, d.slot?_clear ref, fun _ _ _ hf => Slot.record_strip hf⟩

theorem carries_dropCurrent (d : Decoder) : d.Carries d.dropCurrent := by
  unfold dropCurrent
  dsimp only
  split
  · exact (d.carries_stripOutput _).trans (carries_abandonPicture _)
  · exact d.carries_abandonPicture

theorem carries_flush (d : Decoder) : d.Carries d.flush.2 := by
  have ho := d.carries_dropCurrent.trans (d.dropCurrent.carries_output d.flushPass)
  obtain ⟨frame, -, he⟩ | ⟨-, he⟩ := d.flush_cases
  · rw [he]
    exact ho
  · rw [he]
    exact (ho.trans (carries_clear _)).trans
      (.of_slots (spares_dropStash _).toConfines fun _ => rfl)

/-- Finishing a picture changes its frame. -/
theorem finishPicture_store_eq (d : Decoder) :
    ∃ store, d.finishPicture = { d with store, decoding := false } := by
  unfold finishPicture
  dsimp only
  split
  · obtain ⟨store, he⟩ := d.updateFrame_eq _ (·.produce)
    rw [he]
    exact ⟨store, rfl⟩
  · exact ⟨d.store, rfl⟩

/-- **Only slices change the tables** of a picture that stays in its slot. -/
theorem carries_run (d : Decoder) (h : command.slices = false) :
    d.Carries (d.run command).2 := by
  have hc := d.confines_run command
  cases command with
  | setVps | setSei | setDts | setDuration | dropStash => exact .of_slots hc fun _ => rfl
  | setSps n sps =>
    refine .of_slots hc fun ref => ?_
    dsimp only [run, setSps]
    split
    · rfl
    · refine d.slot?_modifyLayer n ?_ ref
      exact fun _ => rfl
  | startPicture layer info => exact d.carries_startPicture layer info
  | finishPicture =>
    refine .of_slots hc fun ref => ?_
    obtain ⟨store, he⟩ := d.finishPicture_store_eq
    dsimp only [run]
    rw [he]
    rfl
  | unmarkAll n =>
    dsimp only [run, unmarkAll]
    split
    · exact .refl d
    · exact d.carries_stripWhere n (fun _ => true) .references
  | deriveSets layer hdr => exact d.carries_deriveSets layer hdr
  | output pass => exact d.carries_output pass
  | flush => exact d.carries_flush
  | clear => exact d.carries_clear
  | startSlice | buildLists => cases h

/-- The decoder goes on with its picture, under the same parameters, until it begins another one or
gives all up. -/
theorem current_pps_run
    (h : match command with
      | .startPicture .. | .flush | .clear => False
      | _ => True) : (d.run command).2.current = d.current ∧ (d.run command).2.pps = d.pps := by
  cases command with
  | finishPicture =>
    obtain ⟨store, he⟩ := d.finishPicture_store_eq
    exact ⟨congrArg (·.current) he, congrArg (·.pps) he⟩
  | startPicture | flush | clear => exact h.elim
  | _ => exact (current_run trivial).imp_right And.right

end Decoder

/-! ## Following a picture -/

/-- How far a decoder has got with a picture that it has started. -/
inductive Stage
  /-- It is the current one, and a reference. -/
  | current
  /-- It is the current one, but the references of its layer have been unmarked. -/
  | unmarked
  /-- Another one has been started since, or all have been removed. -/
  | past
  deriving DecidableEq

/-- How far decoder `i` has got after an event with the picture in slot `ref`. -/
def Stage.after (stage : Stage) (i : Nat) (ref : SlotRef) : Event → Stage
  | .run j (.startPicture ..) | .run j .flush | .run j .clear => if j = i then .past else stage
  | .run j (.unmarkAll n) => if j = i ∧ n = ref.layer ∧ stage = .current then .unmarked else stage
  | _ => stage

/-- The event has decoder `i` begin a slice. -/
def Event.slices (i : Nat) : Event → Bool
  | .run j command => command.slices && j == i
  | _ => false

namespace Stage

variable {stage : Stage} {i : Nat} {ref : SlotRef} {e : Event}

theorem ne_past_of_after (h : stage.after i ref e ≠ .past) : stage ≠ .past := by
  rintro rfl
  refine h ?_
  unfold after
  split <;> simp

theorem eq_current_of_after (h : stage.after i ref e = .current) : stage = .current := by
  unfold after at h
  split at h
  any_goals exact h
  all_goals
    split at h
    · cases h
    · exact h

end Stage

namespace Decoder

variable {d d' : Decoder} {ref : SlotRef} {x : FrameId} {sps : Sps} {pps : Pps}
  {calls : List SliceCall} {stage stage' : Stage} {command : Command} {others : List FrameId}

/-- **What a decoder knows of a picture** in slot `ref` and the frame `x`, which has had the slices
`calls`: their tables, as long as the picture is there; and that it is there, unless its references
were unmarked. -/
structure Follows (d : Decoder) (ref : SlotRef) (x : FrameId) (sps : Sps) (pps : Pps)
    (calls : List SliceCall) (stage : Stage) : Prop where
  tables : ∀ slot, d.slot? ref = some slot → slot.frame = some x → slot.Tabulates sps pps calls
  current : stage ≠ .past → d.current = some ref ∧ d.pps = some pps
  kept : stage = .current → d.Refers ref x

theorem Follows.weaken (h : d.Follows ref x sps pps calls stage)
    (hpast : stage' ≠ .past → stage ≠ .past) (hcurrent : stage' = .current → stage = .current) :
    d.Follows ref x sps pps calls stage' :=
  ⟨h.tables, fun hs => h.current (hpast hs), fun hs => h.kept (hcurrent hs)⟩

theorem Follows.of_eq (h : d.Follows ref x sps pps calls stage) (hl : d'.layers = d.layers)
    (hc : d'.current = d.current) (hp : d'.pps = d.pps) : d'.Follows ref x sps pps calls stage := by
  have hslot : ∀ ref, d'.slot? ref = d.slot? ref := by
    intro ref
    rw [slot?, layer?, hl]
    rfl
  refine ⟨fun slot hs => h.tables slot ((hslot ref).symm.trans hs), fun hs => ?_, fun hs => ?_⟩
  · rw [hc, hp]
    exact h.current hs
  · exact (h.kept hs).of_slot? (hslot ref)

/-- **A picture that was started** is the current one, under the parameters that it came with, and
its slot is that of a new picture of its layer. -/
theorem slot?_startPicture {layer : Nat} {info : PictureInfo} (hsps : d.sps? layer = some sps)
    (h : (d.startPicture layer info).1 = .ok ref) :
    (d.startPicture layer info).2.current = some ref ∧
      (d.startPicture layer info).2.pps = some info.pps ∧
      ∃ frame, (d.startPicture layer info).2.slot? ref =
        some (((d.turnTo info).newPicture layer sps info).slot sps frame) := by
  obtain ⟨l, hg, hl⟩ := Option.bind_eq_some_iff.mp hsps
  have hactive : d.activeLayer layer = .ok (l, sps) := by
    rw [activeLayer, layer?, hg]
    dsimp only
    rw [hl]
  unfold startPicture at h ⊢
  rw [hactive] at h ⊢
  dsimp only at h ⊢
  split at h
  · cases h
  · rename_i hfree
    rw [if_neg hfree]
    rcases hin : l.dpb.insert (d.turnTo info).store sps
      ((d.turnTo info).newPicture layer sps info) with ⟨_ | index, dpb, store⟩
    · rw [hin] at h
      cases h
    · rw [hin] at h
      cases h
      obtain ⟨frame, hslot, -⟩ := Dpb.slot?_insert hin
      refine ⟨rfl, rfl, frame, ?_⟩
      dsimp only
      rw [slot?_set (d := d.turnTo info) hg rfl, if_pos rfl]
      exact hslot

/-- A picture that was started has had no slices. -/
theorem follows_startPicture {info : PictureInfo} (hsps : d.sps? ref.layer = some sps)
    (h : (d.startPicture ref.layer info).1 = .ok ref)
    (hf : (d.startPicture ref.layer info).2.frameAt? ref = some x) :
    (d.startPicture ref.layer info).2.Follows ref x sps info.pps [] .current := by
  obtain ⟨hcur, hpps, frame, hslot⟩ := slot?_startPicture hsps h
  refine ⟨fun slot hs _ => ?_, fun _ => ⟨hcur, hpps⟩, fun _ => refers_startPicture h hf⟩
  rw [hslot] at hs
  cases hs
  exact Slot.tabulates_new rfl sps frame

/-- Whatever else the decoder does. -/
theorem Follows.run (h : d.Follows ref x sps pps calls stage) (hx : x < d.store.cells.size)
    (hsound : d.Sound) (ha : d.Accounted others) {i : Nat}
    (hs : (Event.run i command).slices i = false) :
    (d.run command).2.Follows ref x sps pps calls (stage.after i ref (.run i command)) := by
  have hcarries : d.Carries (d.run command).2 := d.carries_run (by simpa [Event.slices] using hs)
  refine ⟨fun slot hslot hf => ?_, fun hne => ?_, fun hcur => ?_⟩
  · obtain ⟨old, hold, hof⟩ := hcarries.toConfines.slot hx hslot hf
    exact (h.tables old hold hof).of_record (hcarries.records ref old slot x hx hold hslot hf)
  · have hsame := @current_pps_run d command ?_
    · rw [hsame.1, hsame.2]
      exact h.current (Stage.ne_past_of_after hne)
    · cases command with
      | startPicture | flush | clear => simp [Stage.after] at hne
      | _ => trivial
  · have hstage := Stage.eq_current_of_after hcur
    have hne : stage ≠ .past := by
      rw [hstage]
      simp
    refine (h.kept hstage).run (h.current hne).1 hsound ha ?_ ?_
    · cases command with
      | startPicture | flush | clear => simp [Stage.after] at hcur
      | _ => trivial
    · rintro rfl
      simp [Stage.after, hstage] at hcur

/-- Slices of other pictures. -/
theorem Follows.elsewhere (h : d.Follows ref x sps pps calls .past) (hc : d.current ≠ some ref)
    (hs : command.slices = true) : (d.run command).2.Follows ref x sps pps calls .past := by
  refine ⟨fun slot hslot => ?_, fun hne => absurd rfl hne, fun hcur => by cases hcur⟩
  rw [slot?_slices_of_ne hc hs] at hslot
  exact h.tables slot hslot

/-- **One more slice of the picture.** -/
theorem Follows.slice {hdr : SliceHeader} {slice : Nat} {lists : SliceLists}
    (h : d.Follows ref x sps pps calls stage) (hs : stage ≠ .past)
    (hl : (d.buildLists hdr slice).1 = .ok lists) (hnew : ∀ call ∈ calls, call.slice ≠ slice) :
    (d.buildLists hdr slice).2.Follows ref x sps pps (calls ++ [⟨hdr.address, slice, lists⟩])
      stage := by
  obtain ⟨hcur, hpps⟩ := h.current hs
  obtain ⟨slot, table, hslot, hslice, htable, hslot'⟩ := slot?_buildLists hcur hpps hl
  have hsame := @current_pps_run d (.buildLists hdr slice) trivial
  refine ⟨fun new hnew' hf => ?_, fun _ => ?_, fun hkept => ?_⟩
  · rw [hslot'] at hnew'
    cases hnew'
    exact (h.tables slot hslot hf).slice hnew hslice rfl htable rfl
  · exact ⟨hsame.1.trans hcur, hsame.2.trans hpps⟩
  · exact (h.kept hkept).of_relists (d.relists_buildLists hdr slice)

end Decoder

/-! ## Sessions -/

namespace Session

variable {config : Config} {provider : Provider} {s : Session} {i : Nat} {ref : SlotRef}
  {x : FrameId} {sps : Sps} {pps : Pps} {calls : List SliceCall} {stage : Stage} {d : Decoder}

/-- **Decoder `i` has a picture with these slices**, in slot `ref` and the frame `x`: it has started
the picture, of a layer with parameters `sps`, under the picture parameters `pps`, or is a copy of a
decoder that has; and `calls` are the slices that it has given lists since. Each has an index of its
own. Whatever else has happened, the decoder has begun no slice of the picture without a result. -/
inductive Sliced (config : Config) (provider : Provider) (ref : SlotRef) (x : FrameId) (sps : Sps)
    (pps : Pps) : Session → Nat → List SliceCall → Stage → Prop
  | started {log : List Moment} {s : Session} {i : Nat} {d : Decoder} {info : PictureInfo}
      (run : Run config provider log s) (hd : s.decoder? i = some d)
      (hsps : d.sps? ref.layer = some sps) (hpps : info.pps = pps)
      (hs : (d.startPicture ref.layer info).1 = .ok ref)
      (hf : (d.startPicture ref.layer info).2.frameAt? ref = some x) :
      Sliced config provider ref x sps pps (s.step (.run i (.startPicture ref.layer info))).2 i []
        .current
  | sliced {s : Session} {i : Nat} {calls : List SliceCall} {stage : Stage} {d : Decoder}
      {hdr : SliceHeader} {slice : Nat} {lists : SliceLists}
      (h : Sliced config provider ref x sps pps s i calls stage) (hstage : stage ≠ .past)
      (hd : s.decoder? i = some d) (hl : (d.buildLists hdr slice).1 = .ok lists)
      (hnew : ∀ call ∈ calls, call.slice ≠ slice) :
      Sliced config provider ref x sps pps (s.step (.run i (.buildLists hdr slice))).2 i
        (calls ++ [⟨hdr.address, slice, lists⟩]) stage
  | other {s : Session} {i : Nat} {calls : List SliceCall} {stage : Stage} {e : Event}
      (h : Sliced config provider ref x sps pps s i calls stage) (he : e.slices i = false) :
      Sliced config provider ref x sps pps (s.step e).2 i calls (stage.after i ref e)
  /-- A slice of another picture. -/
  | elsewhere {s : Session} {i : Nat} {calls : List SliceCall} {d : Decoder} {command : Command}
      (h : Sliced config provider ref x sps pps s i calls .past) (hd : s.decoder? i = some d)
      (hc : d.current ≠ some ref) (hcommand : command.slices = true) :
      Sliced config provider ref x sps pps (s.step (.run i command)).2 i calls .past
  | forked {s : Session} {i : Nat} {calls : List SliceCall} {stage : Stage} {context : Context}
      (h : Sliced config provider ref x sps pps s i calls stage)
      (hc : s.context? i = some context) :
      Sliced config provider ref x sps pps (s.step (.fork i)).2 s.contexts.length calls stage

/-- What holds as long as slices of a picture are given lists. -/
theorem follows_of_sliced (h : Sliced config provider ref x sps pps s i calls stage) :
    (∃ log, Run config provider log s) ∧ x < s.known ∧ i < s.contexts.length ∧
      ∀ d, s.decoder? i = some d → d.Follows ref x sps pps calls stage := by
  have kept : ∀ {s : Session} {i : Nat} (e : Event), (∃ log, Run config provider log s) →
      x < s.known → i < s.contexts.length →
      (∃ log, Run config provider log (s.step e).2) ∧ x < (s.step e).2.known ∧
        i < (s.step e).2.contexts.length := by
    rintro s i e ⟨log, run⟩ hx hi
    exact ⟨⟨_, run.step e⟩, Nat.lt_of_lt_of_le hx (s.evolves_step e).size_le,
      Nat.lt_of_lt_of_le hi (s.length_contexts_step e)⟩
  induction h with
  | @started _ s i d info run hd hsps hpps hs hf =>
    subst hpps
    have hd' := decoder?_run hd (.startPicture ref.layer info)
    have run' := run.step (.run i (.startPicture ref.layer info))
    refine ⟨⟨_, run'⟩, (apart_of_frameAt? run' hd' hf).known,
      lt_length_of_context? (decoder?_eq hd').1, fun d' hd'' => ?_⟩
    obtain rfl := Option.some.inj (hd'.symm.trans hd'')
    exact Decoder.follows_startPicture hsps hs hf
  | @sliced s i _ _ d hdr slice _ _ hstage hd hl hnew ih =>
    obtain ⟨run, hx, hi, hfollows⟩ := ih
    obtain ⟨run', hx', hi'⟩ := kept (.run i (.buildLists hdr slice)) run hx hi
    refine ⟨run', hx', hi', fun d' hd' => ?_⟩
    obtain rfl := Option.some.inj ((decoder?_run hd _).symm.trans hd')
    exact (hfollows d hd).slice hstage hl hnew
  | @other s i _ _ e _ he ih =>
    obtain ⟨run, hx, hi, hfollows⟩ := ih
    obtain ⟨run', hx', hi'⟩ := kept e run hx hi
    refine ⟨run', hx', hi', fun d' hd' => ?_⟩
    obtain ⟨d, hd, ⟨command, rfl, rfl⟩ | hcontext⟩ := decoder?_of_step hi hd'
    · obtain ⟨log, run⟩ := run
      refine (hfollows d hd).run ?_ (sound_run run i d hd)
        ((accounted_iff hd).mp (accounted_run run)) he
      rw [(decoder?_eq hd).2]
      exact hx
    · refine Decoder.Follows.weaken ?_ Stage.ne_past_of_after Stage.eq_current_of_after
      exact (hfollows d hd).of_eq (congrArg Context.layers hcontext)
        (congrArg Context.current hcontext) (congrArg Context.pps hcontext)
  | @elsewhere s i _ d command _ hd hc hcommand ih =>
    obtain ⟨run, hx, hi, hfollows⟩ := ih
    obtain ⟨run', hx', hi'⟩ := kept (.run i command) run hx hi
    refine ⟨run', hx', hi', fun d' hd' => ?_⟩
    obtain rfl := Option.some.inj ((decoder?_run hd _).symm.trans hd')
    exact (hfollows d hd).elsewhere hc hcommand
  | @forked s i _ _ context _ hc ih =>
    obtain ⟨run, hx, hi, hfollows⟩ := ih
    obtain ⟨run', hx', -⟩ := kept (.fork i) run hx hi
    have hs : (s.step (.fork i)).2 = s.fork context := by
      simp only [step, hc]
    have hcopy := s.context?_fork_self context
    refine ⟨run', hx', ?_, fun d' hd' => ?_⟩
    · rw [hs]
      exact lt_length_of_context? hcopy
    · obtain ⟨hc', -⟩ := decoder?_eq hd'
      rw [hs, hcopy] at hc'
      have hcontext : d'.toContext = context.fork := (Option.some.inj hc').symm
      have hlayers : d'.layers = context.layers := by rw [hcontext]; rfl
      have hcurrent : d'.current = context.current := by rw [hcontext]; rfl
      have hpps : d'.pps = context.pps := by rw [hcontext]; rfl
      have hd : s.decoder? i = some { toContext := context, toShared := s.shared } := by
        rw [decoder?, hc]
        rfl
      exact (hfollows _ hd).of_eq hlayers hcurrent hpps

/-- **Every block has the lists of the slice that covers it**, in every state of every run: the last
one of those given lists that begins at the block or before it, in the order of the tile scan.
Blocks that no slice covers have the lists of index zero. This is so for every luma position, as
long as the picture is in its slot, and its layer has the parameters that it was started with. A
picture that is the current one, and a reference, is in its slot. -/
theorem lists_by_block (h : Sliced config provider ref x sps pps s i calls stage)
    (hlog : sps.log2Ctb < 32) (horders : pps.Orders sps.ctbCount) (hd : s.decoder? i = some d) :
    (stage = .current → d.frameAt? ref = some x) ∧
      (d.frameAt? ref = some x → d.sps? ref.layer = some sps →
        ∃ slot, d.slot? ref = some slot ∧ ∀ px < sps.width, ∀ py < sps.height,
          (d.listsAt? ref px py).isSome = true ∧
          d.listsAt? ref px py = match covering? pps calls (pps.tileScan (sps.ctbAt px py)) with
            | some call => some call.lists
            | none => slot.table[0]?) := by
  obtain ⟨-, -, -, hfollows⟩ := follows_of_sliced h
  have hfollows := hfollows d hd
  refine ⟨fun hs => (hfollows.kept hs).frameAt?, fun hf hsps => ?_⟩
  obtain ⟨slot, hslot, hframe⟩ := Decoder.frameAt?_eq_some_iff.mp hf
  have htables := hfollows.tables slot hslot hframe
  refine ⟨slot, hslot, fun px hx py hy => ?_⟩
  have hat : d.listsAt? ref px py = slot.listsAt? (pps.tileScan (sps.ctbAt px py)) := by
    obtain ⟨layer, hlayer, hl⟩ := Option.bind_eq_some_iff.mp hsps
    have hlayer : d.layer? ref.layer = some layer := hlayer
    have hindex : layer.dpb.slot? ref.index = some slot := by
      rw [Decoder.slot?, hlayer] at hslot
      exact hslot
    simp only [Decoder.listsAt?, hlayer, hl, hindex, htables.pps_eq, Option.bind_eq_bind,
      Option.bind_some]
  rw [hat]
  exact htables.listsAt? (Pps.tileScan_lt horders (Sps.ctbAt_lt hlog hx hy))

/-- Two rows of three blocks. -/
def threeByTwo : Sps := { width := 40, height := 32 }

/-- Two columns of tiles, of which the first is two blocks wide. -/
def twoTiles : Pps := { tileScanMap := [0, 1, 4, 2, 3, 5] }

/-- A slice of one reference, the picture of order count `0`. -/
def refersBack : SliceHeader where
  type := .p
  shortTerm := some { deltas := [-1], used := [true], numNegative := 1 }
  list0 := { numRefs := 1 }

/-- A picture was decoded, another one was started, and its sets have been derived. -/
def tilesStarted : Session :=
  (start {} {}).afterAll
    [.run 0 (.setSps 0 threeByTwo),
      .run 0 (.startPicture 0 { poc := 0, output := true, numSlices := 1, pps := {} }),
      .run 0 .finishPicture,
      .run 0 (.startPicture 0 { poc := 1, output := true, numSlices := 2, pps := twoTiles }),
      .run 0 (.deriveSets 0 refersBack)]

/-- The lists of a slice that refers back. -/
def backLists : SliceLists where
  list0 := ⟨[⟨0, ⟨0, 0⟩, false⟩]⟩

/-- The second tile is a slice of its own, without references. -/
def tilesSliced : Session :=
  tilesStarted.afterAll
    [.run 0 (.buildLists refersBack 0), .run 0 (.buildLists { type := .i, address := 2 } 1)]

/-- The next picture was started. -/
def tilesPast : Session :=
  tilesSliced.afterAll
    [.run 0 .finishPicture,
      .run 0 (.startPicture 0 { poc := 2, output := true, numSlices := 1, pps := {} })]

/-- The second row begins in the first tile, so it begins with the first slice, although the second
slice begins in the row above. -/
theorem tilesPast_lists : ∃ d calls,
    Sliced {} {} ⟨0, 1⟩ 1 threeByTwo twoTiles tilesPast 0 calls .past ∧
    threeByTwo.log2Ctb < 32 ∧ twoTiles.Orders threeByTwo.ctbCount ∧
    tilesPast.decoder? 0 = some d ∧
    d.frameAt? ⟨0, 1⟩ = some 1 ∧ d.sps? 0 = some threeByTwo ∧
    d.listsAt? ⟨0, 1⟩ 0 31 = some backLists ∧ d.listsAt? ⟨0, 1⟩ 39 31 = some {} := by
  have run := run_all
    [.run 0 (.setSps 0 threeByTwo),
      .run 0 (.startPicture 0 { poc := 0, output := true, numSlices := 1, pps := {} }),
      .run 0 .finishPicture] (@Run.start {} {})
  have started : Sliced {} {} ⟨0, 1⟩ 1 threeByTwo twoTiles tilesStarted 0 [] .current :=
    .other (.started run rfl rfl rfl rfl rfl) rfl
  obtain ⟨d, hd⟩ : ∃ d, tilesStarted.decoder? 0 = some d := ⟨_, rfl⟩
  have hback : (d.buildLists refersBack 0).1 = .ok backLists := by
    refine eq_ok_of_toOption ?_
    cases hd
    decide +kernel
  have hfirst := started.sliced (by simp) hd hback (List.forall_mem_nil _)
  obtain ⟨d', hd'⟩ : ∃ d, (tilesStarted.step (.run 0 (.buildLists refersBack 0))).2.decoder? 0 =
      some d := ⟨_, rfl⟩
  have hnone : (d'.buildLists { type := .i, address := 2 } 1).1 = .ok {} := by
    refine eq_ok_of_toOption ?_
    cases hd'
    decide +kernel
  have hsecond := hfirst.sliced (by simp) hd' hnone (by simp)
  have hpast : Sliced {} {} ⟨0, 1⟩ 1 threeByTwo twoTiles tilesPast 0
      [⟨0, 0, backLists⟩, ⟨2, 1, {}⟩] .past :=
    (hsecond.other (e := .run 0 .finishPicture) rfl).other rfl
  have horders : twoTiles.Orders threeByTwo.ctbCount := Or.inr (by decide)
  obtain ⟨d'', hd''⟩ : ∃ d, tilesPast.decoder? 0 = some d := ⟨_, rfl⟩
  have hf : d''.frameAt? ⟨0, 1⟩ = some 1 := by
    cases hd''
    decide +kernel
  have hsps : d''.sps? 0 = some threeByTwo := by
    cases hd''
    decide +kernel
  have hlog : threeByTwo.log2Ctb < 32 := by decide
  obtain ⟨-, hlists⟩ := lists_by_block hpast hlog horders hd''
  obtain ⟨slot, -, hat⟩ := hlists hf hsps
  exact ⟨d'', _, hpast, hlog, horders, hd'', hf, hsps, (hat 0 (by decide) 31 (by decide)).2,
    (hat 39 (by decide) 31 (by decide)).2⟩

end Session

end PictureBuffer
