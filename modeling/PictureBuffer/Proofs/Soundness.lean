import PictureBuffer.Proofs.Commands
import PictureBuffer.Proofs.Custody
import PictureBuffer.Proofs.Partners

/-!
# Sound slots

In every state of every run, and after every command, failed or not, the slots of a buffer are
**sound** (`Slot.Sound`): a slot is in use exactly if it holds a frame, is not marked in two ways at
once, does not wait for output with a stand-in, whose frame is produced, and has reference lists
that its blocks can refer to.

A derivation breaks the first clause while it is under way: it takes the marking off before it
looks the candidates up, and keeps the pictures. What holds all along is `Slot.Valid`. The pictures
of other layers never lose their last flag (`Decoder.Underway`), and those of the layer itself are
swept in the end.

* `sound_step`: one event keeps the slots of all decoders sound.
* `sound_run`: so they are in every run, and an output pass never fails with an internal fault.
-/

namespace PictureBuffer

/-! ## Sound slots -/

namespace Slot

/-- The slot has flags. -/
def InUse (slot : Slot) : Prop := slot.flags.isEmpty = false

/-- The lists of the current slice and of every block are in the table, and none is too long. -/
structure Listed (slot : Slot) : Prop where
  current : slot.current < slot.table.length
  blocks : ∀ i ∈ slot.blockLists, i < slot.table.length
  bounded : ∀ lists ∈ slot.table, lists.Bounded

theorem Listed.of_eq {slot slot' : Slot} (h : slot.Listed) (ht : slot'.table = slot.table)
    (hb : slot'.blockLists = slot.blockLists) (hc : slot'.current = slot.current) :
    slot'.Listed := by
  refine ⟨?_, ?_, ?_⟩
  · rw [ht, hc]
    exact h.current
  · rw [ht, hb]
    exact h.blocks
  · rw [ht]
    exact h.bounded

/-- **A sound slot.** -/
structure Sound (slot : Slot) (store : Store) : Prop where
  held : slot.frame.isSome = true ↔ slot.InUse
  marks : ¬(slot.flags.shortTerm = true ∧ slot.flags.longTerm = true)
  standIn : slot.flags.placeholder = true → slot.flags.output = false ∧
    ∃ frame, slot.frame = some frame ∧ store.Produced frame
  table : slot.InUse → slot.table ≠ []
  listed : slot.InUse → slot.Listed

/-- What holds of a slot even in the middle of a derivation. -/
structure Valid (slot : Slot) (store : Store) : Prop where
  free : slot.isFree = true → ¬slot.InUse
  marks : ¬(slot.flags.shortTerm = true ∧ slot.flags.longTerm = true)
  standIn : slot.flags.placeholder = true → slot.flags.output = false
  produced : slot.flags.placeholder = true → ∀ frame, slot.frame = some frame →
    store.Produced frame
  listed : slot.isFree = false → slot.Listed

variable {slot slot' : Slot} {store store' : Store}

theorem inUse_of_placeholder (h : slot.flags.placeholder = true) : slot.InUse := by
  simp [InUse, Flags.isEmpty, h]

theorem Valid.held_of_inUse (h : slot.Valid store) (hu : slot.InUse) : slot.isFree = false := by
  cases hf : slot.isFree with
  | false => rfl
  | true => exact absurd hu (h.free hf)

/-- A valid slot is sound if its picture is kept for something. -/
theorem sound_iff : slot.Sound store ↔ slot.Valid store ∧ (slot.isFree = false → slot.InUse) := by
  have hfree : slot.isFree = false ↔ slot.frame.isSome = true := by
    simp [isFree, Option.isSome_iff_ne_none]
  constructor
  · intro h
    refine ⟨⟨?_, h.marks, fun hp => (h.standIn hp).1, ?_, ?_⟩, fun hf => h.held.mp (hfree.mp hf)⟩
    · intro hf hu
      rw [hfree.mpr (h.held.mpr hu)] at hf
      cases hf
    · intro hp frame hframe
      obtain ⟨-, frame', hframe', hproduced⟩ := h.standIn hp
      rw [hframe] at hframe'
      cases hframe'
      exact hproduced
    · exact fun hf => h.listed (h.held.mp (hfree.mp hf))
  · rintro ⟨h, hkept⟩
    have hheld : slot.InUse → slot.isFree = false := h.held_of_inUse
    refine ⟨⟨fun hs => hkept (hfree.mpr hs), fun hu => hfree.mp (hheld hu)⟩, h.marks, ?_, ?_,
      fun hu => h.listed (hheld hu)⟩
    · intro hp
      obtain ⟨frame, hframe⟩ := Option.isSome_iff_exists.mp
        (hfree.mp (hheld (inUse_of_placeholder hp)))
      exact ⟨h.standIn hp, frame, hframe, h.produced hp frame hframe⟩
    · intro hu htable
      have hlt := (h.listed (hheld hu)).current
      rw [htable] at hlt
      cases hlt

/-! ### What keeps a slot valid -/

/-- A slot with no picture. -/
theorem valid_empty (poc : Int) (store : Store) : ({ poc } : Slot).Valid store := by
  constructor
  · exact fun _ hu => by cases hu
  · exact fun hm => by cases hm.1
  · exact fun hp => by cases hp
  · exact fun hp => by cases hp
  · exact fun hf => by cases hf

theorem valid_strip (h : slot.Valid store) (mask : Flags) : (slot.strip mask).Valid store := by
  unfold strip
  dsimp only
  split
  · exact valid_empty slot.poc store
  · have hand : ∀ {a b : Bool}, (a && !b) = true → a = true := by simp
    refine ⟨fun hf hu => h.free hf ?_, fun hm => h.marks ⟨hand hm.1, hand hm.2⟩, ?_,
      fun hp => h.produced (hand hp), fun hf => (h.listed hf).of_eq rfl rfl rfl⟩
    · revert hu
      unfold InUse Flags.isEmpty Flags.without
      cases slot.flags.output <;> cases slot.flags.shortTerm <;> cases slot.flags.longTerm <;>
        cases slot.flags.placeholder <;> simp
    · intro hp
      have ho := h.standIn (hand hp)
      simp [Flags.without, ho]

/-- A picture that lost flags is kept for those that are left. -/
theorem inUse_strip (mask : Flags) (hf : (slot.strip mask).isFree = false) :
    (slot.strip mask).InUse := by
  have hframe := frame_strip mask slot
  rw [InUse, flags_strip]
  cases he : (slot.flags.without mask).isEmpty with
  | false => rfl
  | true =>
    rw [if_pos he] at hframe
    rw [isFree, hframe] at hf
    cases hf

/-- A sweep leaves what is in use. -/
theorem strip_empty_of_inUse (h : slot.InUse) : slot.strip .empty = slot := by
  have hsame : slot.flags.without .empty = slot.flags := by simp [Flags.without, Flags.empty]
  unfold strip
  dsimp only
  rw [hsame, h]
  rfl

theorem flags_mark (marking : Marking) (slot : Slot) : (slot.mark marking).flags =
    if slot.isFree then slot.flags
    else (slot.flags.without .references).union marking.flags := by
  unfold mark
  split <;> rfl

theorem valid_mark (h : slot.Valid store) (marking : Marking) :
    (slot.mark marking).Valid store := by
  unfold mark
  split
  · exact h
  · rename_i hheld
    refine ⟨fun hf => absurd hf hheld, ?_, ?_, ?_, fun hf => (h.listed hf).of_eq rfl rfl rfl⟩
    · cases marking <;> simp [Flags.union, Flags.without, Flags.references, Marking.flags]
    · intro hp
      have hp' : slot.flags.placeholder = true := by
        cases marking <;> simpa [Flags.union, Flags.without, Flags.references, Marking.flags]
          using hp
      have ho := h.standIn hp'
      cases marking <;> simp [Flags.union, Flags.without, Marking.flags, ho]
    · intro hp
      refine h.produced ?_
      cases marking <;> simpa [Flags.union, Flags.without, Flags.references, Marking.flags] using hp

/-- A picture that gets a marking is kept for it. -/
theorem inUse_mark {marking : Marking} (hm : marking ≠ .none) (hheld : slot.isFree = false) :
    (slot.mark marking).InUse := by
  rw [InUse, flags_mark, hheld]
  cases marking with
  | none => exact absurd rfl hm
  | shortTerm => simp [Flags.isEmpty, Flags.union, Marking.flags]
  | longTerm => simp [Flags.isEmpty, Flags.union, Marking.flags]

theorem listed_selectLists {slice first : Nat} (h : slot.Listed)
    (hs : slot.selectLists slice first = .ok slot') : slot'.Listed := by
  obtain ⟨hlt, rfl⟩ := selectLists_ok hs
  refine ⟨hlt, fun i hi => ?_, h.bounded⟩
  obtain ⟨block, hblock, rfl⟩ := List.mem_mapIdx.mp hi
  dsimp only
  split
  · exact hlt
  · exact h.blocks _ (List.getElem_mem hblock)

theorem listed_setCurrentLists {lists : SliceLists} (h : slot.Listed) (hl : lists.Bounded) :
    (slot.setCurrentLists lists).Listed := by
  have hlen : (slot.setCurrentLists lists).table.length = slot.table.length :=
    List.length_set
  refine ⟨?_, ?_, ?_⟩
  · rw [hlen]
    exact h.current
  · rw [hlen]
    exact h.blocks
  · intro l hm
    rcases List.mem_or_eq_of_mem_set hm with hm | rfl
    · exact h.bounded l hm
    · exact hl

/-- The lists of a slot have changed, and nothing else. -/
theorem Sound.of_lists (h : slot.Sound store) (hflags : slot'.flags = slot.flags)
    (hframe : slot'.frame = slot.frame) (hl : slot.Listed → slot'.Listed) :
    slot'.Sound store := by
  have huse : slot'.InUse ↔ slot.InUse := by rw [InUse, InUse, hflags]
  have hfree : slot'.isFree = slot.isFree := by rw [isFree, isFree, hframe]
  obtain ⟨hv, hkept⟩ := sound_iff.mp h
  refine sound_iff.mpr ⟨⟨?_, ?_, ?_, ?_, ?_⟩, ?_⟩
  · rw [hfree, huse]
    exact hv.free
  · rw [hflags]
    exact hv.marks
  · rw [hflags]
    exact hv.standIn
  · rw [hflags, hframe]
    exact hv.produced
  · rw [hfree]
    exact fun hf => hl (hv.listed hf)
  · rw [hfree, huse]
    exact hkept

theorem sound_strip (h : slot.Valid store) (mask : Flags) : (slot.strip mask).Sound store :=
  sound_iff.mpr ⟨valid_strip h mask, inUse_strip mask⟩

/-- Ageing keeps a slot sound. -/
theorem Sound.ages (h : slot.Sound store) (ha : slot.Ages slot') : slot'.Sound store := by
  induction ha with
  | refl => exact h
  | strip _ mask ih => exact sound_strip (sound_iff.mp ih).1 mask
  | selectLists _ hs ih =>
    have hl := fun hlisted => listed_selectLists hlisted hs
    obtain ⟨-, rfl⟩ := selectLists_ok hs
    exact ih.of_lists rfl rfl hl
  | setLists _ hl ih => exact ih.of_lists rfl rfl fun hlisted => listed_setCurrentLists hlisted hl

/-- The slot of a new picture. -/
theorem valid_new {new : NewPicture} {frame : FrameId}
    (hm : ¬(new.flags.shortTerm = true ∧ new.flags.longTerm = true))
    (hp : new.flags.placeholder = true → new.flags.output = false ∧ store.Produced frame)
    (sps : Sps) : (new.slot sps frame).Valid store := by
  have hlen : (new.slot sps frame).table.length = max 1 new.numSlices := List.length_replicate
  have hpos : 0 < (new.slot sps frame).table.length := by omega
  refine ⟨fun hf => (by cases hf), hm, fun h => (hp h).1, ?_, fun _ => ⟨hpos, ?_, ?_⟩⟩
  · intro h frame' hf
    cases hf
    exact (hp h).2
  · intro i hi
    rw [List.eq_of_mem_replicate hi]
    exact hpos
  · intro lists hl
    rw [List.eq_of_mem_replicate hl]
    exact SliceLists.bounded_empty

/-- Frames that are held stay produced. -/
theorem Valid.evolves (h : slot.Valid store) (he : store.Evolves store')
    (hheld : ∀ frame, slot.frame = some frame → 0 < store'.handles frame) : slot.Valid store' :=
  ⟨h.free, h.marks, h.standIn,
    fun hp frame hf => (h.produced hp frame hf).evolves he (hheld frame hf), h.listed⟩

end Slot

/-! ## Decoders -/

namespace Decoder

variable {d d' : Decoder} {layer : Nat} {others : List FrameId}

/-- All slots are sound. -/
def Sound (d : Decoder) : Prop := ∀ ref slot, d.slot? ref = some slot → slot.Sound d.store

/-- **In the middle of a derivation** in `layer`: slots are valid, and only the pictures of that
layer may have lost their last flag. -/
def Underway (d : Decoder) (layer : Nat) : Prop :=
  ∀ ref slot, d.slot? ref = some slot →
    slot.Valid d.store ∧ (ref.layer ≠ layer → slot.isFree = false → slot.InUse)

/-- Slots whose frames are held stay valid. -/
theorem valid_evolves {ref : SlotRef} {slot : Slot} (h : slot.Valid d.store)
    (he : d.store.Evolves d'.store) (ha : d'.Accounted others) (hs : d'.slot? ref = some slot) :
    slot.Valid d'.store :=
  h.evolves he fun _ hf => Shared.Accounted.pos ha (List.mem_append_left others (mem_frames hs hf))

/-- The slots stay as they are, and so does their soundness. -/
theorem Sound.evolves (h : d.Sound) (hslots : ∀ ref, d'.slot? ref = d.slot? ref)
    (he : d.store.Evolves d'.store) (ha : d'.Accounted others) : d'.Sound := by
  intro ref slot hs
  obtain ⟨hv, hkept⟩ := Slot.sound_iff.mp (h ref slot ((hslots ref).symm.trans hs))
  exact Slot.sound_iff.mpr ⟨valid_evolves hv he ha hs, hkept⟩

/-- Ageing keeps the slots sound. -/
theorem Sound.ages (h : d.Sound) (hages : d.Ages d') (he : d.store.Evolves d'.store)
    (ha : d'.Accounted others) : d'.Sound := by
  intro ref slot hs
  obtain ⟨old, hold, hslot⟩ := hages.slot hs
  obtain ⟨hv, hkept⟩ := Slot.sound_iff.mp ((h ref old hold).ages hslot)
  exact Slot.sound_iff.mpr ⟨valid_evolves hv he ha hs, hkept⟩

/-- A picture that enters is sound. -/
theorem sound_startPicture (h : d.Sound) (layer : Nat) (info : PictureInfo)
    (ha : (d.startPicture layer info).2.Accounted others) :
    (d.startPicture layer info).2.Sound := by
  have he := (d.quiet_startPicture layer info).evolves
  obtain ⟨fault, -, hages, -⟩ | ⟨index, -, hbegins⟩ := d.startPicture_slots layer info
  · exact h.ages hages he ha
  · intro ref slot hs
    by_cases hr : ref = ⟨layer, index⟩
    · obtain ⟨sps, frame, hentered⟩ := hbegins.entered
      subst hr
      obtain rfl := Option.some.inj (hs.symm.trans hentered)
      refine Slot.sound_iff.mpr
        ⟨Slot.valid_new (fun hm => by cases hm.2) (fun hp => by cases hp) sps, fun _ => ?_⟩
      change Flags.isEmpty { output := info.output, shortTerm := true } = false
      simp [Flags.isEmpty]
    · obtain ⟨hv, hkept⟩ := Slot.sound_iff.mp (h ref slot ((hbegins.others ref hr).symm.trans hs))
      exact Slot.sound_iff.mpr ⟨valid_evolves hv he ha hs, hkept⟩

/-! ### Derivations -/

theorem underway_clearSets (h : d.Sound) (layer : Nat) (ha : (d.clearSets layer).Accounted others) :
    (d.clearSets layer).Underway layer := by
  intro ref slot hs
  have he := (d.steady_clearSets layer).evolves
  suffices hsuff : slot.Valid d.store ∧ (ref.layer ≠ layer → slot.isFree = false → slot.InUse) from
    ⟨valid_evolves hsuff.1 he ha hs, hsuff.2⟩
  rw [slot?_clearSets] at hs
  split at hs
  · rename_i hl
    refine ⟨?_, fun hne => absurd hl hne⟩
    obtain ⟨old, hold, rfl⟩ := Option.map_eq_some_iff.mp hs
    have hv := (Slot.sound_iff.mp (h ref old hold)).1
    have hkept : (if old.flags.placeholder then old.strip .all else old).Valid d.store := by
      split
      · exact Slot.valid_strip hv .all
      · exact hv
    dsimp only
    split
    · exact hkept
    · exact Slot.valid_mark hkept .none
  · obtain ⟨hv, hkept⟩ := Slot.sound_iff.mp (h ref slot hs)
    exact ⟨hv, fun _ => hkept⟩

/-- A candidate that is entered leaves the slots valid, and no picture without a flag. -/
theorem Underway.enters {n : Nat} {sps : Sps} {c : Candidate} {index : Nat} {slot : Slot}
    (h : d.Underway layer) (hm : c.marking ≠ .none) (hent : d.Enters n sps c index slot d')
    (ha : d'.Accounted others) : d'.Underway layer := by
  intro ref new hs
  have he := hent.steady.evolves
  by_cases hr : ref = ⟨n, index⟩
  · subst hr
    obtain rfl := Option.some.inj (hs.symm.trans hent.marked)
    refine ⟨?_, fun _ _ => Slot.inUse_mark hm hent.source.held⟩
    cases hent.source with
    | found hold _ _ _ =>
      exact valid_evolves (Slot.valid_mark (h _ _ hold).1 c.marking) he ha hs
    | missing _ _ _ hslot hp =>
      rw [hslot]
      exact Slot.valid_mark (Slot.valid_new (fun hm => by cases hm.1) (fun _ => ⟨rfl, hp⟩) sps)
        c.marking
  · obtain ⟨hv, hkept⟩ := h ref new ((hent.others ref hr).symm.trans hs)
    exact ⟨valid_evolves hv he ha hs, hkept⟩

/-- **A derivation leaves the slots sound**, wherever it ends. -/
theorem sound_deriveSets (h : d.Sound) (layer : Nat) (hdr : SliceHeader)
    (ha : d.Accounted others) : (d.deriveSets layer hdr).2.Sound := by
  cases hg : d.layers.get? layer with
  | none =>
    rw [deriveSets_of_invalid hg]
    exact h
  | some l =>
    have hclear := (d.steady_clearSets layer).accounted others ha
    obtain ⟨haccounted, hunderway⟩ : (((d.clearSets layer).addHeader layer hdr).2.Accounted others ∧
        ((d.clearSets layer).addHeader layer hdr).2.Underway layer) := by
      refine addHeader_preserves (P := fun d' => d'.Accounted others ∧ d'.Underway layer) hdr
        ?_ ?_ ⟨hclear, underway_clearSets h layer hclear⟩
      · intro d store hp hsteady
        have ha' := hsteady.accounted others hp.1
        refine ⟨ha', fun ref slot hs => ?_⟩
        obtain ⟨hv, hkept⟩ := hp.2 ref slot hs
        exact ⟨valid_evolves hv hsteady.evolves ha' hs, hkept⟩
      · intro d d' n sps c index slot hm hp hent
        have ha' := hent.steady.accounted others hp.1
        exact ⟨ha', hp.2.enters hm hent ha'⟩
    have hsteady := ((d.clearSets layer).addHeader layer hdr).2.steady_stripWhere layer
      (fun _ => true) .empty
    have ha' := hsteady.accounted others haccounted
    rw [deriveSets_eq hg]
    intro ref slot hs
    suffices hsuff : slot.Sound ((d.clearSets layer).addHeader layer hdr).2.store by
      obtain ⟨hv, hkept⟩ := Slot.sound_iff.mp hsuff
      exact Slot.sound_iff.mpr ⟨valid_evolves hv hsteady.evolves ha' hs, hkept⟩
    dsimp only at hs
    rw [slot?_sweep] at hs
    split at hs
    · obtain ⟨old, hold, rfl⟩ := Option.map_eq_some_iff.mp hs
      exact Slot.sound_strip (hunderway ref old hold).1 .empty
    · rename_i hne
      obtain ⟨hv, hkept⟩ := hunderway ref slot hs
      exact Slot.sound_iff.mpr ⟨hv, hkept hne⟩

/-- **Every command leaves the slots sound**, whether it succeeds or fails. -/
theorem sound_run (h : d.Sound) (command : Command) (ha : d.Accounted others) :
    (d.run command).2.Sound := by
  have hg := d.grows_run command
  have ha' := hg.accounted others ha
  cases command with
  | startPicture layer info => exact sound_startPicture h layer info ha'
  | deriveSets layer hdr => exact sound_deriveSets h layer hdr ha
  | _ => exact h.ages (d.ages_run trivial) hg.evolves ha'

/-! ### Output -/

/-- A step fails if the slot holds no picture, or for want of memory or of room in the queue. -/
theorem bump_faults {pass : OutputPass} {ref : SlotRef} {slot : Slot} {fault : Fault}
    (h : (d.bump pass ref slot).1 = .error fault) :
    slot.frame = none ∨ fault.kind = .outOfResources := by
  have hb := bumped pass d ref slot
  generalize d.bump pass ref slot = result at h hb
  cases hb with
  | empty hf => exact Or.inl hf
  | @handed frame emission shared _ _ _ _ he =>
    cases emission with
    | ok emission => cases h
    | error fault' =>
      obtain rfl : fault' = fault := Except.error.inj h
      obtain rfl | rfl := Shared.emit_faults (congrArg Prod.fst he)
      · exact Or.inr rfl
      · exact Or.inr rfl
  | _ => cases h

/-- The victims of a pass hold a frame. -/
theorem held_of_moment (h : d.Sound) {pass : OutputPass} {m : Moment} (hm : m ∈ d.moments pass) :
    m.slot.frame.isSome = true := by
  obtain ⟨old, hold, hages⟩ := ((d.ages_output pass).2 m hm).slot (moments_slot? hm)
  have hsound := (h m.ref old hold).ages hages
  have ho := (mem_pending.mp (mem_pending_of_nextVictim? (moments_victim hm).2)).2.2
  have huse : m.slot.InUse := by simp [Slot.InUse, Flags.isEmpty, ho]
  exact hsound.held.mpr huse

/-- **An output pass over sound slots fails for want of memory or of room in the queue**, and in no
other way: a picture that waits for output has a frame. -/
theorem output_faults (h : d.Sound) {pass : OutputPass} {fault : Fault}
    (he : (d.output pass).1 = .error fault) : fault.kind = .outOfResources := by
  obtain ⟨m, hm, hfault⟩ := output_error_iff.mp he
  rcases bump_faults hfault with hf | hkind
  · have hsome := held_of_moment h hm
    rw [hf] at hsome
    cases hsome
  · exact hkind

end Decoder

/-! ## Sessions -/

namespace Session

variable {s : Session} {i : Nat} {d : Decoder}

/-- The slots of all decoders are sound. -/
def Sound (s : Session) : Prop := ∀ i d, s.decoder? i = some d → d.Sound

/-- A session starts with empty slots. -/
theorem slot?_start {config : Config} {provider : Provider} {ref : SlotRef} {slot : Slot}
    (hd : (start config provider).decoder? i = some d) (hs : d.slot? ref = some slot) :
    slot = {} := by
  obtain ⟨hc, -⟩ := decoder?_eq hd
  have hd' : d.toContext = .initial config := by
    rcases i with _ | i
    · exact (Option.some.inj hc).symm
    · cases hc
  have hempty : ∀ layer capacity, (Dpb.empty layer capacity).slot? ref.index = some slot →
      slot = {} := fun _ _ h => List.eq_of_mem_replicate (List.mem_of_getElem? h)
  unfold Decoder.slot? Decoder.layer? at hs
  rw [hd'] at hs
  obtain ⟨n, index⟩ := ref
  match n with
  | 0 => exact hempty _ _ hs
  | 1 => exact hempty _ _ hs
  | n + 2 => cases hs

theorem sound_start (config : Config) (provider : Provider) : (start config provider).Sound := by
  intro i d hd ref slot hs
  rw [slot?_start hd hs]
  exact Slot.sound_iff.mpr ⟨Slot.valid_empty 0 _, fun hf => by cases hf⟩

/-- **Whatever happens, the slots stay sound.** -/
theorem sound_step (h : s.Sound) (ha : s.Accounted) (e : Event) : (s.step e).2.Sound := by
  have ha' := accounted_step ha e
  have hev := s.evolves_step e
  intro j d hd
  obtain ⟨i, old, hold, ⟨command, rfl, rfl⟩ | ⟨owns, hcontext⟩⟩ := decoder?_step hd
  · exact Decoder.sound_run (h i old hold) command ((accounted_iff hold).mp ha)
  · have hslots : ∀ ref, d.slot? ref = old.slot? ref := by
      intro ref
      rw [Decoder.slot?, Decoder.layer?, hcontext]
      rfl
    refine (h i old hold).evolves hslots ?_ ((accounted_iff hd).mp ha')
    rw [(decoder?_eq hold).2, (decoder?_eq hd).2]
    exact hev

variable {config : Config} {provider : Provider} {log : List Moment}

theorem sound_run (run : Run config provider log s) : s.Sound := by
  induction run with
  | start => exact sound_start config provider
  | step run e ih => exact sound_step ih (accounted_run run) e

/-- **In every state of every run, the slots of every decoder are sound**, and so no output pass
fails with an internal fault. -/
theorem slots_sound (run : Run config provider log s) (hd : s.decoder? i = some d) :
    (∀ ref slot, d.slot? ref = some slot → slot.Sound d.store) ∧
    ∀ pass fault, (d.output pass).1 = .error fault → fault.kind ≠ .internal := by
  have h := sound_run run i d hd
  refine ⟨h, fun pass fault he => ?_⟩
  rw [Decoder.output_faults h he]
  decide

/-- A picture is decoded whose one reference is missing. -/
def missingReference : List Event :=
  [.run 0 (.setSps 0 { width := 2, height := 2 }),
    .run 0 (.startPicture 0 { poc := 10, output := true, numSlices := 1, pps := {} }),
    .run 0 (.deriveSets 0
      { shortTerm := some { deltas := [-1], used := [true], numNegative := 1 } })]

/-- The slots are sound when a stand-in was made. -/
theorem missingReference_sound : ∃ log d standIn,
    Run {} {} log ((start {} {}).afterAll missingReference) ∧
    ((start {} {}).afterAll missingReference).decoder? 0 = some d ∧
    d.slot? ⟨0, 1⟩ = some standIn ∧ standIn.flags.placeholder = true ∧
    (∀ ref slot, d.slot? ref = some slot → slot.Sound d.store) ∧
    ∀ pass fault, (d.output pass).1 = .error fault → fault.kind ≠ .internal := by
  have run := run_all missingReference (@Run.start {} {})
  obtain ⟨d, hd⟩ : ∃ d, ((start {} {}).afterAll missingReference).decoder? 0 = some d := ⟨_, rfl⟩
  obtain ⟨standIn, hs, hp⟩ : ∃ slot, d.slot? ⟨0, 1⟩ = some slot ∧
      slot.flags.placeholder = true := by
    cases hd
    exact ⟨_, rfl, rfl⟩
  exact ⟨_, d, standIn, run, hd, hs, hp, slots_sound run hd⟩

end Session

end PictureBuffer
