import PictureBuffer.Proofs.Distinctness
import PictureBuffer.Proofs.Marks
import PictureBuffer.Proofs.Untouched

/-!
# Reference lists name pictures that are there

An entry of a reference list is the number of a slot and a picture order count. It can be used as
long as the slot **serves** it (`Decoder.Serves`): the slot holds a picture of that order count,
which is marked as a reference.

* A derivation leaves sets whose entries are served (`servesSets_deriveSets`). A candidate is marked
  when it is entered, so the sweep at the end keeps it, and a stand-in only takes a slot that is
  free, which serves nobody.
* The commands that follow until another picture is started, the marks change or the pictures are
  removed (`Command.keepsReferences`) may take off output flags, in both layers, but a marked
  picture outlives its output flag (`Serves.run`).
* The entries of a list come from the sets, or are the current picture (`mem_cycle`), which is a
  reference from its start on.

So every list that a decoder is given for the slices of a picture names pictures that are there, and
they are there for as long as the decoder goes on with such commands (`lists_stay_valid`).
-/

namespace PictureBuffer

/-! ## Where the entries of a list come from -/

namespace RefList

variable {list : RefList} {entry e : RefEntry}

theorem mem_push (h : e ∈ (list.push entry).entries) : e ∈ list.entries ∨ e = entry := by
  unfold push at h
  split at h
  · exact Or.inl h
  · rcases List.mem_append.mp h with h | h
    · exact Or.inl h
    · exact Or.inr (List.mem_singleton.mp h)

theorem mem_pushAll {cycle : List RefEntry} (h : e ∈ (list.pushAll cycle).entries) :
    e ∈ list.entries ∨ e ∈ cycle := by
  induction cycle generalizing list with
  | nil => exact Or.inl h
  | cons entry cycle ih =>
    rcases ih h with hlist | hcycle
    · rcases mem_push hlist with hold | rfl
      · exact Or.inl hold
      · exact Or.inr List.mem_cons_self
    · exact Or.inr (List.mem_cons_of_mem entry hcycle)

/-- A list is filled from its cycle. -/
theorem mem_fill {cycle : List RefEntry} {count : Nat} (h : e ∈ (fill cycle count list).entries) :
    e ∈ list.entries ∨ e ∈ cycle := by
  fun_induction fill cycle count list with
  | case1 list _ ih =>
    rcases ih h with hround | hcycle
    · exact mem_pushAll hround
    · exact Or.inr hcycle
  | case2 list _ => exact Or.inl h

end RefList

namespace SliceLists

variable {params : ListParams} {temp taken list : RefList} {is : List Nat} {e : RefEntry}

theorem mem_foldlM_addNamed (h : is.foldlM (addNamed params temp) taken = .ok list)
    (he : e ∈ list.entries) : e ∈ taken.entries ∨ e ∈ temp.entries := by
  induction is generalizing taken with
  | nil =>
    cases h
    exact Or.inl he
  | cons i is ih =>
    rw [List.foldlM_cons, addNamed] at h
    cases hget : named? params temp i with
    | none =>
      rw [hget] at h
      cases h
    | some entry =>
      rw [hget] at h
      rcases ih h with hpush | htemp
      · rcases RefList.mem_push hpush with hold | rfl
        · exact Or.inl hold
        · exact Or.inr (List.mem_of_getElem? hget)
      · exact Or.inr htemp

theorem mem_explicit (h : explicit params temp = .ok list) (he : e ∈ list.entries) :
    e ∈ temp.entries := by
  rcases mem_foldlM_addNamed ((explicit_eq params temp).symm.trans h) he with hnone | htemp
  · cases hnone
  · exact htemp

theorem mem_leading {current : Option RefEntry}
    (he : e ∈ (leading params temp current).entries) : e ∈ temp.entries ∨ current = some e := by
  have taken : ∀ {e}, e ∈ (temp.take params.numRefs).entries → e ∈ temp.entries :=
    fun h => List.mem_of_mem_take h
  unfold leading at he
  cases current with
  | none => exact Or.inl (taken he)
  | some entry =>
    dsimp only at he
    split at he
    · rcases List.mem_or_eq_of_mem_set he with hold | rfl
      · exact Or.inl (taken hold)
      · exact Or.inr rfl
    · exact Or.inl (taken he)

/-- **The entries of a list are candidates, or the current picture.** -/
theorem mem_build {candidates : List RefEntry} {current : Option RefEntry}
    (h : build params candidates current = .ok list) (he : e ∈ list.entries) :
    e ∈ candidates ++ current.toList := by
  have filled : ∀ {e}, e ∈ (RefList.fill (candidates ++ current.toList) params.numRefs {}).entries →
      e ∈ candidates ++ current.toList := by
    intro e hm
    rcases RefList.mem_fill hm with hnone | hcycle
    · cases hnone
    · exact hcycle
  unfold build at h
  split at h
  · cases h
  · dsimp only at h
    split at h
    · exact filled (mem_explicit h he)
    · cases h
      rcases mem_leading he with htemp | rfl
      · exact filled htemp
      · exact List.mem_append_right _ List.mem_cons_self

end SliceLists

/-! ## Slots that serve -/

namespace Slot

variable {slot slot' : Slot} {poc : Int}

/-- **The slot serves references** to the picture with order count `poc`: it holds it, marked as a
short-term or a long-term reference. -/
structure Serves (slot : Slot) (poc : Int) : Prop where
  held : slot.isFree = false
  inUse : slot.InUse
  poc_eq : slot.poc = poc
  marked : slot.flags.shortTerm = true ∨ slot.flags.longTerm = true

theorem inUse_of_marked (h : slot.flags.shortTerm = true ∨ slot.flags.longTerm = true) :
    slot.InUse := by
  rcases h with h | h
  · simp [InUse, Flags.isEmpty, h]
  · simp [InUse, Flags.isEmpty, h]

/-- The lists of its slices are nothing to those who refer to a picture. -/
theorem Serves.of_unlisted (h : slot.Serves poc) (he : slot'.unlisted = slot.unlisted) :
    slot'.Serves poc := by
  have hflags : slot'.flags = slot.flags := (congrArg Slot.flags he : _)
  have hpoc : slot'.poc = slot.poc := (congrArg Slot.poc he : _)
  have hfree : slot'.isFree = slot.isFree := (congrArg Slot.isFree he : _)
  refine ⟨hfree.trans h.held, ?_, hpoc.trans h.poc_eq, ?_⟩
  · rw [InUse, hflags]
    exact h.inUse
  · rw [hflags]
    exact h.marked

/-- A marked picture outlives the flags that are no marks. -/
theorem Serves.strip (h : slot.Serves poc) {mask : Flags} (hs : mask.shortTerm = false)
    (hl : mask.longTerm = false) : (slot.strip mask).Serves poc := by
  have hmarked : (slot.strip mask).flags.shortTerm = true ∨
      (slot.strip mask).flags.longTerm = true := by
    rw [flags_strip]
    simpa [Flags.without, hs, hl] using h.marked
  have huse : (slot.flags.without mask).isEmpty = false := by
    rw [← flags_strip]
    exact inUse_of_marked hmarked
  refine ⟨?_, inUse_of_marked hmarked, ?_, hmarked⟩
  · rw [isFree, frame_strip, huse]
    exact h.held
  · rw [poc_strip]
    exact h.poc_eq

/-- A picture that gets a marking serves. -/
theorem serves_mark {marking : Marking} (hm : marking ≠ .none) (held : slot.isFree = false) :
    (slot.mark marking).Serves slot.poc := by
  have hmarked : (slot.mark marking).flags.shortTerm = true ∨
      (slot.mark marking).flags.longTerm = true := by
    rw [flags_mark, held, if_neg Bool.false_ne_true]
    cases marking with
    | none => exact absurd rfl hm
    | shortTerm => exact Or.inl (by simp [Flags.union, Marking.flags])
    | longTerm => exact Or.inr (by simp [Flags.union, Marking.flags])
  have hsame : (slot.mark marking).isFree = slot.isFree ∧ (slot.mark marking).poc = slot.poc := by
    rw [mark, if_neg (by simp [held])]
    exact ⟨rfl, rfl⟩
  exact ⟨hsame.1.trans held, inUse_of_marked hmarked, hsame.2, hmarked⟩

end Slot

/-! ## Decoders that serve -/

/-- The command starts no picture, takes no marks away and removes no pictures. -/
def Command.keepsReferences : Command → Bool
  | .startPicture .. | .unmarkAll _ | .deriveSets .. | .flush | .clear => false
  | _ => true

namespace Decoder

variable {d d' : Decoder} {ref : SlotRef} {poc : Int} {layer : Nat} {hdr : SliceHeader}
  {command : Command} {given : List SliceLists}

/-- **A slot serves references** to the picture with order count `poc`. -/
def Serves (d : Decoder) (ref : SlotRef) (poc : Int) : Prop :=
  ∃ slot, d.slot? ref = some slot ∧ slot.Serves poc

theorem Serves.of_slot? (h : d.Serves ref poc) (hs : d'.slot? ref = d.slot? ref) :
    d'.Serves ref poc := by
  obtain ⟨slot, hslot, hserves⟩ := h
  exact ⟨slot, hs.trans hslot, hserves⟩

theorem Serves.of_relists (h : d.Serves ref poc) (hr : d.Relists d') : d'.Serves ref poc := by
  obtain ⟨slot, hs, hserves⟩ := h
  have hslot := hr ref
  rw [hs, Option.map_some, Option.map_eq_some_iff] at hslot
  obtain ⟨slot', hs', he⟩ := hslot
  exact ⟨slot', hs', hserves.of_unlisted he⟩

theorem Serves.stripOutput (h : d.Serves ref poc) (x : SlotRef) :
    (d.stripOutput x).Serves ref poc := by
  have hslot := d.slot?_stripOutput x ref
  split at hslot
  · obtain ⟨slot, hs, hserves⟩ := h
    rw [hs] at hslot
    exact ⟨_, hslot, hserves.strip rfl rfl⟩
  · exact h.of_slot? hslot

theorem Serves.sweep (h : d.Serves ref poc) (n : Nat) :
    (d.onDpb n Dpb.sweep).Serves ref poc := by
  have hslot := d.slot?_sweep n ref
  split at hslot
  · obtain ⟨slot, hs, hserves⟩ := h
    rw [hs] at hslot
    exact ⟨_, hslot, hserves.strip rfl rfl⟩
  · exact h.of_slot? hslot

/-- Output takes no reference away, from whichever layer. -/
theorem Serves.output (h : d.Serves ref poc) (pass : OutputPass) :
    (d.output pass).2.Serves ref poc := by
  refine (@output_preserves d pass (·.Serves ref poc) ?_ h).1
  intro d y slot h _
  exact bump_preserves (P := (·.Serves ref poc)) h (fun _ => h) (fun _ _ => h)
    (fun _ h => h.stripOutput y) pass

/-- **What serves goes on serving** until the marks change or the pictures are removed. -/
theorem Serves.run (h : d.Serves ref poc) (hk : command.keepsReferences = true) :
    (d.run command).2.Serves ref poc := by
  cases command with
  | output pass => exact h.output pass
  | startPicture | unmarkAll | deriveSets | flush | clear => cases hk
  | _ => exact h.of_relists (d.relists_run trivial)

/-! ### Sets that are served -/

/-- **Every entry of the sets is served.** -/
def ServesSets (d : Decoder) : Prop :=
  ∀ subset, ∀ entry ∈ (d.sets.get subset).entries, d.Serves entry.slot entry.poc

/-- A candidate that is entered is marked, and takes nobody's place. -/
theorem ServesSets.enters {n : Nat} {sps : Sps} {c : Candidate} {index : Nat} {slot : Slot}
    (h : d.ServesSets) (hm : c.marking ≠ .none) (he : d.Enters n sps c index slot d') :
    d'.ServesSets := by
  have hnew : d'.Serves ⟨n, index⟩ slot.poc := ⟨_, he.marked, Slot.serves_mark hm he.source.held⟩
  intro subset entry hentry
  rw [he.sets, RefSets.entries_push he.room, List.mem_append] at hentry
  rcases hentry with hold | hentered
  · have hserves := h subset entry hold
    by_cases hr : entry.slot = ⟨n, index⟩
    · obtain ⟨old, hs, hold⟩ := hserves
      rw [hr] at hs ⊢
      cases he.source with
      | found hfound =>
        obtain rfl : old = slot := Option.some.inj (hs.symm.trans hfound)
        rw [← hold.poc_eq]
        exact hnew
      | missing _ hfree free =>
        -- A stand-in would have taken a slot that serves.
        obtain rfl := Option.some.inj (hs.symm.trans hfree)
        rw [hold.held] at free
        cases free
    · exact hserves.of_slot? (he.others _ hr)
  · split at hentered
    · obtain rfl := List.mem_singleton.mp hentered
      exact hnew
    · cases hentered

/-- **A derivation leaves sets whose entries are served**, whether it ends early or not. -/
theorem servesSets_deriveSets {l : Layer} (hg : d.layers.get? layer = some l) (hdr : SliceHeader) :
    (d.deriveSets layer hdr).2.ServesSets := by
  have hclear : (d.clearSets layer).ServesSets := by
    intro subset entry hm
    cases subset <;> cases hm
  have hadd := @addHeader_preserves _ layer ServesSets hdr (fun h _ => h)
    (fun hm h he => h.enters hm he) hclear
  rw [deriveSets_eq hg]
  intro subset entry hm
  rw [sets_onDpb] at hm
  exact (hadd subset entry hm).sweep layer

/-! ### Pictures that lists may name -/

/-- What the lists of the next slices are taken from: the sets, and the current picture. -/
def nameable (d : Decoder) : RefSets × Option SlotRef × Int := (d.sets, d.current, d.poc)

/-- **All that a list may name is served.** -/
structure ServesLists (d : Decoder) : Prop where
  sets : d.ServesSets
  current : ∀ ref, d.current = some ref → d.Serves ref d.poc

theorem nameable_run (d : Decoder) (hk : command.keepsReferences = true) :
    (d.run command).2.nameable = d.nameable := by
  cases command with
  | setVps | setSei | setDts | setDuration | dropStash => rfl
  | setSps n sps =>
    dsimp only [run, setSps]
    split
    · rfl
    · unfold modifyLayer
      split <;> rfl
  | finishPicture =>
    dsimp only [run, finishPicture]
    split
    · obtain ⟨store, he⟩ := d.updateFrame_eq _ (·.produce)
      rw [he]
      rfl
    · rfl
  | startSlice hdr slice =>
    obtain ⟨layers, he⟩ := d.startSlice_eq hdr slice
    exact (congrArg nameable he : _)
  | buildLists hdr slice =>
    obtain ⟨layers, collocated, he⟩ := d.buildLists_eq hdr slice
    exact (congrArg nameable he : _)
  | output pass =>
    obtain ⟨layers, shared, he⟩ := (d.output_eq pass).1
    exact (congrArg nameable he : _)
  | startPicture | unmarkAll | deriveSets | flush | clear => cases hk

theorem ServesLists.run (h : d.ServesLists) (hk : command.keepsReferences = true) :
    (d.run command).2.ServesLists := by
  have hname := d.nameable_run hk
  have hsets : (d.run command).2.sets = d.sets := congrArg Prod.fst hname
  have hcurrent : (d.run command).2.current = d.current := congrArg (·.2.1) hname
  have hpoc : (d.run command).2.poc = d.poc := congrArg (·.2.2) hname
  constructor
  · intro subset entry hm
    rw [hsets] at hm
    exact (h.sets subset entry hm).run hk
  · intro ref hc
    rw [hcurrent] at hc
    rw [hpoc]
    exact (h.current ref hc).run hk

/-- A picture that was started is a reference. -/
theorem serves_startPicture {info : PictureInfo}
    (h : (d.startPicture layer info).1 = .ok ref) :
    (d.startPicture layer info).2.current = some ref ∧
      (d.startPicture layer info).2.Serves ref (d.startPicture layer info).2.poc := by
  obtain ⟨fault, he, -⟩ | ⟨index, he, hbegins⟩ := d.startPicture_slots layer info
  · rw [h] at he
    cases he
  · rw [h] at he
    cases he
    obtain ⟨sps, frame, hslot⟩ := hbegins.entered
    have hpoc : (d.startPicture layer info).2.poc = info.poc := by
      obtain ⟨_, he, -⟩ | ⟨_, _, he, -⟩ | ⟨_, _, _, _, _, _, -, he, -⟩ :=
        d.startPicture_cases layer info
      · rw [he] at h
        cases h
      · rw [he] at h
        cases h
      · rw [he]
        rfl
    rw [hpoc]
    exact ⟨hbegins.current, _, hslot, rfl, Slot.inUse_of_marked (Or.inl rfl), rfl, Or.inl rfl⟩

/-! ### The lists of a slice -/

/-- **The entries of a cycle** name what the sets name, or the current picture. -/
theorem mem_cycle {second : Bool} {e : RefEntry} (h : e ∈ d.cycle ref second) :
    (∃ subset, ∃ entry ∈ (d.sets.get subset).entries, e.slot = entry.slot ∧ e.poc = entry.poc) ∨
      (e.slot = ref ∧ e.poc = d.poc) := by
  rw [cycle, List.mem_append] at h
  rcases h with h | h
  · rw [← RefSets.candidates_eq, RefSets.candidates, List.mem_flatMap] at h
    obtain ⟨subset, -, hm⟩ := h
    obtain ⟨entry, hentry, rfl⟩ := List.mem_map.mp hm
    exact Or.inl ⟨subset, entry, hentry, rfl, rfl⟩
  · rw [Option.mem_toList, selfEntry] at h
    split at h
    · cases h
      exact Or.inr ⟨rfl, rfl⟩
    · cases h

/-- **Every entry of the lists that a slice is given is served.** -/
theorem serves_buildLists (hs : d.ServesLists) {slice : Nat} {lists : SliceLists}
    (h : (d.buildLists hdr slice).1 = .ok lists) (second : Bool) :
    ∀ e ∈ (lists.list second).entries, d.Serves e.slot e.poc := by
  intro e hm
  obtain ⟨⟨ref, _, _, _, hselects⟩, hintra⟩ := selects_of_buildLists h
  have hcur := hselects.current
  by_cases htype : hdr.type = .i
  · rw [hintra htype] at hm
    cases second <;> cases hm
  · obtain ⟨hused, hunused⟩ :=
      (buildUsed_ok_iff htype).mp (buildUsed_of_buildLists hcur htype h second).2
    by_cases hu : hdr.Uses second
    · rcases mem_cycle (SliceLists.mem_build (hused second hu) hm) with
        ⟨subset, entry, hentry, hslot, hpoc⟩ | ⟨hslot, hpoc⟩
      · rw [hslot, hpoc]
        exact hs.sets subset entry hentry
      · rw [hslot, hpoc]
        exact hs.current ref hcur
    · rw [hunused second hu] at hm
      cases hm

/-! ### Lists that were given -/

/-- What the lists that a decoder was given can be used for. -/
structure ServesGiven (d : Decoder) (given : List SliceLists) : Prop extends d.ServesLists where
  given : ∀ lists ∈ given, ∀ second, ∀ entry ∈ (lists.list second).entries,
    d.Serves entry.slot entry.poc

theorem ServesGiven.of_context {d' : Decoder} (h : d.ServesGiven given)
    (hc : d'.toContext = d.toContext) : d'.ServesGiven given := by
  obtain ⟨_, _⟩ := d'
  obtain rfl := hc
  exact ⟨⟨h.sets, h.current⟩, h.given⟩

theorem ServesGiven.run {command : Command} (h : d.ServesGiven given)
    (hk : command.keepsReferences = true) : (d.run command).2.ServesGiven given :=
  ⟨h.toServesLists.run hk,
    fun lists hl second entry he => (h.given lists hl second entry he).run hk⟩

/-- New lists are served like those that the decoder was given before. -/
theorem ServesGiven.buildLists (h : d.ServesGiven given) (hdr : SliceHeader) (slice : Nat) :
    (d.run (.buildLists hdr slice)).2.ServesGiven
      (given ++ (d.buildLists hdr slice).1.toOption.toList) := by
  have hrun : (d.run (.buildLists hdr slice)).2.ServesGiven given := h.run rfl
  refine ⟨hrun.toServesLists, fun lists hm second entry he => ?_⟩
  rcases List.mem_append.mp hm with hold | hnew
  · exact hrun.given lists hold second entry he
  · cases hl : (d.buildLists hdr slice).1 with
    | error fault =>
      rw [hl] at hnew
      cases hnew
    | ok built =>
      rw [hl] at hnew
      obtain rfl : lists = built := List.mem_singleton.mp hnew
      exact (serves_buildLists h.toServesLists hl second entry he).run rfl

/-- The current picture is a reference, and is held as such. -/
structure BeginsReferring (d : Decoder) (ref : SlotRef) : Prop where
  current : d.current = some ref
  serves : d.Serves ref d.poc
  holds : d.HoldsCurrent

theorem BeginsReferring.of_context {d' : Decoder} {ref : SlotRef} (h : d.BeginsReferring ref)
    (hc : d'.toContext = d.toContext) : d'.BeginsReferring ref := by
  obtain ⟨_, _⟩ := d'
  obtain rfl := hc
  exact ⟨h.current, h.serves, h.holds⟩

/-- A derivation leaves the current picture a reference, and makes one of all that it enters. -/
theorem BeginsReferring.deriveSets {ref : SlotRef}
    {others : List FrameId} (h : d.BeginsReferring ref) (hsound : d.Sound) (ha : d.Accounted others)
    (hr : (d.deriveSets layer hdr).1 = .ok ()) :
    (d.run (.deriveSets layer hdr)).2.ServesGiven [] := by
  have hderiving := d.deriving_deriveSets layer hdr
  have hslot := slot?_current_deriveSets hsound h.holds ha layer hdr h.current
  refine ⟨⟨?_, fun ref' hc => ?_⟩, fun _ hm => by cases hm⟩
  · cases hg : d.layers.get? layer with
    | none =>
      rw [deriveSets_of_invalid hg] at hr
      cases hr
    | some l => exact servesSets_deriveSets hg hdr
  · obtain rfl : ref = ref' :=
      Option.some.inj (h.current.symm.trans (hderiving.current_eq.symm.trans hc))
    have hserves := h.serves.of_slot? hslot
    rwa [← hderiving.poc_eq] at hserves

end Decoder

/-! ## Sessions -/

namespace Session

variable {config : Config} {provider : Provider} {log : List Moment} {s : Session} {i : Nat}
  {d : Decoder} {given : List SliceLists}

/-- **Decoder `i` refers to the pictures of its sets**: it has started a picture, its next command
was a derivation for the same layer, which succeeded, and those that followed have kept the
references. All lists that it was `given` since are listed. -/
inductive Referring (config : Config) (provider : Provider) :
    Session → Nat → List SliceLists → Prop
  | derived {log log' : List Moment} {s s' : Session} {i layer : Nat} {d d' : Decoder}
      {info : PictureInfo} {ref : SlotRef} {hdr : SliceHeader} (run : Run config provider log s)
      (hd : s.decoder? i = some d) (hs : (d.startPicture layer info).1 = .ok ref)
      (between : Stretch (fun _ _ e => ∀ command, e ≠ .run i command)
        (log ++ s.moments (.run i (.startPicture layer info)))
        (s.step (.run i (.startPicture layer info))).2 log' s')
      (hd' : s'.decoder? i = some d') (hr : (d'.deriveSets layer hdr).1 = .ok ()) :
      Referring config provider (s'.step (.run i (.deriveSets layer hdr))).2 i []
  | listed {s : Session} {i : Nat} {d : Decoder} {given : List SliceLists} {hdr : SliceHeader}
      {slice : Nat} (h : Referring config provider s i given) (hd : s.decoder? i = some d) :
      Referring config provider (s.step (.run i (.buildLists hdr slice))).2 i
        (given ++ (d.buildLists hdr slice).1.toOption.toList)
  | other {s : Session} {i : Nat} {given : List SliceLists} {e : Event}
      (h : Referring config provider s i given)
      (he : ∀ command, e = .run i command → command.keepsReferences = true ∧
        ∀ hdr slice, command ≠ .buildLists hdr slice) :
      Referring config provider (s.step e).2 i given

/-- As long as a decoder carries out no command, it stays as it is. -/
theorem beginsReferring_stretch {ref : SlotRef} {log' : List Moment} {s' : Session}
    (h : Stretch (fun _ _ e => ∀ command, e ≠ .run i command) log s log' s')
    (hk : i < s.contexts.length) (hb : ∀ d, s.decoder? i = some d → d.BeginsReferring ref) :
    ∀ d, s'.decoder? i = some d → d.BeginsReferring ref := by
  suffices i < s'.contexts.length ∧ ∀ d, s'.decoder? i = some d → d.BeginsReferring ref from this.2
  induction h with
  | refl => exact ⟨hk, hb⟩
  | @step _ s' _ e he ih =>
    refine ⟨Nat.lt_of_lt_of_le ih.1 (s'.length_contexts_step e), ?_⟩
    exact carried_step ih.1 Decoder.BeginsReferring.of_context (fun hrun => absurd hrun (he _)) ih.2

/-- What holds as long as a decoder refers to the pictures of its sets. -/
theorem servesGiven_of_referring (h : Referring config provider s i given) :
    i < s.contexts.length ∧ ∀ d, s.decoder? i = some d → d.ServesGiven given := by
  induction h with
  | @derived _ _ s s' i layer d _ info ref hdr run hd hs between hd' hr =>
    have hstarted := decoder?_run hd (.startPicture layer info)
    have run' := between.run (run.step (.run i (.startPicture layer info)))
    have hbegins : ∀ d₁, (s.step (.run i (.startPicture layer info))).2.decoder? i = some d₁ →
        d₁.BeginsReferring ref := by
      intro d₁ hd₁
      obtain rfl := Option.some.inj (hstarted.symm.trans hd₁)
      obtain ⟨hcurrent, hserves⟩ := Decoder.serves_startPicture hs
      exact ⟨hcurrent, hserves, Decoder.holdsCurrent_startPicture hs⟩
    have hlt := lt_length_of_context? (decoder?_eq hstarted).1
    have hb := beginsReferring_stretch between hlt hbegins _ hd'
    have hderived := decoder?_run hd' (.deriveSets layer hdr)
    refine ⟨lt_length_of_context? (decoder?_eq hderived).1, fun d₁ hd₁ => ?_⟩
    obtain rfl := Option.some.inj (hderived.symm.trans hd₁)
    exact hb.deriveSets (sound_run run' i _ hd') ((accounted_iff hd').mp (accounted_run run')) hr
  | @listed s i d given hdr slice _ hd ih =>
    have hlisted := decoder?_run hd (.buildLists hdr slice)
    refine ⟨lt_length_of_context? (decoder?_eq hlisted).1, fun d₁ hd₁ => ?_⟩
    obtain rfl := Option.some.inj (hlisted.symm.trans hd₁)
    exact (ih.2 d hd).buildLists hdr slice
  | @other s i given e _ he ih =>
    refine ⟨Nat.lt_of_lt_of_le ih.1 (s.length_contexts_step e), ?_⟩
    refine carried_step ih.1 Decoder.ServesGiven.of_context ?_ ih.2
    exact fun hrun _ hg => hg.run (he _ hrun).1

/-- **Reference lists stay valid**: as long as a decoder refers to the pictures of its sets, every
entry of every list that it was given names a slot in use, with a picture of the order count of the
entry that is marked as a short-term or a long-term reference; be it of the other layer, a stand-in,
or the current picture. -/
theorem lists_stay_valid (h : Referring config provider s i given) (hd : s.decoder? i = some d)
    {lists : SliceLists} (hl : lists ∈ given) (second : Bool) :
    ∀ entry ∈ (lists.list second).entries, ∃ slot, d.slot? entry.slot = some slot ∧
      slot.isFree = false ∧ slot.InUse ∧ slot.poc = entry.poc ∧
      (slot.flags.shortTerm = true ∨ slot.flags.longTerm = true) := by
  intro entry he
  obtain ⟨slot, hs, hserves⟩ :=
    ((servesGiven_of_referring h).2 d hd).given lists hl second entry he
  exact ⟨slot, hs, hserves.held, hserves.inUse, hserves.poc_eq, hserves.marked⟩

/-- A picture of both layers is decoded in the base layer. -/
def baseDecoded : Session :=
  (start {} {}).afterAll
    [.run 0 (.setSps 0 { width := 2, height := 2 }),
      .run 0 (.setSps 1 { width := 2, height := 2 }),
      .run 0 (.startPicture 0 { poc := 8, output := true, numSlices := 1, pps := {} }),
      .run 0 .finishPicture]

/-- Its slices refer to a picture of order count `5`, which is missing, to the base layer's picture
and to the picture itself. -/
def namesThree : SliceHeader where
  type := .p
  shortTerm := some { deltas := [-3], used := [true], numNegative := 1 }
  interLayer := true
  list0 := { numRefs := 3 }

/-- Its sets are derived in the enhancement layer, by a decoder that was copied before. -/
def enhancementDerived : Session :=
  baseDecoded.afterAll
    [.run 0 (.startPicture 1
        { poc := 8, output := true, numSlices := 1, pps := { currentPicRef := true } }),
      .fork 0, .run 0 (.deriveSets 1 namesThree)]

/-- A stand-in, the base layer's picture and the picture itself. -/
def threeNamed : SliceLists where
  list0 := ⟨[⟨5, ⟨1, 1⟩, false⟩, ⟨8, ⟨0, 0⟩, true⟩, ⟨8, ⟨1, 0⟩, true⟩]⟩

/-- A slice is given its lists, and then all pictures that wait are output. -/
def threeNamedShown : Session :=
  enhancementDerived.afterAll
    [.run 0 (.buildLists namesThree 0),
      .run 0 (.output { active := 3, shown := 3, maxPending := 0, maxInUse := 0 })]

/-- The three pictures that the slice names are there when the pictures that waited are gone. -/
theorem threeNamed_valid : ∃ d, Referring {} {} threeNamedShown 0 [threeNamed] ∧
    threeNamedShown.decoder? 0 = some d ∧
    ∀ entry ∈ threeNamed.list0.entries, ∃ slot, d.slot? entry.slot = some slot ∧
      slot.isFree = false ∧ slot.InUse ∧ slot.poc = entry.poc ∧
      (slot.flags.shortTerm = true ∨ slot.flags.longTerm = true) := by
  have run := run_all
    [.run 0 (.setSps 0 { width := 2, height := 2 }), .run 0 (.setSps 1 { width := 2, height := 2 }),
      .run 0 (.startPicture 0 { poc := 8, output := true, numSlices := 1, pps := {} }),
      .run 0 .finishPicture] (@Run.start {} {})
  have derived : Referring {} {} enhancementDerived 0 [] :=
    .derived run rfl rfl (.step .refl (.fork 0) fun _ h => by cases h) rfl rfl
  obtain ⟨d, hd⟩ : ∃ d, enhancementDerived.decoder? 0 = some d := ⟨_, rfl⟩
  have hl : (d.buildLists namesThree 0).1.toOption = some threeNamed := by
    cases hd
    decide +kernel
  have listed := @Referring.listed _ _ _ _ _ _ namesThree 0 derived hd
  rw [hl] at listed
  have shown : Referring {} {} threeNamedShown 0 [threeNamed] := by
    refine listed.other fun command hc => ?_
    cases hc
    exact ⟨rfl, fun _ _ h => by cases h⟩
  obtain ⟨d', hd'⟩ : ∃ d, threeNamedShown.decoder? 0 = some d := ⟨_, rfl⟩
  exact ⟨d', shown, hd', lists_stay_valid shown hd' List.mem_cons_self false⟩

end Session

end PictureBuffer
