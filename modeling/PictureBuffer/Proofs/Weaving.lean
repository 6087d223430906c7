import PictureBuffer.Proofs.Settlement
import PictureBuffer.Proofs.StoreOperations
import PictureBuffer.Proofs.WovenLines

/-!
# The frame woven from two fields

`Shared.weave` interleaves two fields in the scratch frame or, if that is in use or of another
layout, in a new frame. What it needs to be sound is little (`Shared.Intact`): every frame has the
bytes that its layout promises, and a scratch frame is produced, so that using it again does not
yield a frame that was cancelled. Both hold in every state of every run (`intact_run`): no operation
of a store changes the size of a plane (`Store.Leads.sized`), and only weaving brings in a scratch
frame.

Then nothing is read or written out of bounds, whatever the layouts are, and if the fields and the
frame are large enough, every byte of the picture is one of the fields' (`weave_interleaves`): what
the scratch frame showed before, and how the planes are padded, makes no difference.
-/

namespace PictureBuffer

/-! ## What a woven frame shows -/

namespace Frame

variable {frame top bottom : Frame}

/-- The frame is at least as large as its picture. -/
def LargeEnough (frame : Frame) : Prop :=
  frame.layout.Covers (.unpadded frame.layout.format frame.layout.width frame.layout.height)

instance (frame : Frame) : Decidable frame.LargeEnough :=
  inferInstanceAs (Decidable (Layout.Covers _ _))

/-- **The frame shows both fields**, line by line, and is produced. Its side data is that of the
bottom field. -/
structure Interleaves (frame top bottom : Frame) : Prop where
  bytes : ∀ {p row column geometry}, top.wovenLayout.planes[p]? = some geometry →
    row < geometry.rows → column < geometry.pitch →
      ∃ byte, frame.byte? p row column = some byte ∧
        (if row % 2 = 0 then top else bottom).byte? p (row / 2) column = some byte
  sideData : frame.sideData = bottom.sideData
  progress : frame.progress = .produced

/-- A woven frame is produced, unless it was cancelled. -/
theorem progress_weave (top bottom : Frame) (h : frame.progress ≠ .cancelled) :
    (frame.weave top bottom).progress = .produced := by
  change frame.progress.settle .produced = .produced
  cases hp : frame.progress with
  | pending | produced => rfl
  | cancelled => exact absurd hp h

theorem interleaves_weave (h : frame.Sized) (htop : top.Sized) (hbottom : bottom.Sized)
    (hlayout : top.layout = bottom.layout) (hlarge : top.LargeEnough)
    (hcovers : frame.layout.Covers top.wovenLayout) (hp : frame.progress ≠ .cancelled) :
    (frame.weave top bottom).Interleaves top bottom where
  bytes := weave_covered h htop hbottom hlayout hlarge hcovers
  sideData := rfl
  progress := progress_weave top bottom hp

end Frame

/-! ## The frames of a store -/

namespace Store

variable {a b store : Store} {id : FrameId}

/-- **Every frame that is held is sized.** -/
def Sized (store : Store) : Prop := ∀ id frame, store.frame? id = some frame → frame.Sized

theorem Sized.frame (h : store.Sized) (id : FrameId) : (store.frame id).Sized := by
  unfold Store.frame
  cases hf : store.frame? id with
  | none => exact Frame.sized_empty
  | some frame => exact h id frame hf

theorem Sized.spares (h : a.Sized) (hs : ∀ id, Spares id a b) : b.Sized :=
  fun id frame hf => h id frame (hs id frame hf)

theorem Sized.update {f : Frame → Frame} (h : store.Sized)
    (hf : ∀ frame, frame.Sized → (f frame).Sized) (id : FrameId) : (store.update id f).Sized := by
  intro x frame hx
  rw [frame?_update] at hx
  split at hx
  · obtain ⟨old, hold, rfl⟩ := Option.map_eq_some_iff.mp hx
    exact hf old (h x old hold)
  · exact h x frame hx

theorem Sized.insert {frame : Frame} (h : store.Sized) (hf : frame.Sized) (pooled : Bool) :
    (store.insert frame pooled).2.Sized := by
  intro x new hx
  rw [frame?, cell?_insert] at hx
  split at hx
  · obtain rfl : frame = new := Option.some.inj hx
    exact hf
  · exact h x new hx

theorem Sized.acquire (h : store.Sized) (format : Format) (width height : Nat) :
    (store.acquire format width height).2.Sized := by
  have asked : ({ store with acquisitions := store.acquisitions + 1 } : Store).Sized := h
  unfold Store.acquire
  dsimp only
  split
  · exact asked
  · exact asked.insert (Frame.sized_blank _) false
  · split
    · exact asked.insert (Frame.sized_blank _) true
    · exact asked

theorem Sized.attach (h : store.Sized) (id : FrameId) (data : SideData) :
    (store.attach id data).2.Sized := by
  have asked : ({ store with attachments := store.attachments + 1 } : Store).Sized := h
  unfold Store.attach
  dsimp only
  split
  · exact asked.update (fun _ hf => hf.addSideData data) id
  · exact asked

/-- **No operation of the store changes the size of a plane.** -/
theorem Leads.sized (hl : Leads a b) (h : a.Sized) : b.Sized := by
  induction hl with
  | refl => exact h
  | @retain b _ id ih => exact ih.spares (spares_retain b id)
  | @release b _ id ih => exact ih.spares (spares_release b id)
  | update _ id f hf ih => exact ih.update hf id
  | acquire _ format width height ih => exact ih.acquire format width height
  | attach _ id data ih => exact ih.attach id data

/-- The frame is known, and whoever holds it sees it produced. -/
structure Finished (store : Store) (id : FrameId) : Prop where
  known : id < store.cells.size
  shows : store.Shows id .produced

theorem Produced.finished (h : store.Produced id) : store.Finished id := by
  obtain ⟨frame, hf, hp⟩ := h
  obtain ⟨cell, hc, -⟩ := Option.map_eq_some_iff.mp hf
  refine ⟨lt_size_of_cell? hc, fun frame' hf' => ?_⟩
  obtain rfl := Option.some.inj (hf.symm.trans hf')
  exact hp

/-- What is produced stays so. -/
theorem Finished.evolves (h : a.Finished id) (he : a.Evolves b) : b.Finished id := by
  refine ⟨Nat.lt_of_lt_of_le h.known he.size_le, fun frame hf => ?_⟩
  obtain ⟨old, hold, -, hkeep⟩ := he.frames h.known hf
  have hproduced := h.shows old hold
  rw [hkeep (by rw [hproduced]; decide), hproduced]

end Store

namespace Shared

variable {sh sh' : Shared} {layout : Layout}

/-- The frames are sized, and the scratch frame, if there is one, is produced. -/
structure Intact (sh : Shared) : Prop where
  sized : sh.store.Sized
  scratch : ∀ id, sh.scheduler.scratch = some id → sh.store.Finished id

/-- What works on the store and leaves the scratch frame to its place, or gives it up. -/
theorem Intact.of_leads (h : sh.Intact) (hl : sh.store.Leads sh'.store)
    (hev : sh.store.Evolves sh'.store)
    (hs : ∀ id, sh'.scheduler.scratch = some id → sh.scheduler.scratch = some id) : sh'.Intact :=
  ⟨hl.sized h.sized, fun id hid => (h.scratch id (hs id hid)).evolves hev⟩

/-! ## The destination -/

/-- **There is a frame to weave into** that is at least as large as `layout`: the scratch frame can
be used again, or the provider has such a frame to give. -/
def Offers (sh : Shared) (layout : Layout) : Prop :=
  (∃ scratch, sh.Reusable layout scratch) ∨
  ∃ fresh store, sh.store.acquire layout.format layout.width layout.height = (some fresh, store) ∧
    (store.frame fresh).layout.Covers layout

/-- Where a frame is offered, one is found. -/
theorem weavingFrame_of_offers (ho : sh.Offers layout) :
    ∃ woven sh', sh.weavingFrame layout = (some woven, sh') := by
  by_cases hr : ∃ scratch, sh.Reusable layout scratch
  · obtain ⟨scratch, hr⟩ := hr
    exact ⟨scratch, _, weavingFrame_of_reusable hr⟩
  · obtain hscratch | ⟨fresh, store, ha, -⟩ := ho
    · exact absurd hscratch hr
    · rw [not_exists] at hr
      rw [weavingFrame_of_not_reusable hr, ha]
      exact ⟨fresh, _, rfl⟩

/-- **What the fields are woven into** is a frame that is not cancelled, and large enough if such a
frame is offered. -/
theorem destination (h : sh.Intact) {woven : FrameId}
    (hw : sh.weavingFrame layout = (some woven, sh')) :
    ∃ frame, sh'.store.frame? woven = some frame ∧ frame.progress ≠ .cancelled ∧
      (sh.Offers layout → frame.layout.Covers layout) := by
  obtain ⟨⟨hs, hunique, hlayout⟩, hstore⟩ | ⟨hunfit, store, ha, hstore⟩ := weavingFrame_cases hw
  · have hpos : 0 < sh.store.handles woven := by
      rw [eq_of_beq hunique]
      exact Nat.one_pos
    obtain ⟨cell, hc⟩ := Store.cell?_of_handles_pos hpos
    have hframe : sh.store.frame? woven = some cell.frame := by
      rw [Store.frame?, hc]
      rfl
    refine ⟨cell.frame, by rw [hstore, hframe], ?_, fun _ => ?_⟩
    · rw [(h.scratch woven hs).shows cell.frame hframe]
      decide
    · rw [Store.frame, hframe] at hlayout
      rw [← hlayout]
      exact .refl _
  · obtain ⟨frame, hframe, hpending⟩ := (Store.supplied_acquire ha).pending
    have hkept : sh'.store.frame? woven = some frame := by
      rw [hstore]
      cases hs : sh.scheduler.scratch with
      | none => exact hframe
      | some scratch =>
        have hne : woven ≠ scratch := Nat.ne_of_gt
          (Nat.lt_of_lt_of_le (h.scratch scratch hs).known (Store.size_le_of_acquire ha).1)
        change (store.release scratch).frame? woven = some frame
        rw [Store.frame?, Store.cell?_release, if_neg hne, ← Store.frame?, hframe]
    refine ⟨frame, hkept, by rw [hpending]; decide, ?_⟩
    rintro (⟨scratch, hr⟩ | ⟨fresh, store', ha', hcovers⟩)
    · exact absurd hr (hunfit scratch)
    · obtain ⟨rfl, rfl⟩ : woven = fresh ∧ store = store' := by
        simpa using ha.symm.trans ha'
      rw [Store.frame, hframe] at hcovers
      exact hcovers

/-! ## Weaving -/

/-- The frame after the fields were woven into it. -/
theorem frame?_fillScratch {woven : FrameId} {frame : Frame} (top bottom : Frame)
    (hf : sh.store.frame? woven = some frame) :
    (sh.fillScratch woven top bottom).store.frame? woven = some (frame.weave top bottom) := by
  rw [fillScratch, Store.frame?_retain, Store.frame?_update, if_pos rfl, hf]
  rfl

theorem intact_weave (h : sh.Intact) (top bottom : FrameId) : (sh.weave top bottom).2.Intact := by
  refine ⟨(leads_weave sh top bottom).sized h.sized, fun id hid => ?_⟩
  rw [scheduler_weave] at hid
  obtain ⟨sh', -, he⟩ | ⟨woven, sh', hw, he⟩ := weave_cases sh top bottom
  · rw [he] at hid
    cases hid
  · rw [he] at hid ⊢
    obtain rfl : woven = id := Option.some.inj hid
    obtain ⟨frame, hf, hp, -⟩ := destination h hw
    exact Store.Produced.finished ⟨_, frame?_fillScratch _ _ hf, Frame.progress_weave _ _ hp⟩

/-- **Two fields are woven** into the frame that is offered. -/
theorem interleaves_weave (h : sh.Intact) {top bottom : FrameId}
    (hlayout : (sh.store.frame top).layout = (sh.store.frame bottom).layout)
    (hlarge : (sh.store.frame top).LargeEnough)
    (ho : sh.Offers (sh.store.frame top).wovenLayout) :
    ∃ woven sh', sh.weave top bottom = (.ok woven, sh') ∧
      (sh'.store.frame woven).Interleaves (sh.store.frame top) (sh.store.frame bottom) := by
  obtain ⟨woven, sh', hw⟩ := weavingFrame_of_offers ho
  obtain ⟨frame, hf, hp, hcovers⟩ := destination h hw
  have hl := leads_weavingFrame sh (sh.store.frame top).wovenLayout
  rw [hw] at hl
  refine ⟨woven, sh'.fillScratch woven (sh.store.frame top) (sh.store.frame bottom), ?_, ?_⟩
  · unfold weave
    dsimp only
    rw [hw]
  · rw [Store.frame, frame?_fillScratch _ _ hf, Option.getD_some]
    exact Frame.interleaves_weave (hl.sized h.sized woven frame hf) (h.sized.frame top)
      (h.sized.frame bottom) hlayout hlarge (hcovers ho) hp

theorem intact_complete (h : sh.Intact) (layer : Nat) (first second : Field) :
    (sh.complete layer first second).2.Intact := by
  have hi := intact_weave h (evenLines first second).frame (oddLines first second).frame
  obtain ⟨sh', hw, he⟩ | ⟨woven, sh', hw, he⟩ := complete_cases sh layer first second
  all_goals
    rw [hw] at hi
    rw [he]
    exact hi.of_leads (.release .refl _) (Store.evolves_release _ _) fun _ hs => hs

theorem intact_dropStash (h : sh.Intact) : sh.dropStash.Intact :=
  h.of_leads (leads_dropStash sh) (evolves_dropStash sh)
    fun _ hs => (scratch_dropStash sh).symm.trans hs

theorem intact_pair (h : sh.Intact) (victim : Victim) : (sh.pair victim).2.Intact := by
  obtain ⟨-, he⟩ | ⟨-, -, he⟩ | ⟨first, -, -, -, he⟩ | ⟨first, -, -, -, he⟩ :=
    pair_cases sh victim
  · rw [he]
    exact h.of_leads (leads_putStash sh _) (evolves_putStash sh _)
      fun _ hs => (scratch_dropStash sh).symm.trans hs
  · rw [he]
    exact ⟨h.sized, h.scratch⟩
  · rw [he]
    have htaken : sh.takeStash.Intact := ⟨h.sized, h.scratch⟩
    exact intact_complete htaken _ _ _
  · rw [he]
    exact intact_dropStash h

theorem intact_send (h : sh.Intact) (picture : Picture) : (sh.send picture).2.Intact :=
  h.of_leads (leads_send sh picture) (evolves_send sh picture)
    fun _ hs => (scratch_send sh picture).symm.trans hs

theorem intact_emit (h : sh.Intact) (victim : Victim) (dts : Option Int) :
    (sh.emit victim dts).2.Intact := by
  have hpop : (sh.pop victim.poc).Intact := ⟨h.sized, h.scratch⟩
  have hpair := intact_pair hpop victim
  obtain ⟨-, he⟩ | ⟨picture, sh', -, hp, he⟩ | ⟨result, sh', -, hp, -, he⟩ :=
    emit_cases sh victim dts
  · rw [he]
    refine intact_send ?_ _
    exact (intact_dropStash hpop).of_leads (.retain .refl _) (Store.evolves_retain _ _)
      fun _ hs => hs
  · rw [hp] at hpair
    rw [he]
    exact intact_send hpair _
  · rw [hp] at hpair
    rw [he]
    exact hpair

end Shared

/-! ## Every state of every run -/

namespace Decoder

variable {d d' : Decoder} {pass : OutputPass}

theorem Quiet.intact (hq : d.Quiet d') (hl : d.store.Leads d'.store) (h : d.toShared.Intact) :
    d'.toShared.Intact :=
  h.of_leads hl hq.evolves fun _ hs => (congrArg Scheduler.scratch hq.scheduler).symm.trans hs

theorem intact_bump (h : d.toShared.Intact) (pass : OutputPass) (ref : SlotRef) (slot : Slot) :
    (d.bump pass ref slot).2.toShared.Intact := by
  refine bump_preserves (P := fun d => d.toShared.Intact) h (fun _ => ⟨h.sized, h.scratch⟩)
    (fun _ _ => Shared.intact_emit h _ _) (fun d' h' => ?_) pass
  exact (d'.steady_stripOutput ref).toQuiet.intact (d'.leads_stripOutput ref) h'

theorem intact_dropCurrent (h : d.toShared.Intact) : d.dropCurrent.toShared.Intact :=
  d.quiet_dropCurrent.intact d.leads_dropCurrent h

end Decoder

namespace Session

variable {config : Config} {provider : Provider} {log : List Moment} {s : Session} {e : Event}

theorem intact_command {i : Nat} {d : Decoder} (hd : s.decoder? i = some d)
    (h : s.shared.Intact) (command : Command) : (d.run command).2.toShared.Intact := by
  have hstart : d.toShared.Intact := (decoder?_eq hd).2 ▸ h
  let P (_ : List Moment) (d : Decoder) := d.toShared.Intact
  refine @command_induction [] s P i d command hd hstart ?_ ?_ ?_ ?_
  · exact fun _ h' _ => Decoder.intact_bump h' _ _ _
  · exact fun _ => Decoder.intact_dropCurrent hstart
  · intro _ _ d' h'
    exact Shared.intact_dropStash (d'.quiet_clear.intact d'.leads_clear h')
  · intro hs
    by_cases hdrop : command = .dropStash
    · subst hdrop
      exact Shared.intact_dropStash hstart
    · exact (quiet_run_of_silent hs hdrop d).intact (d.leads_run command) hstart

theorem intact_step (h : s.shared.Intact) (e : Event) : (s.step e).2.shared.Intact := by
  by_cases hrun : ∃ i command, e = .run i command
  · obtain ⟨i, command, rfl⟩ := hrun
    dsimp only [step]
    cases hd : s.decoder? i with
    | none => exact h
    | some d => exact intact_command hd h command
  · refine h.of_leads (s.leads_step e) (s.evolves_step e) fun id hid => ?_
    exact scratch_of_step (fun i command he => hrun ⟨i, command, he⟩) hid

/-- **In every state of every run** the frames are sized and the scratch frame is produced. -/
theorem intact_run (run : Run config provider log s) : s.shared.Intact := by
  induction run with
  | start => exact ⟨fun id frame hf => (nomatch hf), fun id hid => (nomatch hid)⟩
  | step run e ih => exact intact_step ih e

/-- The same holds before every step of an output pass. -/
theorem intact_moment (run : Run config provider log s) {m : Moment} (hm : m ∈ s.moments e) :
    m.decoder.toShared.Intact := by
  obtain ⟨i, d, d', pass, hd, hd', he⟩ := moments_begin hm
  have hstart : d.toShared.Intact := (decoder?_eq hd).2 ▸ intact_run run
  have hbegin : d'.toShared.Intact := by
    rcases hd' with rfl | rfl
    · exact hstart
    · exact Decoder.intact_dropCurrent hstart
  rw [he] at hm
  exact (@Decoder.output_preserves d' pass (fun d => d.toShared.Intact)
    (fun h _ => Decoder.intact_bump h _ _ _) hbegin).2 m hm

/-- **Weaving interleaves the lines of two fields**, in memory that is there.

* What weaving relies on (`Shared.Intact`) holds in every state of every run, and before every step
  of an output pass.
* Whatever the planes of the fields and of the frame to weave into look like, no line that is copied
  reaches beyond the plane that it is read from or the one it is written to.
* Two fields of one layout, at least as large as their pictures, are woven if there is a frame large
  enough to weave them into, and the frame shows both.
* The picture that it shows is twice as tall as a field, if this height is a word of 32 bits. -/
theorem weave_interleaves :
    (∀ {config provider log s}, Run config provider log s → s.shared.Intact ∧
      ∀ {e m}, m ∈ s.moments e → m.decoder.toShared.Intact) ∧
    ∀ {sh : Shared}, sh.Intact → ∀ top bottom : FrameId,
      (∀ woven sh', sh.weavingFrame (sh.store.frame top).wovenLayout = (some woven, sh') →
        (sh'.store.frame woven).Admits (sh.store.frame top) 0 ∧
        ((sh'.store.frame woven).weaveField (sh.store.frame top) 0).Admits
          (sh.store.frame bottom) 1) ∧
      ((sh.store.frame top).layout = (sh.store.frame bottom).layout →
        (sh.store.frame top).LargeEnough → sh.Offers (sh.store.frame top).wovenLayout →
        ∃ woven sh', sh.weave top bottom = (.ok woven, sh') ∧
          (sh'.store.frame woven).Interleaves (sh.store.frame top) (sh.store.frame bottom)) ∧
      ((sh.store.frame top).layout.height * 2 < 2 ^ 32 →
        (sh.store.frame top).wovenLayout = .unpadded (sh.store.frame top).layout.format
          (sh.store.frame top).layout.width ((sh.store.frame top).layout.height * 2)) := by
  refine ⟨fun run => ⟨intact_run run, intact_moment run⟩,
    fun {sh} h top bottom => ⟨?_, ?_, Frame.wovenLayout_of_lt⟩⟩
  · intro woven sh' hw
    have hl := Shared.leads_weavingFrame sh (sh.store.frame top).wovenLayout
    rw [hw] at hl
    have hs := (hl.sized h.sized).frame woven
    exact ⟨hs.admits _ 0, (hs.weaveField _ 0).admits _ 1⟩
  · exact fun hlayout hlarge ho => Shared.interleaves_weave h hlayout hlarge ho

/-- A provider of frames whose planes are padded, those of the first two in another way than those
of the others. -/
def padding : Provider where
  supply n := if n < 2 then .own [⟨5, 4⟩, ⟨6, 3⟩] else .own [⟨3, 7⟩, ⟨9, 3⟩]

/-- Two fields of three rows are decoded. -/
def paddedFields : Session :=
  (start {} padding).afterAll
    [.run 0 (.setSps 0 { width := 3, height := 3, format := .nv12 }),
      .run 0 (.setSei { picStruct := .topField }), startBase 10,
      .work 0 ⟨0, 0⟩ (.render fun p row column => UInt8.ofNat (100 * p + 10 * row + column)),
      .run 0 .finishPicture,
      .run 0 (.setSei { picStruct := .bottomField }), startBase 11,
      .work 0 ⟨0, 1⟩ (.render fun p row column => UInt8.ofNat (50 + 100 * p + 10 * row + column)),
      .run 0 .finishPicture]

/-- The frame has three chroma rows, though the fields have two each. The last one is the second row
of the top field. -/
theorem paddedFields_woven : paddedFields.shared.Intact ∧
    (paddedFields.shared.store.frame 0).wovenLayout = .unpadded .nv12 3 6 ∧
    ∃ woven sh', paddedFields.shared.weave 0 1 = (.ok woven, sh') ∧
      (sh'.store.frame woven).Interleaves (paddedFields.shared.store.frame 0)
        (paddedFields.shared.store.frame 1) ∧
      (sh'.store.frame woven).byte? 1 2 3 = some 113 := by
  have run : Run {} padding _ paddedFields := run_all _ .start
  have intact : paddedFields.shared.Intact := (weave_interleaves.1 run).1
  obtain ⟨-, hweave, hlayout⟩ := weave_interleaves.2 intact 0 1
  obtain ⟨woven, sh', hw, hi⟩ := hweave
    (by decide +kernel) (by decide +kernel) (Or.inr ⟨_, _, rfl, by decide +kernel⟩)
  have htop : (paddedFields.shared.store.frame 0).byte? 1 1 3 = some 113 := by decide +kernel
  obtain ⟨byte, hbyte, hfield⟩ := @Frame.Interleaves.bytes _ _ _ hi 1 2 3 ⟨4, 3⟩
    (by decide +kernel) (by decide) (by decide)
  obtain rfl : byte = 113 := Option.some.inj (hfield.symm.trans htop)
  exact ⟨intact, hlayout (by decide +kernel), woven, sh', hw, hi, hbyte⟩

end Session

end PictureBuffer
