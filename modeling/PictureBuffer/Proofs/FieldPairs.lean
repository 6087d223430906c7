import Mathlib.Data.List.Forall2
import PictureBuffer.Proofs.Emission
import PictureBuffer.Proofs.Ranges

/-!
# Pairs of fields

What reaches the output process is a sequence of pictures (`Arrival`). Let it be made up of frame
pictures and of **well-formed pairs** of fields (`FieldPair`), in any mix and of either field
order. Then every frame picture and every pair yields exactly one picture, in order, and no field
is dropped (`units_yield`).

Between two emissions the decoders, the workers and the client go on: buffers let go of frames,
frames are filled, pictures are taken out of the queue. They only have to leave the stash alone
(`Between`). The emissions of a session are such a course (`Session.course_of_stretch`).

The law rests on one lemma for each kind of arrival: a frame picture (`emit_frame`), a first field
(`emit_first`) and a second one (`emit_second`).
-/

namespace PictureBuffer

/-- A picture that reaches the output process, with the layout of its frame. -/
structure Arrival where
  victim : Victim
  dts : Option Int
  layout : Layout

/-- **A well-formed pair of fields**: of one layer, of one layout and of opposite parity. The first
field says that it is the first, or has an even order count; the second field does not say that it
is the first. -/
structure FieldPair (first second : Arrival) : Prop where
  layer : first.victim.layer = second.victim.layer
  layout : first.layout = second.layout
  parity : first.victim.picStruct.isTopField ≠ second.victim.picStruct.isTopField
  opens : first.victim.picStruct = .topPairedNextBottom ∨
    first.victim.picStruct = .bottomPairedNextTop ∨
    ((first.victim.picStruct = .topField ∨ first.victim.picStruct = .bottomField) ∧
      first.victim.poc % 2 = 0)
  closes : second.victim.picStruct = .topField ∨ second.victim.picStruct = .bottomField ∨
    second.victim.picStruct = .topPairedPrevBottom ∨
    second.victim.picStruct = .bottomPairedPrevTop

/-- What is to be shown as one picture. -/
inductive ShowUnit
  | frame (arrival : Arrival)
  | pair (first second : Arrival)

namespace ShowUnit

def arrivals : ShowUnit → List Arrival
  | frame arrival => [arrival]
  | pair first second => [first, second]

def WellFormed : ShowUnit → Prop
  | frame arrival => arrival.victim.picStruct.isField = false
  | pair first second => FieldPair first second

/-- The display duration of a pair: twice that of the second field if one of the two is known to
last, else that of the top field. -/
def pairDuration (twice : Int → Int) (first second : Victim) : Option Int :=
  if first.props.duration.any (0 < ·) || second.props.duration.any (0 < ·) then
    second.props.duration.map twice
  else if first.picStruct.isTopField then first.props.duration
  else second.props.duration

theorem pairDuration_congr {f g : Int → Int} {first second : Victim}
    (h : ∀ d, second.props.duration = some d → f d = g d) :
    pairDuration f first second = pairDuration g first second := by
  unfold pairDuration
  cases hd : second.props.duration with
  | none => rfl
  | some d => simp only [Option.map_some, h d hd]

/-- The unit is shown by this picture. Durations are words of 64 bits, in which twice a duration
wraps around if it does not fit. -/
def Yields : ShowUnit → Picture → Prop
  | frame arrival, picture => picture = arrival.victim.picture arrival.dts
  | pair first second, picture =>
    picture.poc = first.victim.poc ∧ picture.picStruct = first.victim.picStruct ∧
    picture.layer = first.victim.layer ∧ picture.dts = second.dts ∧
    picture.props.interlaced = true ∧
    picture.props.topFieldFirst = first.victim.picStruct.isTopField ∧
    picture.props.duration =
      pairDuration (fun d => wrapSigned 64 (d * 2)) first.victim second.victim ∧
    ((∀ d, second.victim.props.duration = some d → FitsSigned 64 (d * 2)) →
      picture.props.duration = pairDuration (· * 2) first.victim second.victim)

end ShowUnit

namespace Shared

variable {sh sh' : Shared}

/-! ## A course of emissions -/

/-- What happens between two emissions leaves the stash alone. -/
structure Between (sh sh' : Shared) : Prop where
  stash : sh'.scheduler.stash = sh.scheduler.stash
  layout : ∀ first, sh.scheduler.stash = some first →
    (sh'.store.frame first.frame).layout = (sh.store.frame first.frame).layout

theorem Between.refl (sh : Shared) : Between sh sh := ⟨rfl, fun _ _ => rfl⟩

theorem Between.trans {sh'' : Shared} (h : Between sh sh') (h' : Between sh' sh'') :
    Between sh sh'' :=
  ⟨h'.stash.trans h.stash, fun first hf =>
    (h'.layout first (h.stash.trans hf)).trans (h.layout first hf)⟩

/-- The stash is left alone as long as nobody else replaces it: its frame is still held, and frames
keep their layout. -/
theorem Between.of_evolves {others others' : List FrameId}
    (hs : sh'.scheduler.stash = sh.scheduler.stash) (he : sh.store.Evolves sh'.store)
    (h : sh.Accounted others) (h' : sh'.Accounted others') : Between sh sh' := by
  refine ⟨hs, ?_⟩
  intro first hf
  obtain ⟨cell, hc⟩ := Store.cell?_of_handles_pos (h'.pos_stash (hs.trans hf))
  have hnew : sh'.store.frame? first.frame = some cell.frame := by
    rw [Store.frame?, hc]
    rfl
  obtain ⟨old, hold, hl, -⟩ :=
    he.frames (Store.lt_size_of_handles_pos (h.pos_stash hf)) hnew
  rw [Store.frame, hnew, Store.frame, hold]
  exact hl

/-- Nothing stands in the way of an arrival: the provider has a frame to weave into, and the queue
has room. -/
structure Ready (sh : Shared) (arrival : Arrival) : Prop where
  layout : (sh.store.frame arrival.victim.frame).layout = arrival.layout
  room : sh.queue.length < sh.queue.capacity
  supplies : sh.store.Supplies

/-- An emission that was carried out. -/
structure Outcome where
  before : Shared
  result : Except Fault Emission
  after : Shared

def outcome (sh : Shared) (arrival : Arrival) : Outcome where
  before := sh
  result := (sh.emit arrival.victim arrival.dts).1
  after := (sh.emit arrival.victim arrival.dts).2

/-- The pictures that an emission added to the queue. -/
def Outcome.pushed (o : Outcome) : List Picture :=
  o.after.queue.pictures.drop o.before.queue.pictures.length

/-- **A course of emissions** from one state to another: the arrivals, and what came of each. -/
inductive Course : Shared → List Arrival → List Outcome → Shared → Prop
  | done (sh : Shared) : Course sh [] [] sh
  | next {sh sh₁ sh₂ : Shared} {arrival : Arrival} {arrivals : List Arrival}
      {outcomes : List Outcome} (between : Between sh sh₁) (ready : Ready sh₁ arrival)
      (rest : Course (outcome sh₁ arrival).after arrivals outcomes sh₂) :
      Course sh (arrival :: arrivals) (outcome sh₁ arrival :: outcomes) sh₂

/-- A course goes on with one more emission. -/
theorem Course.concat {sh₁ sh₂ : Shared} {arrival : Arrival} {arrivals : List Arrival}
    {outcomes : List Outcome} (course : Course sh arrivals outcomes sh₁)
    (between : Between sh₁ sh₂) (ready : Ready sh₂ arrival) :
    Course sh (arrivals ++ [arrival]) (outcomes ++ [outcome sh₂ arrival])
      (outcome sh₂ arrival).after := by
  induction course with
  | done => exact .next between ready (.done _)
  | next first freed _ ih => exact .next first freed (ih between)

/-- An emission that succeeded without dropping a field, pushed the pictures `pushed` and left
`stash` behind. -/
structure Outcome.Leaves (o : Outcome) (pushed : List Picture) (stash : Option Field) : Prop where
  result : o.result = .ok .done
  orphans : o.after.scheduler.stats.orphans = o.before.scheduler.stats.orphans
  queue : o.after.queue.pictures = o.before.queue.pictures ++ pushed
  stash : o.after.scheduler.stash = stash

theorem Outcome.Leaves.pushed_eq {o : Outcome} {pushed : List Picture} {stash : Option Field}
    (h : o.Leaves pushed stash) : o.pushed = pushed := by
  rw [Outcome.pushed, h.queue, List.drop_left]

/-! ## One arrival -/

/-- A picture sent into a queue with room. -/
theorem send_of_room {picture : Picture} (h : sh.queue.length < sh.queue.capacity) :
    sh.send picture = (.ok .done,
      { sh with
        scheduler := sh.scheduler.recordSend picture.poc
        queue := { sh.queue with pictures := sh.queue.pictures ++ [picture] } }) := by
  obtain ⟨-, he⟩ | ⟨hfull, -⟩ := send_cases sh picture
  · exact he
  · exact absurd h (Nat.not_lt.mpr hfull)

/-- A frame picture goes straight to the queue. -/
theorem emit_frame {arrival : Arrival} (hf : arrival.victim.picStruct.isField = false)
    (hs : sh.scheduler.stash = none) (ready : Ready sh arrival) :
    (outcome sh arrival).Leaves [arrival.victim.picture arrival.dts] none := by
  have hpop : (sh.pop arrival.victim.poc).dropStash = sh.pop arrival.victim.poc :=
    dropStash_of_none hs
  obtain ⟨-, he⟩ | ⟨_, _, hfield, -⟩ | ⟨_, _, hfield, -⟩ :=
    emit_cases sh arrival.victim arrival.dts
  · have hsend := @send_of_room { sh.pop arrival.victim.poc with
      store := (sh.pop arrival.victim.poc).store.retain arrival.victim.frame }
      (arrival.victim.picture arrival.dts) ready.room
    rw [hpop, hsend] at he
    constructor
    · rw [outcome, he]
    · rw [outcome, he]
      rfl
    · rw [outcome, he]
      rfl
    · rw [outcome, he]
      exact hs
  · rw [hf] at hfield
    cases hfield
  · rw [hf] at hfield
    cases hfield

theorem isField_of_opens {first second : Arrival} (h : FieldPair first second) :
    first.victim.picStruct.isField = true := by
  rcases h.opens with he | he | ⟨he | he, -⟩ <;> rw [he] <;> rfl

theorem isField_of_closes {first second : Arrival} (h : FieldPair first second) :
    second.victim.picStruct.isField = true := by
  rcases h.closes with he | he | he | he <;> rw [he] <;> rfl

/-- The first field of a pair starts one if none waits. -/
theorem startsPair_first {first second : Arrival} (h : FieldPair first second)
    {scheduler : Scheduler} (hs : scheduler.stash = none) :
    scheduler.startsPair first.victim.poc first.victim.picStruct = true := by
  unfold Scheduler.startsPair
  rw [hs]
  rcases h.opens with he | he | ⟨he | he, heven⟩
  · rw [he]
    rfl
  · rw [he]
    rfl
  · simp [heven]
  · simp [heven]

/-- The second field of a pair does not start another while the first one waits. -/
theorem startsPair_second {first second : Arrival} (h : FieldPair first second)
    {scheduler : Scheduler} (hs : scheduler.stash = some first.victim.field) :
    scheduler.startsPair second.victim.poc second.victim.picStruct = false := by
  have hne : (first.victim.picStruct == second.victim.picStruct) = false := by
    rw [beq_eq_false_iff_ne]
    intro he
    exact h.parity (congrArg PicStruct.isTopField he)
  have hexplicit : ((second.victim.picStruct.topFirst && second.victim.picStruct.isTopField)
      || (second.victim.picStruct.bottomFirst && second.victim.picStruct.isBottomField))
        = false := by
    rcases h.closes with he | he | he | he <;> rw [he] <;> rfl
  have hfield : first.victim.field.picStruct = first.victim.picStruct := rfl
  unfold Scheduler.startsPair
  rw [hs, hexplicit]
  simp only [hfield, hne, Bool.false_and, Bool.or_self]

/-- The first field of a pair is stashed. -/
theorem emit_first {first second : Arrival} (h : FieldPair first second)
    (hs : sh.scheduler.stash = none) (ready : Ready sh first) :
    (outcome sh first).Leaves [] (some first.victim.field) ∧
      ((outcome sh first).after.store.frame first.victim.frame).layout = first.layout := by
  have hpop : (sh.pop first.victim.poc).dropStash = sh.pop first.victim.poc :=
    dropStash_of_none hs
  have hpair : (sh.pop first.victim.poc).pair first.victim =
      (.ok .stashed, (sh.pop first.victim.poc).putStash first.victim.field) := by
    have hfirst : (sh.pop first.victim.poc).scheduler.startsPair first.victim.poc
        first.victim.picStruct = true := startsPair_first h hs
    unfold pair
    rw [if_pos hfirst]
  have hemit : sh.emit first.victim first.dts =
      (.ok .done, (sh.pop first.victim.poc).putStash first.victim.field) := by
    unfold emit
    dsimp only
    rw [if_pos (isField_of_opens h), hpair]
  rw [putStash, hpop] at hemit
  refine ⟨⟨?_, ?_, ?_, ?_⟩, ?_⟩
  · rw [outcome, hemit]
  · rw [outcome, hemit]
    rfl
  · rw [outcome, hemit, List.append_nil]
    rfl
  · rw [outcome, hemit]
  · rw [outcome, hemit, ← ready.layout]
    exact Store.layout_retain _ _ _

/-- Weaving succeeds if the provider has a frame to give. -/
theorem weave_of_supplies (h : sh.store.Supplies) (top bottom : FrameId) :
    ∃ woven sh', sh.weave top bottom = (.ok woven, sh') ∧ sh'.queue = sh.queue ∧
      sh'.scheduler = { sh.scheduler with scratch := some woven } := by
  have hq := queue_weave sh top bottom
  have hsched := scheduler_weave sh top bottom
  have hsome := @isSome_weavingFrame sh (sh.store.frame top).wovenLayout h
  obtain ⟨sh', hw, -⟩ | ⟨woven, sh', -, he⟩ := weave_cases sh top bottom
  · rw [hw] at hsome
    cases hsome
  · rw [he] at hq hsched
    exact ⟨woven, _, he, hq, hsched⟩

/-- The picture woven from a pair is the one that the pair is to yield. -/
theorem yields_wovenPicture {first second : Arrival} (h : FieldPair first second)
    (woven : FrameId) :
    (ShowUnit.pair first second).Yields { wovenPicture second.victim.layer woven
      first.victim.field second.victim.field with dts := second.dts } := by
  have htop : (!first.victim.picStruct.isBottomField) = first.victim.picStruct.isTopField := by
    rcases h.opens with he | he | ⟨he | he, -⟩ <;> rw [he] <;> rfl
  have heven : evenLines first.victim.field second.victim.field =
      if first.victim.picStruct.isTopField then first.victim.field else second.victim.field := by
    have hp := h.parity
    unfold evenLines Victim.field
    dsimp only
    cases hf : first.victim.picStruct.isTopField <;>
      cases hs : second.victim.picStruct.isTopField
    · rw [hf, hs] at hp
      exact absurd rfl hp
    · rfl
    · rfl
    · rw [hf, hs] at hp
      exact absurd rfl hp
  have hduration : (wovenPicture second.victim.layer woven first.victim.field
      second.victim.field).props.duration =
        ShowUnit.pairDuration doubled first.victim second.victim := by
    unfold wovenPicture ShowUnit.pairDuration
    dsimp only
    rw [heven]
    simp only [List.any_cons, List.any_nil, Bool.or_false, Victim.field]
    split
    · rfl
    · split <;> rfl
  exact ⟨rfl, rfl, h.layer.symm, rfl, rfl, htop, hduration, fun hfits =>
    hduration.trans (ShowUnit.pairDuration_congr fun d hd => wrapSigned_of_fits (hfits d hd))⟩

/-- The second field of a pair is woven with the first one, which waits. -/
theorem emit_second {first second : Arrival} (h : FieldPair first second)
    (hs : sh.scheduler.stash = some first.victim.field)
    (hl : (sh.store.frame first.victim.frame).layout = first.layout) (ready : Ready sh second) :
    ∃ picture, (ShowUnit.pair first second).Yields picture ∧
      (outcome sh second).Leaves [picture] none := by
  obtain ⟨woven, sh', hw, hq, hsched⟩ := @weave_of_supplies (sh.pop second.victim.poc).takeStash
    ready.supplies (evenLines first.victim.field second.victim.field).frame
    (oddLines first.victim.field second.victim.field).frame
  have hlayout : ((sh.pop second.victim.poc).store.frame first.victim.field.frame).layout =
      ((sh.pop second.victim.poc).store.frame second.victim.frame).layout :=
    hl.trans (h.layout.trans ready.layout.symm)
  have hpair : (sh.pop second.victim.poc).pair second.victim =
      (.ok (.paired (wovenPicture second.victim.layer woven first.victim.field
        second.victim.field)), { sh' with store := sh'.store.release first.victim.frame }) := by
    have hstash : (sh.pop second.victim.poc).scheduler.stash = some first.victim.field := hs
    have hsecond := startsPair_second h hstash
    unfold pair
    rw [hsecond, if_neg Bool.false_ne_true, hstash]
    dsimp only
    rw [if_pos hlayout, complete, hw]
    rfl
  have hroom : ({ sh' with store := sh'.store.release first.victim.frame } : Shared).queue.length <
      sh'.queue.capacity := by
    rw [hq]
    exact ready.room
  have hemit : sh.emit second.victim second.dts =
      ({ sh' with store := sh'.store.release first.victim.frame } : Shared).send
        { wovenPicture second.victim.layer woven first.victim.field second.victim.field with
          dts := second.dts } := by
    unfold emit
    dsimp only
    rw [if_pos (isField_of_closes h), hpair]
  rw [send_of_room hroom] at hemit
  refine ⟨_, yields_wovenPicture h woven, ?_⟩
  constructor
  · rw [outcome, hemit]
  · rw [outcome, hemit, hsched]
    rfl
  · rw [outcome, hemit, hq]
    rfl
  · rw [outcome, hemit, hsched]
    rfl

/-! ## All arrivals -/

/-- What a course of well-formed units comes to: no emission fails or drops a field, each unit
yields its picture, and no field stays behind. A pair that is timed lasts twice as long as its
second field, exactly so if this is a word of 64 bits. -/
theorem units_yield {units : List ShowUnit} {outcomes : List Outcome}
    (wellFormed : ∀ u ∈ units, u.WellFormed) (fresh : sh.scheduler.stash = none)
    (course : Course sh (units.flatMap (·.arrivals)) outcomes sh') :
    (∀ o ∈ outcomes, o.result = .ok .done ∧
      o.after.scheduler.stats.orphans = o.before.scheduler.stats.orphans ∧
      o.after.queue.pictures = o.before.queue.pictures ++ o.pushed) ∧
    List.Forall₂ ShowUnit.Yields units (outcomes.flatMap (·.pushed)) ∧
    sh'.scheduler.stash = none := by
  have fine : ∀ {o : Outcome} {pushed : List Picture} {stash : Option Field},
      o.Leaves pushed stash → o.result = .ok .done ∧
        o.after.scheduler.stats.orphans = o.before.scheduler.stats.orphans ∧
        o.after.queue.pictures = o.before.queue.pictures ++ o.pushed := by
    intro o pushed stash h
    rw [h.pushed_eq]
    exact ⟨h.result, h.orphans, h.queue⟩
  induction units generalizing sh outcomes with
  | nil =>
    cases course
    exact ⟨fun o ho => (List.not_mem_nil ho).elim, .nil, fresh⟩
  | cons u units ih =>
    have hu := wellFormed u List.mem_cons_self
    have hunits : ∀ u ∈ units, u.WellFormed := fun v hv =>
      wellFormed v (List.mem_cons_of_mem u hv)
    cases u with
    | frame arrival =>
      cases course with
      | @next _ sh₁ _ _ _ outcomes between ready rest =>
        have hl := emit_frame hu (between.stash.trans fresh) ready
        obtain ⟨hall, hyields, hnone⟩ := ih hunits hl.stash rest
        refine ⟨?_, ?_, hnone⟩
        · intro o ho
          rcases List.mem_cons.mp ho with rfl | ho
          · exact fine hl
          · exact hall o ho
        · rw [List.flatMap_cons, hl.pushed_eq]
          exact .cons rfl hyields
    | pair first second =>
      cases course with
      | @next _ sh₁ _ _ _ _ between₁ ready₁ rest₁ =>
        cases rest₁ with
        | @next _ sh₂ _ _ _ outcomes between₂ ready₂ rest₂ =>
          obtain ⟨hl₁, hlayout⟩ := emit_first hu (between₁.stash.trans fresh) ready₁
          have hstash := between₂.stash.trans hl₁.stash
          have hkept := (between₂.layout _ hl₁.stash).trans hlayout
          obtain ⟨picture, hy, hl₂⟩ := emit_second hu hstash hkept ready₂
          obtain ⟨hall, hyields, hnone⟩ := ih hunits hl₂.stash rest₂
          refine ⟨?_, ?_, hnone⟩
          · intro o ho
            rcases List.mem_cons.mp ho with rfl | ho
            · exact fine hl₁
            · rcases List.mem_cons.mp ho with rfl | ho
              · exact fine hl₂
              · exact hall o ho
          · rw [List.flatMap_cons, List.flatMap_cons, hl₁.pushed_eq, hl₂.pushed_eq]
            exact .cons hy hyields

/-! A frame picture, a pair that says its order, bottom field first, and a pair that does not. -/

/-- A picture of two by two samples in frame `id`. -/
def sampleArrival (id : FrameId) (poc : Int) (picStruct : PicStruct) : Arrival where
  victim := { layer := 0, frame := id, poc, picStruct, props := { duration := some 20 } }
  dts := some poc
  layout := .unpadded .i420 2 2

def sampleUnits : List ShowUnit :=
  [.pair (sampleArrival 0 7 .bottomPairedNextTop) (sampleArrival 1 8 .topPairedPrevBottom),
    .frame (sampleArrival 2 9 .frame),
    .pair (sampleArrival 3 10 .topField) (sampleArrival 4 11 .bottomField)]

def sampleShared : Shared where
  store :=
    { cells := Array.replicate 5 (some ⟨.blank (.unpadded .i420 2 2), true, 1⟩)
      outstanding := 5 }
  queue := { capacity := 3 }

/-- The law for `sampleUnits`, which meet with nothing in between. Each pair lasts twice as long as
its second field. -/
theorem sampleUnits_yield : ∃ outcomes sh',
    Course sampleShared (sampleUnits.flatMap (·.arrivals)) outcomes sh' ∧
    (∀ o ∈ outcomes, o.result = .ok .done ∧
      o.after.scheduler.stats.orphans = o.before.scheduler.stats.orphans ∧
      o.after.queue.pictures = o.before.queue.pictures ++ o.pushed) ∧
    List.Forall₂ ShowUnit.Yields sampleUnits (outcomes.flatMap (·.pushed)) ∧
    sh'.scheduler.stash = none ∧
    (outcomes.flatMap (·.pushed)).map (·.props.duration) = [some 40, some 20, some 40] := by
  have wellFormed : ∀ u ∈ sampleUnits, u.WellFormed := by
    intro u hu
    simp only [sampleUnits, List.mem_cons, List.not_mem_nil, or_false] at hu
    rcases hu with rfl | rfl | rfl
    · exact ⟨rfl, rfl, by decide, Or.inr (Or.inl rfl), Or.inr (Or.inr (Or.inl rfl))⟩
    · exact rfl
    · exact ⟨rfl, rfl, by decide, Or.inr (Or.inr ⟨Or.inl rfl, rfl⟩), Or.inr (Or.inl rfl)⟩
  have course : ∃ outcomes sh',
      Course sampleShared (sampleUnits.flatMap (·.arrivals)) outcomes sh' :=
    ⟨_, _, .next (.refl _) ⟨by decide, by decide, by decide⟩
      (.next (.refl _) ⟨by decide, by decide, by decide⟩
      (.next (.refl _) ⟨by decide, by decide, by decide⟩
      (.next (.refl _) ⟨by decide, by decide, by decide⟩
      (.next (.refl _) ⟨by decide, by decide, by decide⟩ (.done _)))))⟩
  obtain ⟨outcomes, sh', course⟩ := course
  obtain ⟨hall, hyields, hnone⟩ := units_yield wellFormed rfl course
  refine ⟨outcomes, sh', course, hall, hyields, hnone, ?_⟩
  have fits : ∀ d, some (20 : Int) = some d → FitsSigned 64 (d * 2) := by
    rintro d ⟨⟩
    decide
  generalize outcomes.flatMap (·.pushed) = pictures at hyields
  obtain - | ⟨⟨-, -, -, -, -, -, -, hfirst⟩, - | ⟨hframe, - | ⟨hpair, ⟨⟩⟩⟩⟩ := hyields
  obtain ⟨-, -, -, -, -, -, -, hlast⟩ := hpair
  rw [List.map_cons, List.map_cons, List.map_cons, hfirst fits, hframe, hlast fits]
  rfl

end Shared

end PictureBuffer
