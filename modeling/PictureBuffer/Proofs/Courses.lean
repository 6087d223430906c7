import PictureBuffer.Proofs.FieldPairs
import PictureBuffer.Proofs.Sending

/-!
# The course of emissions in a run

The law of well-formed pairs is about a course of emissions (`Shared.Course`), with anything in
between that leaves the stash alone. The emissions that the output passes of a session carry out are
such a course, whichever decoders hand the pictures out, and in any stretch of a run in which
nothing but a pass touches the stash (`course_of_stretch`). The arrivals are the pictures that the
steps of the passes hand out, in the order of the log.

A step takes the output flag off its victim after the emission, and the decoders, the workers and
the client go on between the passes. All of this only lets go of frames or brings in new ones, and
the frame of the stash is held by the stash itself, so that it keeps its layout
(`Between.of_evolves`).
-/

namespace PictureBuffer

/-! ## The emissions of a log -/

namespace Moment

/-- The picture that the step hands out, as it reaches the output process. -/
def arrival? (m : Moment) : Option Arrival :=
  m.handed?.map fun victim =>
    { victim, dts := m.decoder.dts, layout := (m.decoder.store.frame victim.frame).layout }

/-- The emission that the step carries out. -/
def emission? (m : Moment) : Option Shared.Outcome :=
  m.arrival?.map (Shared.outcome m.decoder.toShared)

/-- Nothing stands in the way of the picture that the step hands out, if it does. -/
def Unobstructed (m : Moment) : Prop :=
  m.handed?.isSome → m.decoder.queue.length < m.decoder.queue.capacity ∧ m.decoder.store.Supplies

end Moment

/-- **The emissions of the log are a course**, and nothing has touched the stash since, if nothing
stood in their way. -/
def OnCourse (sh : Shared) (log : List Moment) (now : Shared) : Prop :=
  (∀ m ∈ log, m.Unobstructed) → ∃ last,
    Shared.Course sh (log.filterMap Moment.arrival?) (log.filterMap Moment.emission?) last ∧
      Shared.Between last now

/-- The decoders, the workers and the client have gone on. -/
theorem OnCourse.between {sh now now' : Shared} {log : List Moment} (h : OnCourse sh log now)
    (hb : Shared.Between now now') : OnCourse sh log now' := by
  intro hfree
  obtain ⟨last, course, between⟩ := h hfree
  exact ⟨last, course, between.trans hb⟩

namespace Decoder

variable {d d' : Decoder} {others : List FrameId} {sh : Shared} {log : List Moment}

/-- What leaves the output process alone leaves the stash alone. -/
theorem Quiet.between (h : d.Quiet d') (held : d.Accounted others) :
    Shared.Between d.toShared d'.toShared :=
  .of_evolves (congrArg Scheduler.stash h.scheduler) h.evolves held (h.accounted others held)

end Decoder

namespace Moment

variable {m : Moment} {others : List FrameId} {sh : Shared} {log : List Moment}

/-- A step that hands nothing out leaves the stash alone. -/
theorem between_of_unhanded (hs : m.decoder.slot? m.ref = some m.slot)
    (held : m.decoder.Accounted others) (h : m.handed? = none) :
    Shared.Between m.decoder.toShared m.next.toShared := by
  have hgrows : m.decoder.Grows m.next := Decoder.grows_bump m.pass hs
  exact .of_evolves (stash_of_unhanded h) hgrows.evolves held (hgrows.accounted others held)

/-- A step that hands a picture out carries out its emission, and leaves the stash alone after
that. -/
theorem between_of_handed (hs : m.decoder.slot? m.ref = some m.slot)
    (held : m.decoder.Accounted others) {victim : Victim} (h : m.handed? = some victim) :
    Shared.Between (m.decoder.toShared.emit victim m.decoder.dts).2 m.next.toShared := by
  obtain ⟨frame, hframe, hvictim, -⟩ := handed?_cases h
  have hgrows := Decoder.grows_emitted hs hframe
  rw [← hvictim] at hgrows
  rcases he : m.decoder.toShared.emit victim m.decoder.dts with ⟨result, shared⟩
  rw [he] at hgrows
  rw [next, bump_of_handed h he]
  dsimp only
  split
  · exact .refl shared
  · exact (Decoder.steady_stripOutput _ m.ref).toQuiet.between (hgrows.accounted others held)

/-- **A step of a pass goes on with the course.** -/
theorem onCourse_next (hs : m.decoder.slot? m.ref = some m.slot) (held : m.decoder.Accounted others)
    (h : OnCourse sh log m.decoder.toShared) : OnCourse sh (log ++ [m]) m.next.toShared := by
  intro hfree
  obtain ⟨last, course, between⟩ := h fun m' hm => hfree m' (List.mem_append_left _ hm)
  rw [List.filterMap_append, List.filterMap_append]
  cases hh : m.handed? with
  | none =>
    have harrival : m.arrival? = none := by rw [arrival?, hh, Option.map_none]
    have hemission : m.emission? = none := by rw [emission?, harrival, Option.map_none]
    simp only [List.filterMap_cons, harrival, hemission, List.filterMap_nil, List.append_nil]
    exact ⟨last, course, between.trans (between_of_unhanded hs held hh)⟩
  | some victim =>
    obtain ⟨room, supplies⟩ := hfree m (List.mem_append_right _ List.mem_cons_self)
      (by rw [hh]; rfl)
    let arrival : Arrival :=
      { victim, dts := m.decoder.dts, layout := (m.decoder.store.frame victim.frame).layout }
    have harrival : m.arrival? = some arrival := by rw [arrival?, hh, Option.map_some]
    have hemission : m.emission? = some (Shared.outcome m.decoder.toShared arrival) := by
      rw [emission?, harrival, Option.map_some]
    simp only [List.filterMap_cons, harrival, hemission, List.filterMap_nil]
    exact ⟨_, course.concat between ⟨rfl, room, supplies⟩, between_of_handed hs held hh⟩

end Moment

namespace Decoder

variable {d : Decoder} {others : List FrameId} {sh : Shared} {log : List Moment}

/-- **A pass goes on with the course.** -/
theorem onCourse_output (held : d.Accounted others) (h : OnCourse sh log d.toShared)
    (pass : OutputPass) :
    OnCourse sh (log ++ d.moments pass) (d.output pass).2.toShared := by
  refine (@pass_induction d pass (fun log d => d.Accounted others ∧ OnCourse sh log d.toShared)
    ?_ log ⟨held, h⟩).1.2
  rintro log d ref slot ⟨held, h⟩ hv
  have hs : d.slot? ref = some slot := (mem_pending.mp (mem_pending_of_nextVictim? hv)).2.1
  exact ⟨(grows_bump pass hs).accounted others held,
    @Moment.onCourse_next ⟨pass, d, ref, slot⟩ others sh log hs held h⟩

end Decoder

/-! ## The emissions of a stretch -/

namespace Session

variable {config : Config} {provider : Provider} {log log' : List Moment} {s s' : Session}

/-- The event is an output pass, or it leaves the stash as it is. -/
def LeavesStash (s : Session) (e : Event) : Prop :=
  (∃ i pass, e = .run i (.output pass)) ∨
    s.moments e = [] ∧ (s.step e).2.shared.scheduler.stash = s.shared.scheduler.stash

theorem onCourse_step {sh : Shared} (held : s.Accounted) (h : OnCourse sh log s.shared) {e : Event}
    (he : s.LeavesStash e) : OnCourse sh (log ++ s.moments e) (s.step e).2.shared := by
  rcases he with ⟨i, pass, rfl⟩ | ⟨hm, hstash⟩
  · cases hd : s.decoder? i with
    | none =>
      simp only [moments, step, hd, List.append_nil]
      exact h
    | some d =>
      have hw : OnCourse sh log d.toShared := (decoder?_eq hd).2.symm ▸ h
      simp only [moments, step, hd]
      exact Decoder.onCourse_output ((accounted_iff hd).mp held) hw pass
  · rw [hm, List.append_nil]
    exact h.between (.of_evolves hstash (s.evolves_step e) held (accounted_step held e))

/-- **The emissions of a stretch of a run are a course**: those of the pictures that its output
passes hand out, in this order, if the queue has room for each of them and the provider has a frame
to weave into, and if no event but the passes touches the stash. The stash is then as the course
leaves it. -/
theorem course_of_stretch (run : Run config provider log s)
    (between : Stretch (fun _ => LeavesStash) log s log' s') :
    ∃ added, log' = log ++ added ∧ ((∀ m ∈ added, m.Unobstructed) → ∃ last,
      Shared.Course s.shared (added.filterMap Moment.arrival?)
        (added.filterMap Moment.emission?) last ∧
      Shared.Between last s'.shared) := by
  induction between with
  | refl => exact ⟨[], (List.append_nil log).symm, fun _ => ⟨_, .done _, .refl _⟩⟩
  | step before e he ih =>
    obtain ⟨added, hlog, h⟩ := ih
    have held := accounted_run (before.run run)
    exact ⟨added ++ _, by rw [hlog, List.append_assoc], onCourse_step held h he⟩

end Session

end PictureBuffer
