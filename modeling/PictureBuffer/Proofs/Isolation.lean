import PictureBuffer.Proofs.OwnField
import PictureBuffer.Proofs.Untouched

/-!
# Copies of a decoder are isolated

A copy of a decoder starts with the pictures in the buffer of the original, and both go on with one
output process. Still neither sees what the other does (`isolated`): the copy leaves the original
alone, with the frames of its pictures, and the original leaves the copy alone, with the frames that
the copy has acquired for pictures of its own.

What a decoder must not write to is kept apart by two rules, which hold in every state of every run
(`Session.Parted`): the scratch frame is in no slot, and no decoder that is older than another one
has the picture that the other is producing.
-/

namespace PictureBuffer

namespace Decoder

variable {d : Decoder} {ref : SlotRef} {x : FrameId} {others : List FrameId}

/-- The frame of a slot is known. -/
theorem Accounted.lt_of_frameAt? (h : d.Accounted others) (hf : d.frameAt? ref = some x) :
    x < d.store.cells.size := by
  obtain ⟨slot, hs, hslot⟩ := Decoder.frameAt?_eq_some_iff.mp hf
  exact Store.lt_size_of_handles_pos
    (Shared.Accounted.pos h (List.mem_append_left others (mem_frames hs hslot)))

/-- **No command brings the scratch frame into a slot.** -/
theorem scratch_ne_run (h : d.Accounted others)
    (hne : ∀ ref x, d.frameAt? ref = some x → d.scheduler.scratch ≠ some x) (command : Command)
    (hf : (d.run command).2.frameAt? ref = some x) :
    (d.run command).2.scheduler.scratch ≠ some x := by
  intro hs
  have old : d.frameAt? ref = some x → False := fun hold =>
    have hx := h.lt_of_frameAt? hold
    hne ref x hold ((d.confines_run command).scratch x hx hs)
  -- A frame that has just entered a slot is newer than the scratch frame.
  have entered : d.Quiet (d.run command).2 → False := by
    intro hquiet
    rw [hquiet.scheduler] at hs
    have hx := Store.lt_size_of_handles_pos (Shared.Accounted.pos_scratch h hs)
    exact old ((d.confines_run command).slots ref x hx hf)
  cases command with
  | startPicture layer info => exact entered (d.quiet_startPicture layer info)
  | deriveSets layer hdr => exact entered (d.steady_deriveSets layer hdr).toQuiet
  | _ => exact old ((d.ages_run trivial).frameAt? hf)

end Decoder

namespace Session

variable {s s' : Session} {e : Event} {i j k : Nat} {d : Decoder} {ref : SlotRef} {x : FrameId}

/-! ## Who may write to a frame -/

/-- No slot of decoder `i` holds the frame. -/
def Lacks (s : Session) (i : Nat) (x : FrameId) : Prop :=
  ∀ d ref, s.decoder? i = some d → d.frameAt? ref ≠ some x

/-- **What keeps decoders apart.** -/
structure Parted (s : Session) : Prop where
  /-- The scratch frame is in no slot. -/
  scratch : ∀ k d ref x, s.decoder? k = some d → d.frameAt? ref = some x →
    s.shared.scheduler.scratch ≠ some x
  /-- No older decoder has the picture that a decoder is producing. -/
  owner : ∀ i j d x, i < j → s.decoder? j = some d → d.Owns x → s.Lacks i x

theorem Accounted.known (h : s.Accounted) (hd : s.decoder? k = some d)
    (hf : d.frameAt? ref = some x) : x < s.known := by
  have hx := ((accounted_iff hd).mp h).lt_of_frameAt? hf
  rwa [(decoder?_eq hd).2] at hx

/-- A frame that a decoder lacks does not get to it later. -/
theorem Lacks.step (h : s.Lacks k x) (hk : k < s.contexts.length) (hx : x < s.known) (e : Event) :
    (s.step e).2.Lacks k x := by
  intro d ref hd hf
  obtain ⟨old, hold, hat⟩ := frameAt?_of_step hk hx hd hf
  exact h old ref hold hat

/-- Somebody who owns a picture has started it, and is not a copy that has just been made. -/
theorem lt_length_of_owns (hd : (s.step e).2.decoder? k = some d) (ho : d.Owns x) :
    k < s.contexts.length := by
  obtain ⟨hc, -⟩ := decoder?_eq hd
  have hlt := lt_length_of_context? hc
  have hstepped := s.stepped e
  generalize (s.step e).2 = s' at hstepped hc hlt
  cases hstepped with
  | ran => exact lt_of_lt_of_eq hlt List.length_set
  | @forked i context hcontext =>
    rcases Nat.lt_or_ge k s.contexts.length with hk | hk
    · exact hk
    · have hlength : (s.fork context).contexts.length = s.contexts.length + 1 := by
        simp [fork, modifyStore]
      obtain rfl : k = s.contexts.length := by omega
      rw [context?_fork_self, Option.some.injEq] at hc
      have howns := ho.1
      rw [← hc] at howns
      cases howns
  | closed => exact lt_of_lt_of_eq hlt List.length_set
  | served => exact hlt

/-- A decoder that owns a known frame has owned it before. -/
theorem owns_of_step (hx : x < s.known) (hd : (s.step e).2.decoder? k = some d) (ho : d.Owns x) :
    ∃ old, s.decoder? k = some old ∧ old.Owns x := by
  obtain ⟨old, hold, ⟨command, -, rfl⟩ | hcontext⟩ := decoder?_of_step (lt_length_of_owns hd ho) hd
  · refine ⟨old, hold, ho.of_run ?_⟩
    rw [(decoder?_eq hold).2]
    exact hx
  · refine ⟨old, hold, ?_⟩
    obtain ⟨dc, ds⟩ := d
    obtain ⟨oc, os⟩ := old
    obtain rfl : dc = oc := hcontext
    exact ho

/-- Only the decoder that carries out a command brings a new frame into its slots. -/
theorem brought_of_step (ha : s.Accounted) (hk : k < s.contexts.length) (hx : s.known ≤ x)
    (hd : (s.step e).2.decoder? k = some d) (hf : d.frameAt? ref = some x) :
    ∃ command, e = .run k command := by
  obtain ⟨old, hold, ⟨command, he, -⟩ | hcontext⟩ := decoder?_of_step hk hd
  · exact ⟨command, he⟩
  · have hlayers : d.layers = old.layers := congrArg Context.layers hcontext
    have hat := (Decoder.frameAt?_congr hlayers ref).symm.trans hf
    exact absurd (ha.known hold hat) (Nat.not_lt.mpr hx)

theorem parted_start (config : Config) (provider : Provider) : (start config provider).Parted := by
  have empty : ∀ k d ref x, (start config provider).decoder? k = some d →
      d.frameAt? ref ≠ some x := by
    intro k d ref x hd hf
    have hx := (accounted_start config provider).known hd hf
    exact absurd hx (Nat.not_lt_zero x)
  refine ⟨fun k d ref x hd hf => absurd hf (empty k d ref x hd), ?_⟩
  exact fun i _ _ x _ _ _ d ref hd => empty i d ref x hd

/-- **Whatever happens, decoders are kept apart.** -/
theorem parted_step (h : s.Parted) (ha : s.Accounted) (e : Event) : (s.step e).2.Parted := by
  constructor
  · intro k d ref x hd hf
    obtain ⟨i, old, hold, ⟨command, rfl, rfl⟩ | ⟨owns, hcontext⟩⟩ := decoder?_step hd
    · have hscratch : old.scheduler.scratch = s.shared.scheduler.scratch := by
        rw [(decoder?_eq hold).2]
      have hs := Decoder.scratch_ne_run ((accounted_iff hold).mp ha)
        (fun ref x hat => by rw [hscratch]; exact h.scratch i old ref x hold hat) command hf
      rwa [(decoder?_eq hd).2] at hs
    · have hlayers : d.layers = old.layers := by
        rw [hcontext]
      have hat := (Decoder.frameAt?_congr hlayers ref).symm.trans hf
      exact (apart_step ⟨ha.known hold hat, h.scratch i old ref x hold hat⟩ e).scratch
  · intro i j d x hij hd ho
    have hj := lt_length_of_owns hd ho
    have hi := Nat.lt_trans hij hj
    rcases Nat.lt_or_ge x s.known with hx | hfresh
    · obtain ⟨old, hold, hown⟩ := owns_of_step hx hd ho
      exact (h.owner i j old x hij hold hown).step hi hx e
    · -- The frame is new, and only one decoder has brought it in.
      intro di ref hdi hf
      obtain ⟨-, ref', -, hf'⟩ := ho
      obtain ⟨command, rfl⟩ := brought_of_step ha hi hfresh hdi hf
      obtain ⟨command', he⟩ := brought_of_step ha hj hfresh hd hf'
      cases he
      exact Nat.lt_irrefl i hij

variable {config : Config} {provider : Provider} {log : List Moment}

theorem parted_run (run : Run config provider log s) : s.Parted := by
  induction run with
  | start => exact parted_start config provider
  | step run e ih => exact parted_step ih (accounted_run run) e

/-- A frame in a slot is known, and it is not the scratch frame. -/
theorem apart_of_frameAt? (run : Run config provider log s) (hd : s.decoder? k = some d)
    (hf : d.frameAt? ref = some x) : s.Apart x :=
  ⟨(accounted_run run).known hd hf, (parted_run run).scratch k d ref x hd hf⟩

/-! ## Who has acquired a frame -/

/-- **Decoder `i` has acquired the frame** for a picture: it has brought the frame into one of its
slots when the frame was new. -/
inductive Acquired (config : Config) (provider : Provider) (i : Nat) (x : FrameId) :
    Session → Prop
  | entered {log : List Moment} {s : Session} {command : Command} {d : Decoder} {ref : SlotRef}
      (run : Run config provider log s) (hx : s.known ≤ x)
      (hd : (s.step (.run i command)).2.decoder? i = some d) (hf : d.frameAt? ref = some x) :
      Acquired config provider i x (s.step (.run i command)).2
  | later {s : Session} (h : Acquired config provider i x s) (e : Event) :
      Acquired config provider i x (s.step e).2

/-- A frame that was acquired for a picture is never the scratch frame. -/
theorem Acquired.apart (h : Acquired config provider i x s) : s.Apart x := by
  induction h with
  | @entered _ _ command _ _ run hx hd hf => exact apart_of_frameAt? (run.step _) hd hf
  | later _ e ih => exact apart_step ih e

/-- **Only the decoder that has acquired a frame ever produces its picture.** -/
theorem Acquired.not_owns (h : Acquired config provider i x s) (hk : k ≠ i)
    (hd : s.decoder? k = some d) : ¬ d.Owns x := by
  induction h generalizing d with
  | entered run hx _ _ =>
    intro ho
    have hlt := lt_length_of_owns hd ho
    obtain ⟨-, ref, -, hf⟩ := ho
    obtain ⟨command, he⟩ := brought_of_step (accounted_run run) hlt hx hd hf
    cases he
    exact hk rfl
  | later h e ih =>
    intro ho
    obtain ⟨old, hold, hown⟩ := owns_of_step h.apart.known hd ho
    exact ih hold hown

/-! ## Events of one decoder -/

/-- The decoder that an event is an operation of. Workers, and the client with the pictures that it
has kept, act for themselves. -/
def actor? : Event → Option Nat
  | .run i _ | .fork i | .close i | .take i _ _ => some i
  | .work .. | .letGo _ => none

/-- What one decoder does leaves the others as they are. -/
theorem context?_step_of_actor {context : Context} (hc : s.context? k = some context)
    (he : actor? e = some j) (hne : k ≠ j) : (s.step e).2.context? k = some context := by
  have hstepped := s.stepped e
  generalize (s.step e).2 = s' at hstepped
  cases hstepped with
  | @ran i old command hold =>
    obtain rfl : i = j := Option.some.inj he
    rwa [context?_setDecoder hold, if_neg hne]
  | forked => rwa [context?_fork_of_some hc]
  | @closed i =>
    obtain rfl : i = j := Option.some.inj he
    rwa [context?, List.getElem?_set, if_neg (Ne.symm hne)]
  | served => exact hc

theorem spares_close (s : Session) (i : Nat) (context : Context) (x : FrameId) :
    Store.Spares x s.shared.store (s.close i context).shared.store := by
  have released := Store.spares_releaseAll context.layers.frames x s.shared.store
  unfold close
  dsimp only
  split
  · exact ((released.trans (Store.spares_releaseAll _ x _)).trans
      (Store.spares_releaseAll _ x _)).trans (Store.spares_releaseAll _ x _)
  · exact released

/-- **An event of a decoder spares** every frame whose picture it is not producing, but for the
scratch frame. -/
theorem spares_step (hap : s.Apart x) (he : actor? e = some j)
    (hown : ∀ d, s.decoder? j = some d → ¬ d.Owns x) :
    Store.Spares x s.shared.store (s.step e).2.shared.store := by
  cases e with
  | run i command =>
    obtain rfl : i = j := Option.some.inj he
    dsimp only [step]
    cases hd : s.decoder? i with
    | none => exact .refl x _
    | some d =>
      have hspares := Decoder.spares_run (hap.decoder hd) (hown d hd) command
      rw [(decoder?_eq hd).2] at hspares
      exact hspares
  | fork i =>
    dsimp only [step]
    cases s.context? i with
    | none => exact .refl x _
    | some context => exact Store.spares_retainAll _ x _
  | close i =>
    dsimp only [step]
    cases s.context? i with
    | none => exact .refl x _
    | some context => exact s.spares_close i context x
  | take i all keep =>
    obtain ⟨queue, hq⟩ := s.dequeue_eq all
    dsimp only [step]
    cases s.context? i with
    | none => exact .refl x _
    | some context =>
      dsimp only
      rw [hq]
      split
      · exact .refl x _
      · exact Store.spares_releaseAll _ x _
  | work | letGo => cases he

/-- What a decoder does leaves the frames in the slots of another one as they are, unless it is
producing them. -/
theorem frame?_step_of_actor (run : Run config provider log s) (hd : s.decoder? k = some d)
    (hf : d.frameAt? ref = some x) (he : actor? e = some j) (hne : k ≠ j)
    (hown : ∀ d, s.decoder? j = some d → ¬ d.Owns x) :
    (s.step e).2.shared.store.frame? x = s.shared.store.frame? x := by
  refine (spares_step (apart_of_frameAt? run hd hf) he hown).frame?_eq ?_
  -- The slot still holds its handle.
  have hc := context?_step_of_actor (decoder?_eq hd).1 he hne
  let d' : Decoder := { toContext := d.toContext, toShared := (s.step e).2.shared }
  have hd' : (s.step e).2.decoder? k = some d' := by
    rw [decoder?, hc]
    rfl
  obtain ⟨slot, hslot, hframe⟩ := Decoder.frameAt?_eq_some_iff.mp hf
  exact Shared.Accounted.pos ((accounted_iff hd').mp (accounted_run (run.step e)))
    (List.mem_append_left _ (@Decoder.mem_frames d' ref slot x hslot hframe))

/-- **Another decoder is untouched**: its own state is as it was, and so are the frames of its
pictures that satisfy `p`. -/
structure Untouched (s : Session) (k : Nat) (p : FrameId → Prop) (s' : Session) : Prop where
  context : s'.context? k = s.context? k
  frames : ∀ d ref x, s.decoder? k = some d → d.frameAt? ref = some x → p x →
    s'.shared.store.frame? x = s.shared.store.frame? x

/-- What a decoder does leaves another one untouched, in a stretch throughout which it does not
produce any of the pictures. -/
theorem Stretch.untouched {log log' : List Moment} {p : FrameId → Prop}
    {I : Session → Prop}
    (step : ∀ {s : Session} {e : Event}, I s → actor? e = some j → I (s.step e).2)
    (hown : ∀ {log : List Moment} {s : Session} {d other : Decoder} {ref : SlotRef} {x : FrameId},
      Run config provider log s → I s → s.decoder? k = some d → d.frameAt? ref = some x → p x →
      s.decoder? j = some other → ¬ other.Owns x)
    (h : Stretch (fun _ _ e => actor? e = some j) log s log' s') (hne : k ≠ j)
    (run : Run config provider log s) (hinv : I s) {d : Decoder} (hd : s.decoder? k = some d) :
    I s' ∧ s.Untouched k p s' := by
  induction h with
  | refl => exact ⟨hinv, rfl, fun _ _ _ _ _ _ => rfl⟩
  | @step log'' s'' h e he ih =>
    obtain ⟨hinv'', huntouched⟩ := ih
    have run'' := h.run run
    have hc : s''.context? k = some d.toContext := huntouched.context.trans (decoder?_eq hd).1
    let d'' : Decoder := { toContext := d.toContext, toShared := s''.shared }
    have hd'' : s''.decoder? k = some d'' := by
      rw [decoder?, hc]
      rfl
    refine ⟨step hinv'' he, (context?_step_of_actor hc he hne).trans (decoder?_eq hd).1.symm, ?_⟩
    intro d₀ ref x hd₀ hf hp
    obtain rfl : d = d₀ := Option.some.inj (hd.symm.trans hd₀)
    have hf'' : d''.frameAt? ref = some x := hf
    exact (frame?_step_of_actor run'' hd'' hf'' he hne
      fun other => hown run'' hinv'' hd'' hf'' hp).trans (huntouched.frames d ref x hd hf hp)

/-- **A decoder never writes to a frame that another one has acquired** for a picture, wherever the
frame is held. -/
theorem Stretch.spares {log log' : List Moment}
    (h : Stretch (fun _ _ e => actor? e = some j) log s log' s')
    (hacquired : Acquired config provider k x s) (hne : k ≠ j) :
    Acquired config provider k x s' ∧ Store.Spares x s.shared.store s'.shared.store := by
  induction h with
  | refl => exact ⟨hacquired, .refl x _⟩
  | step h e he ih =>
    obtain ⟨hacquired, hspares⟩ := ih
    exact ⟨hacquired.later e, hspares.trans
      (spares_step hacquired.apart he fun _ => hacquired.not_owns (Ne.symm hne))⟩

/-! ## Copies -/

/-- **Decoder `j` is a copy of decoder `i`**, or a copy of a copy of it. -/
inductive Copies (config : Config) (provider : Provider) : Session → Nat → Nat → Prop
  | forked {log : List Moment} {s : Session} {i : Nat} {context : Context}
      (run : Run config provider log s) (hc : s.context? i = some context) :
      Copies config provider (s.step (.fork i)).2 i s.contexts.length
  | again {s : Session} {i j : Nat} {context : Context} (h : Copies config provider s i j)
      (hc : s.context? j = some context) :
      Copies config provider (s.step (.fork j)).2 i s.contexts.length
  | later {s : Session} {i j : Nat} (h : Copies config provider s i j) (e : Event) :
      Copies config provider (s.step e).2 i j

/-- A copy is younger than its original. -/
theorem Copies.lt (h : Copies config provider s i j) : i < j := by
  induction h with
  | forked _ hc => exact lt_length_of_context? hc
  | again _ hc ih => exact Nat.lt_trans ih (lt_length_of_context? hc)
  | later _ _ ih => exact ih

/-- **A copy and its original are isolated**, in every state of every run.

* Whatever the copy does, with the frames of the original's pictures and its own: the original is as
  it was, and so are the frames in its slots.
* Whatever the original does, the copy is as it was, and so are the frames of the pictures that it
  has acquired since.

And neither ever writes to a frame that another decoder has acquired for a picture, wherever the
frame is held. -/
theorem isolated (run : Run config provider log s) (h : Copies config provider s i j) :
    (∀ {log' s'} {d : Decoder}, Stretch (fun _ _ e => actor? e = some j) log s log' s' →
      s.decoder? i = some d → s.Untouched i (fun _ => True) s' ∧
      ∀ k x, k ≠ j → Acquired config provider k x s →
        Store.Spares x s.shared.store s'.shared.store) ∧
    ∀ {log' s'} {d : Decoder}, Stretch (fun _ _ e => actor? e = some i) log s log' s' →
      s.decoder? j = some d → s.Untouched j (Acquired config provider j · s) s' ∧
      ∀ k x, k ≠ i → Acquired config provider k x s →
        Store.Spares x s.shared.store s'.shared.store := by
  have hlt := h.lt
  constructor
  · intro log' s' d stretch hd
    refine ⟨?_, fun k x hne hacquired => (stretch.spares hacquired hne).2⟩
    -- The copy does not produce what its elder holds.
    refine (stretch.untouched (I := fun _ => True) (fun _ _ => trivial) ?_ (Nat.ne_of_lt hlt) run
      trivial hd).2
    intro log s d other ref x run _ hd hf _ hother ho
    exact (parted_run run).owner i j other x hlt hother ho d ref hd hf
  · intro log' s' d stretch hd
    refine ⟨?_, fun k x hne hacquired => (stretch.spares hacquired hne).2⟩
    -- Nor does the original produce what the copy has acquired.
    refine (stretch.untouched (I := fun s' => ∀ x, Acquired config provider j x s →
      Acquired config provider j x s') ?_ ?_ (Nat.ne_of_gt hlt) run (fun _ hx => hx) hd).2
    · exact fun hinv _ x hx => (hinv x hx).later _
    · intro log s' d other ref x _ hinv _ _ hp hother
      exact (hinv x hp).not_owns (Nat.ne_of_lt hlt) hother

/-- A decoder is copied while it is decoding a picture. -/
def copied : Session :=
  (start {} {}).afterAll [.run 0 (.setSps 0 { width := 2, height := 2 }), startBase 10, .fork 0]

/-- The start of a picture of the copy. -/
def startCopy : Event :=
  .run 1 (.startPicture 0 { poc := 11, output := true, numSlices := 1, pps := {} })

/-- The copy finishes the picture that it has taken over, decodes one of its own, and is closed. -/
def copyWork : List Event :=
  [.run 1 .finishPicture, startCopy, .run 1 (.output basePass), .run 1 .flush, .close 1]

/-- Everything is given up by the original. -/
def originalWork : List Event := [.run 0 .clear, .close 0]

/-- The picture that the original is decoding is left alone by the copy, and the picture that the
copy is decoding by the original. -/
theorem copied_isolated : ∃ log d copy, Run {} {} log copied ∧ Copies {} {} copied 0 1 ∧
    copied.decoder? 0 = some d ∧ d.Owns 0 ∧
    copied.Untouched 0 (fun _ => True) (copied.afterAll copyWork) ∧
    (copied.step startCopy).2.decoder? 1 = some copy ∧ copy.Owns 1 ∧
    (copied.step startCopy).2.Untouched 1 (Acquired {} {} 1 · (copied.step startCopy).2)
      ((copied.step startCopy).2.afterAll originalWork) := by
  have run := run_all [.run 0 (.setSps 0 { width := 2, height := 2 }), startBase 10]
    (@Run.start {} {})
  have hcopies : Copies {} {} copied 0 1 := .forked run rfl
  have first : ∀ log, Stretch (fun _ _ e => actor? e = some 1) log copied
      (log ++ copied.momentsAll copyWork) (copied.afterAll copyWork) :=
    fun _ => Stretch.refl.all ⟨rfl, rfl, rfl, rfl, rfl, trivial⟩
  have second : ∀ log, Stretch (fun _ _ e => actor? e = some 0) log (copied.step startCopy).2
      (log ++ (copied.step startCopy).2.momentsAll originalWork)
      ((copied.step startCopy).2.afterAll originalWork) :=
    fun _ => Stretch.refl.all ⟨rfl, rfl, trivial⟩
  refine ⟨_, _, _, run.step (.fork 0), hcopies, rfl, ⟨rfl, ⟨0, 0⟩, rfl, rfl⟩, ?_, rfl,
    ⟨rfl, ⟨0, 1⟩, rfl, rfl⟩, ?_⟩
  · exact ((isolated (run.step (.fork 0)) hcopies).1 (first _) rfl).1
  · exact ((isolated ((run.step (.fork 0)).step startCopy) (hcopies.later startCopy)).2
      (second _) rfl).1

end Session

end PictureBuffer
