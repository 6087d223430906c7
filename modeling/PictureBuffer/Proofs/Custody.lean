import PictureBuffer.Proofs.Sessions

/-!
# Every handle has a holder

The handles to a frame are all accounted for, in every state of every run (`accounted_run`): each
belongs to a slot of a decoder, to the output process, or to a picture that the client keeps.

Seen from one decoder, the handles that are not its own and not those of the output process are
somebody else's (`Session.others`), and it neither takes nor gives up any of those
(`accounted_iff`).
-/

namespace PictureBuffer

/-! ## Numbered holders -/

/-- What is held under the numbers of a list. -/
def held {α : Type} (frames : α → List FrameId) (xs : List (Option α)) : List FrameId :=
  xs.flatMap fun x => x.elim [] frames

theorem held_append {α : Type} (frames : α → List FrameId) (xs ys : List (Option α)) :
    held frames (xs ++ ys) = held frames xs ++ held frames ys :=
  List.flatMap_append

/-- One entry is replaced. -/
theorem count_held_set {α : Type} {frames : α → List FrameId} {a : α} (new : Option α)
    (x : FrameId) : ∀ {xs : List (Option α)} {i : Nat}, xs[i]?.join = some a →
      (held frames (xs.set i new)).count x + (frames a).count x =
        (held frames xs).count x + (new.elim [] frames).count x := by
  intro xs
  induction xs with
  | nil =>
    intro i h
    cases h
  | cons first xs ih =>
    intro i h
    cases i with
    | zero =>
      obtain rfl : first = some a := h
      simp only [held, List.set_cons_zero, List.flatMap_cons, List.count_append, Option.elim_some]
      omega
    | succ i =>
      have hi := ih h
      simp only [held, List.set_cons_succ, List.flatMap_cons, List.count_append] at hi ⊢
      omega

/-- Closing the output process gives up its handles. -/
theorem Shared.accounted_close {sh : Shared} {others : List FrameId} (h : sh.Accounted others) :
    sh.close.Accounted others := by
  intro x
  have hx := h x
  unfold close
  dsimp only
  rw [Store.handles_releaseAll, Store.handles_releaseAll, Store.handles_releaseAll]
  simp only [frames, List.count_append] at hx ⊢
  simp only [Queue.drain, List.map_nil, Option.map_none, Option.toList_none, List.count_nil]
  omega

namespace Session

variable {s : Session} {i : Nat} {d : Decoder}

/-! ## The holders of a session -/

/-- The frames that decoders other than `i` hold, and those of the pictures that the client
keeps. -/
def others (s : Session) (i : Nat) : List FrameId :=
  held (·.layers.frames) (s.contexts.set i none) ++ held (fun picture => [picture.frame]) s.kept

/-- **Every handle has a holder**: the output process, a slot of a decoder, or the client. -/
def Accounted (s : Session) : Prop :=
  s.shared.Accounted (held (·.layers.frames) s.contexts ++
    held (fun picture => [picture.frame]) s.kept)

/-- Seen from one of the decoders. -/
theorem accounted_iff (hd : s.decoder? i = some d) : s.Accounted ↔ d.Accounted (s.others i) := by
  obtain ⟨hc, hshared⟩ := decoder?_eq hd
  have hcount : ∀ x, (held (·.layers.frames) s.contexts ++
      held (fun picture => [picture.frame]) s.kept).count x =
        (d.layers.frames ++ s.others i).count x := by
    intro x
    have hset := @count_held_set _ (fun c : Context => c.layers.frames) _ none x _ _ hc
    simp only [others, List.count_append, Option.elim_none, List.count_nil] at hset ⊢
    omega
  unfold Accounted Decoder.Accounted
  rw [hshared]
  exact ⟨fun h => h.congr hcount, fun h => h.congr fun x => (hcount x).symm⟩

theorem accounted_start (config : Config) (provider : Provider) :
    (start config provider).Accounted := by
  intro x
  have empty : ∀ layer capacity, (Dpb.empty layer capacity).frames = [] := by
    intro layer capacity
    refine List.filterMap_eq_nil_iff.mpr fun slot hs => ?_
    rw [List.eq_of_mem_replicate hs]
  have hframes : (Context.initial config).layers.frames = [] := by
    unfold Context.initial Layers.frames
    dsimp only
    rw [empty, empty]
    rfl
  simp only [start, held, List.flatMap_cons, List.flatMap_nil, Option.elim_some, hframes]
  rfl

/-! ## Handles through a run -/

/-- What leaves the queue is what the client gets. -/
theorem pictures_dequeue (s : Session) (all : Bool) :
    s.shared.queue.pictures = (s.dequeue all).1 ++ (s.dequeue all).2.shared.queue.pictures := by
  unfold dequeue Queue.pop? Queue.drain
  cases all with
  | true => exact (List.append_nil _).symm
  | false =>
    cases hq : s.shared.queue.pictures with
    | nil => simp [hq]
    | cons picture rest => simp

theorem accounted_take (h : s.Accounted) (all keep : Bool) (i : Nat) :
    (s.step (.take i all keep)).2.Accounted := by
  dsimp only [step]
  cases s.context? i with
  | none => exact h
  | some context =>
    have hpictures := s.pictures_dequeue all
    obtain ⟨queue, hq⟩ := dequeue_eq s all
    rw [hq] at hpictures
    have hkept : ∀ pictures : List Picture,
        held (fun picture => [picture.frame]) (pictures.map some) = pictures.map (·.frame) := by
      intro pictures
      induction pictures with
      | nil => rfl
      | cons picture pictures ih =>
        rw [List.map_cons, List.map_cons, ← ih]
        rfl
    dsimp only
    rw [hq]
    cases keep with
    | true =>
      intro x
      have hx := h x
      simp only [Shared.frames, hpictures, if_true, held_append, hkept, List.map_append,
        List.count_append] at hx ⊢
      omega
    | false =>
      intro x
      have hx := h x
      simp only [Shared.frames, hpictures, Bool.false_eq_true, if_false, modifyStore,
        Store.handles_releaseAll, List.map_append, List.count_append] at hx ⊢
      omega

/-- A decoder works, and leaves every handle with a holder. -/
theorem accounted_setDecoder {d' : Decoder} (h : s.Accounted) (hd : s.decoder? i = some d)
    (hd' : ∀ others, d.Accounted others → d'.Accounted others) : (s.setDecoder i d').Accounted := by
  have hothers : (s.setDecoder i d').others i = s.others i := by
    rw [others, setDecoder, List.set_set, others]
  rw [accounted_iff (decoder?_setDecoder hd d'), hothers]
  exact hd' _ ((accounted_iff hd).mp h)

/-- Frames that change in place keep their holders. -/
theorem accounted_update (h : s.Accounted) (frame : FrameId) (f : Frame → Frame) :
    (s.modifyStore (·.update frame f)).Accounted := by
  intro x
  simp only [modifyStore, Store.handles_update]
  exact h x

/-- A copy has handles of its own to the pictures in the buffer. -/
theorem accounted_fork (h : s.Accounted) {context : Context} (hc : s.context? i = some context) :
    (s.fork context).Accounted := by
  have hset := fun x => @count_held_set _ (fun c : Context => c.layers.frames) _ none x _ _ hc
  simp only [Option.elim_none, List.count_nil] at hset
  have hpos : ∀ id ∈ context.layers.frames, 0 < s.shared.store.handles id := by
    intro id hid
    have hx := h id
    have hpos := List.count_pos_iff.mpr hid
    have hcount := hset id
    simp only [List.count_append] at hx
    omega
  intro x
  have hx := h x
  have hretained := Store.handles_retainAll x context.layers.frames s.shared.store hpos
  simp only [fork, modifyStore, held_append, List.count_append] at hx ⊢
  rw [hretained]
  have hforked : held (fun c : Context => c.layers.frames) [some context.fork] =
      context.layers.frames := List.append_nil _
  rw [hforked]
  simp only [Shared.frames, List.count_append] at hx ⊢
  omega

/-- A decoder that is closed gives up its handles. -/
theorem accounted_close (h : s.Accounted) {context : Context} (hc : s.context? i = some context) :
    (s.close i context).Accounted := by
  have hclosed : ({ s with contexts := s.contexts.set i none }.modifyStore
      (·.releaseAll context.layers.frames)).Accounted := by
    intro x
    have hx := h x
    have hset := @count_held_set _ (fun c : Context => c.layers.frames) _ none x _ _ hc
    simp only [Option.elim_none, List.count_nil, modifyStore, Store.handles_releaseAll,
      Shared.frames, List.count_append] at hx hset ⊢
    omega
  dsimp only [close]
  split
  · exact Shared.accounted_close hclosed
  · exact hclosed

theorem accounted_letGo (h : s.Accounted) (i : Nat) : (s.step (.letGo i)).2.Accounted := by
  dsimp only [step]
  cases hk : s.kept[i]?.join with
  | none => exact h
  | some picture =>
    intro x
    have hx := h x
    have hset := @count_held_set _ (fun p : Picture => [p.frame]) _ none x _ _ hk
    simp only [Option.elim_none, List.count_nil, List.count_cons, modifyStore,
      Store.handles_release, Shared.frames, List.count_append, beq_iff_eq,
      eq_comm (a := picture.frame)] at hx hset ⊢
    omega

/-- **Whatever happens, every handle has a holder.** -/
theorem accounted_step (h : s.Accounted) (e : Event) : (s.step e).2.Accounted := by
  cases e with
  | run i command =>
    cases hd : s.decoder? i with
    | none =>
      simp only [step, hd]
      exact h
    | some d =>
      simp only [step, hd]
      exact accounted_setDecoder h hd (d.grows_run command).accounted
  | fork i =>
    dsimp only [step]
    cases hc : s.context? i with
    | none => exact h
    | some context => exact accounted_fork h hc
  | close i =>
    dsimp only [step]
    cases hc : s.context? i with
    | none => exact h
    | some context => exact accounted_close h hc
  | work i slot work =>
    dsimp only [step]
    cases (s.decoder? i).bind (·.frameAt? slot) with
    | none => exact h
    | some frame => exact accounted_update h frame work.apply
  | take i all keep => exact accounted_take h all keep i
  | letGo i => exact accounted_letGo h i

/-- **In every state of every run, every handle has a holder.** -/
theorem accounted_run {config : Config} {provider : Provider} {log : List Moment}
    (run : Run config provider log s) : s.Accounted := by
  induction run with
  | start => exact accounted_start config provider
  | step run e ih => exact accounted_step ih e

end Session

end PictureBuffer
