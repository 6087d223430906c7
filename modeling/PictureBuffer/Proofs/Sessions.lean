import PictureBuffer.Proofs.Origins

/-!
# Runs of a session

A session runs through any events, in any order, from its start (`Session.Run`). The **log** of a
run lists the steps of all its output passes, whichever decoder took them (`Session.moments`). What
one event can do is listed in `Session.Stepped`.

* `described_run`: whoever holds a frame agrees on which picture it belongs to, in every state of
  every run. Frames that exist keep their origin (`described_step`).
-/

namespace PictureBuffer

namespace Session

variable {s s' : Session} {origin origin' : FrameId → Origin} {i j : Nat} {d : Decoder}

/-- The frames of a session so far. -/
def known (s : Session) : Nat := s.shared.store.cells.size

/-- The slots of all decoders and the stash agree on the origins of their frames. -/
def Described (s : Session) (origin : FrameId → Origin) : Prop :=
  ∀ i d, s.decoder? i = some d → d.Described origin

theorem decoder?_eq (h : s.decoder? i = some d) :
    s.context? i = some d.toContext ∧ d.toShared = s.shared := by
  unfold decoder? at h
  cases hc : s.context? i with
  | none => rw [hc] at h; cases h
  | some context =>
    rw [hc] at h
    cases h
    exact ⟨rfl, rfl⟩

theorem lt_length_of_context? {context : Context} (h : s.context? i = some context) :
    i < s.contexts.length := by
  unfold context? at h
  rcases Nat.lt_or_ge i s.contexts.length with hlt | hge
  · exact hlt
  · rw [List.getElem?_eq_none hge] at h
    cases h

theorem context?_setDecoder (h : s.decoder? i = some d) (d' : Decoder) (j : Nat) :
    (s.setDecoder i d').context? j = if j = i then some d'.toContext else s.context? j := by
  have hlt := lt_length_of_context? (decoder?_eq h).1
  unfold setDecoder context?
  rw [List.getElem?_set]
  by_cases hj : i = j
  · subst hj
    rw [if_pos rfl, if_pos hlt, if_pos rfl]
    rfl
  · rw [if_neg hj, if_neg (Ne.symm hj)]

theorem decoder?_setDecoder (h : s.decoder? i = some d) (d' : Decoder) :
    (s.setDecoder i d').decoder? i = some d' := by
  rw [decoder?, context?_setDecoder h, if_pos rfl]
  rfl

/-- A decoder that has done nothing. -/
theorem setDecoder_self (h : s.decoder? i = some d) : s.setDecoder i d = s := by
  obtain ⟨hc, hshared⟩ := decoder?_eq h
  have hcontext : s.contexts[i]? = some (some d.toContext) := by
    unfold context? at hc
    cases hi : s.contexts[i]? with
    | none =>
      rw [hi] at hc
      cases hc
    | some context =>
      rw [hi] at hc
      exact congrArg some hc
  have hset : s.contexts.set i (some d.toContext) = s.contexts := by
    refine List.ext_getElem? fun j => ?_
    rw [List.getElem?_set]
    by_cases hj : i = j
    · subst hj
      rw [if_pos rfl, if_pos (lt_length_of_context? hc), hcontext]
    · rw [if_neg hj]
  unfold setDecoder
  rw [hset, hshared]

/-- A decoder that carries out a command is what the command makes of it. -/
theorem decoder?_run (h : s.decoder? i = some d) (command : Command) :
    (s.step (.run i command)).2.decoder? i = some (d.run command).2 := by
  have hs : (s.step (.run i command)).2 = s.setDecoder i (d.run command).2 := by
    simp only [step, h]
  rw [hs, decoder?_setDecoder h]

theorem described_start (config : Config) (provider : Provider) (origin : FrameId → Origin) :
    (start config provider).Described origin := by
  intro i d h
  obtain ⟨hc, hs⟩ := decoder?_eq h
  have hd : d.toContext = .initial config := by
    rcases i with _ | i
    · exact (Option.some.inj hc).symm
    · cases hc
  have empty : ∀ (dpb : Dpb) (n layer capacity : Nat), dpb = .empty layer capacity →
      dpb.Described origin d.store.cells.size n := by
    rintro dpb n layer capacity rfl i slot frame hslot hf
    have hm := List.eq_of_mem_replicate (List.mem_of_getElem? hslot)
    rw [hm] at hf
    cases hf
  refine ⟨?_, ?_⟩
  · rw [hd]
    exact ⟨empty _ 0 _ _ rfl, empty _ 1 _ _ rfl⟩
  · intro field hf
    rw [hs] at hf
    cases hf

/-- What does not lose track of a frame, and changes the stash only to empty it. -/
theorem described_of_shared (h : s.Described origin) (hsize : s.known = s'.known)
    (hstash : ∀ field, s'.shared.scheduler.stash = some field →
      s.shared.scheduler.stash = some field)
    (hc : ∀ i context, s'.context? i = some context →
      ∃ j context', s.context? j = some context' ∧ context'.layers = context.layers) :
    s'.Described origin := by
  intro i d hd
  obtain ⟨hcontext, hshared⟩ := decoder?_eq hd
  obtain ⟨j, context', hj, hl⟩ := hc i _ hcontext
  have h' := h j { toContext := context', toShared := s.shared } (by rw [decoder?, hj]; rfl)
  have hbound : d.store.cells.size = s.shared.store.cells.size := by
    rw [hshared]
    exact hsize.symm
  refine ⟨?_, ?_⟩
  · rw [hbound, ← hl]
    exact h'.layers
  · intro field hf
    rw [hshared] at hf
    rw [hbound]
    exact h'.stash field (hstash field hf)

theorem tame_apply (work : Work) : Store.Tame work.apply := by
  cases work with
  | render sample => exact fun _ => ⟨rfl, fun _ => rfl⟩
  | produce => exact Decoder.tame_produce
  | cancel => exact Decoder.tame_cancel

theorem evolves_close (sh : Shared) : sh.store.Evolves sh.close.store :=
  ((Store.evolves_releaseAll _ _).trans (Store.evolves_releaseAll _ _)).trans
    (Store.evolves_releaseAll _ _)

theorem size_close (sh : Shared) : sh.close.store.cells.size = sh.store.cells.size := by
  unfold Shared.close
  dsimp only
  rw [Store.size_releaseAll, Store.size_releaseAll, Store.size_releaseAll]

/-- A decoder that worked: the others see the same pictures as before. -/
theorem described_command (h : s.Described origin) (hd : s.decoder? i = some d)
    (command : Command) : ∃ origin', Agree s.known origin origin' ∧
      (s.setDecoder i (d.run command).2).Described origin' := by
  have hg := d.grows_run command
  have hstore : d.store = s.shared.store := congrArg Shared.store (decoder?_eq hd).2
  obtain ⟨origin', ha, hd'⟩ := hg.described origin (h i d hd)
  have hle := hg.evolves.size_le
  rw [hstore] at ha hle
  refine ⟨origin', ha, ?_⟩
  intro j dj hj
  obtain ⟨hc, hshared⟩ := decoder?_eq hj
  rw [context?_setDecoder hd] at hc
  refine ⟨?_, ?_⟩
  · rw [hshared]
    by_cases hi : j = i
    · rw [if_pos hi] at hc
      rw [← Option.some.inj hc]
      exact hd'.layers
    · rw [if_neg hi] at hc
      have hold := h j { toContext := dj.toContext, toShared := s.shared }
        (by rw [decoder?, hc]; rfl)
      exact hold.layers.mono hle ha
  · rw [hshared]
    exact hd'.stash

theorem context?_fork {context : Context} {k : Nat} {new : Context}
    (h : (s.fork context).context? k = some new) :
    s.context? k = some new ∨ new = context.fork := by
  unfold fork modifyStore context? at h
  dsimp only at h
  rw [List.getElem?_append] at h
  split at h
  · exact Or.inl h
  · rename_i hk
    cases hm : k - s.contexts.length with
    | zero =>
      rw [hm] at h
      exact Or.inr (Option.some.inj h).symm
    | succ m =>
      rw [hm] at h
      cases h

/-- The decoders that were there before a fork are still there. -/
theorem context?_fork_of_some {context : Context} {k : Nat} (h : s.context? k = some context)
    (forked : Context) : (s.fork forked).context? k = s.context? k := by
  have hlt := lt_length_of_context? h
  unfold fork modifyStore context?
  dsimp only
  rw [List.getElem?_append_left hlt]

theorem context?_fork_self (context : Context) :
    (s.fork context).context? s.contexts.length = some context.fork := by
  unfold fork modifyStore context?
  dsimp only
  rw [List.getElem?_append_right (Nat.le_refl _), Nat.sub_self]
  rfl

/-- A closed decoder is gone, and the others are as they were. -/
theorem context?_set_none {contexts : List (Option Context)} {i k : Nat} {context : Context}
    (h : ((contexts.set i none)[k]?).join = some context) : contexts[k]?.join = some context := by
  rw [List.getElem?_set] at h
  split at h
  · split at h <;> cases h
  · exact h

/-- Pictures leave the queue, and nothing else changes. -/
theorem dequeue_eq (s : Session) (all : Bool) :
    ∃ queue, (s.dequeue all).2 = { s with shared := { s.shared with queue } } := by
  unfold dequeue
  split
  · exact ⟨_, rfl⟩
  · split
    · exact ⟨s.shared.queue, rfl⟩
    · exact ⟨_, rfl⟩

/-! ## What an event does -/

/-- The steps of output passes that an event takes. -/
def moments (s : Session) : Event → List Moment
  | .run i (.output pass) =>
    match s.decoder? i with
    | none => []
    | some d => d.moments pass
  | .run i .flush =>
    match s.decoder? i with
    | none => []
    | some d => d.dropCurrent.moments d.flushPass
  | _ => []

/-- A decoder is closed: the others go on as before, without what the output process lets go of. -/
theorem close_eq (s : Session) (i : Nat) (context : Context) :
    ∃ shared, s.close i context = { s with shared, contexts := s.contexts.set i none } ∧
      s.shared.store.Evolves shared.store ∧
      shared.store.cells.size = s.shared.store.cells.size ∧
      ∀ field, shared.scheduler.stash = some field → s.shared.scheduler.stash = some field := by
  have hr := Store.evolves_releaseAll context.layers.frames s.shared.store
  have hsize := Store.size_releaseAll context.layers.frames s.shared.store
  let shared : Shared :=
    { s.shared with store := s.shared.store.releaseAll context.layers.frames }
  unfold close
  dsimp only
  split
  · refine ⟨shared.close, rfl, hr.trans (evolves_close shared), (size_close shared).trans hsize, ?_⟩
    intro field hf
    cases hf
  · exact ⟨shared, rfl, hr, hsize, fun _ hf => hf⟩

/-- **What an event can do** to a session. -/
inductive Stepped (s : Session) : Event → Session → Prop
  | ran {i : Nat} {d : Decoder} {command : Command} (hd : s.decoder? i = some d) :
      Stepped s (.run i command) (s.setDecoder i (d.run command).2)
  | forked {i : Nat} {context : Context} (hc : s.context? i = some context) :
      Stepped s (.fork i) (s.fork context)
  | closed {i : Nat} {shared : Shared} (hev : s.shared.store.Evolves shared.store)
      (hsize : shared.store.cells.size = s.shared.store.cells.size)
      (hstash : ∀ field, shared.scheduler.stash = some field →
        s.shared.scheduler.stash = some field) :
      Stepped s (.close i) { s with shared, contexts := s.contexts.set i none }
  /-- A worker or the client acts, or nothing happens. -/
  | served {e : Event} {store : Store} {queue : Queue} {kept : List (Option Picture)}
      (hm : s.moments e = []) (hev : s.shared.store.Evolves store)
      (hsize : store.cells.size = s.shared.store.cells.size) :
      Stepped s e { s with shared := { s.shared with store, queue }, kept }

theorem stepped (s : Session) (e : Event) : s.Stepped e (s.step e).2 := by
  have absent : ∀ {e : Event}, s.moments e = [] → s.Stepped e s :=
    fun hm => .served hm (.refl _) rfl
  cases e with
  | run i command =>
    dsimp only [step]
    cases hd : s.decoder? i with
    | none =>
      refine absent ?_
      cases command <;> simp [moments, hd]
    | some d => exact .ran hd
  | fork i =>
    dsimp only [step]
    cases hc : s.context? i with
    | none => exact absent rfl
    | some context => exact .forked hc
  | close i =>
    dsimp only [step]
    cases s.context? i with
    | none => exact absent rfl
    | some context =>
      obtain ⟨shared, he, hev, hsize, hstash⟩ := s.close_eq i context
      dsimp only
      rw [he]
      exact .closed hev hsize hstash
  | work i slot work =>
    dsimp only [step]
    cases (s.decoder? i).bind (·.frameAt? slot) with
    | none => exact absent rfl
    | some frame =>
      exact .served rfl (Store.evolves_update (tame_apply work) _ frame) (Store.size_update _ _ _)
  | take i all keep =>
    dsimp only [step]
    cases s.context? i with
    | none => exact absent rfl
    | some context =>
      obtain ⟨queue, hq⟩ := s.dequeue_eq all
      dsimp only
      rw [hq]
      split
      · exact .served rfl (.refl _) rfl
      · exact .served rfl (Store.evolves_releaseAll _ _) (Store.size_releaseAll _ _)
  | letGo i =>
    dsimp only [step]
    cases s.kept[i]?.join with
    | none => exact absent rfl
    | some picture =>
      exact .served rfl (Store.evolves_release _ _) (Store.size_release _ _)

/-- Decoders keep their numbers: the numbers that were given stay given. -/
theorem length_contexts_step (s : Session) (e : Event) :
    s.contexts.length ≤ (s.step e).2.contexts.length := by
  have hstepped := s.stepped e
  generalize (s.step e).2 = s' at hstepped
  cases hstepped with
  | ran => exact Nat.le_of_eq List.length_set.symm
  | forked => simp [fork, modifyStore]
  | closed => exact Nat.le_of_eq List.length_set.symm
  | served => exact Nat.le_refl _

/-- **A decoder after an event** either carried out a command, or has the state that one had before,
apart from what is shared and from owning its picture. -/
theorem decoder?_step {e : Event} (hd : (s.step e).2.decoder? j = some d) :
    ∃ i old, s.decoder? i = some old ∧
      ((∃ command, e = .run i command ∧ d = (old.run command).2) ∨
        ∃ owns, d.toContext = { old.toContext with ownsCurrent := owns }) := by
  have kept : ∀ {i context owns}, s.context? i = some context →
      d.toContext = { context with ownsCurrent := owns } → ∃ i old, s.decoder? i = some old ∧
        ((∃ command, e = .run i command ∧ d = (old.run command).2) ∨
          ∃ owns, d.toContext = { old.toContext with ownsCurrent := owns }) := by
    intro i context owns hc he
    exact ⟨i, { toContext := context, toShared := s.shared }, by rw [decoder?, hc]; rfl,
      Or.inr ⟨owns, he⟩⟩
  obtain ⟨hc, hshared⟩ := decoder?_eq hd
  have hstepped := s.stepped e
  generalize (s.step e).2 = s' at hstepped hc hshared
  cases hstepped with
  | @ran i old command hold =>
    rw [context?_setDecoder hold] at hc
    split at hc
    · have hcontext := Option.some.inj hc
      refine ⟨i, old, hold, Or.inl ⟨command, rfl, ?_⟩⟩
      obtain ⟨context, shared⟩ := d
      dsimp only at hcontext hshared
      rw [← hcontext, hshared]
      rfl
    · exact kept hc rfl
  | forked hcontext =>
    rcases context?_fork hc with hold | hnew
    · exact kept hold rfl
    · exact kept hcontext hnew
  | closed => exact kept (context?_set_none hc) rfl
  | served => exact kept hc rfl

/-- **Whoever holds a frame agrees on which picture it belongs to**, whatever happens. -/
theorem described_step (h : s.Described origin) (e : Event) :
    ∃ origin', Agree s.known origin origin' ∧ (s.step e).2.Described origin' := by
  have same : ∀ {s' : Session}, s'.Described origin →
      ∃ origin', Agree s.known origin origin' ∧ s'.Described origin' :=
    fun hs => ⟨origin, fun _ _ => rfl, hs⟩
  have hstepped := s.stepped e
  generalize (s.step e).2 = s' at hstepped
  cases hstepped with
  | ran hd => exact described_command h hd _
  | @forked i context hc =>
    refine same (described_of_shared h (Store.size_retainAll _ _).symm (fun _ hf => hf) ?_)
    intro k new hnew
    rcases context?_fork hnew with hold | rfl
    · exact ⟨k, new, hold, rfl⟩
    · exact ⟨i, context, hc, rfl⟩
  | closed hev hsize hstash =>
    exact same (described_of_shared h hsize.symm hstash fun k new hnew =>
      ⟨k, new, context?_set_none hnew, rfl⟩)
  | served hm hev hsize =>
    exact same (described_of_shared h hsize.symm (fun _ hf => hf) fun k new hnew =>
      ⟨k, new, hnew, rfl⟩)

/-- Whatever happens, frames keep their layout, and no production is opened again. -/
theorem evolves_step (s : Session) (e : Event) :
    s.shared.store.Evolves (s.step e).2.shared.store := by
  have hstepped := s.stepped e
  generalize (s.step e).2 = s' at hstepped
  cases hstepped with
  | @ran i d command hd =>
    have hg := (d.grows_run command).evolves
    rw [(decoder?_eq hd).2] at hg
    exact hg
  | forked => exact Store.evolves_retainAll _ _
  | closed hev => exact hev
  | served hm hev => exact hev

/-! ## Runs -/

/-- **A run** of a session from its start, with its log. -/
inductive Run (config : Config) (provider : Provider) : List Moment → Session → Prop
  | start : Run config provider [] (start config provider)
  | step {log : List Moment} {s : Session} (run : Run config provider log s) (e : Event) :
      Run config provider (log ++ s.moments e) (s.step e).2

variable {config : Config} {provider : Provider} {log : List Moment}

/-- **In every state of every run, whoever holds a frame agrees on which picture it belongs to.** -/
theorem described_run (run : Run config provider log s) : ∃ origin, s.Described origin := by
  induction run with
  | start => exact ⟨fun _ => ⟨0, 0, .frame⟩, described_start config provider _⟩
  | step run e ih =>
    obtain ⟨origin, h⟩ := ih
    obtain ⟨origin', -, h'⟩ := described_step h e
    exact ⟨origin', h'⟩

/-- The decoder whose pass an event carries out. Before a flush it gives up its picture. -/
theorem moments_begin {e : Event} {m : Moment} (hm : m ∈ s.moments e) :
    ∃ i d d' pass, s.decoder? i = some d ∧ (d' = d ∨ d' = d.dropCurrent) ∧
      s.moments e = d'.moments pass := by
  unfold moments at hm ⊢
  split at hm
  · rename_i i pass
    cases hd : s.decoder? i with
    | none => rw [hd] at hm; cases hm
    | some d => exact ⟨i, d, d, pass, hd, Or.inl rfl, rfl⟩
  · rename_i i
    cases hd : s.decoder? i with
    | none => rw [hd] at hm; cases hm
    | some d => exact ⟨i, d, d.dropCurrent, d.flushPass, hd, Or.inr rfl, rfl⟩
  · cases hm

/-- The decoder whose pass an event carries out, as it is when the pass begins. -/
theorem moments_cases {e : Event} {m : Moment} (hm : m ∈ s.moments e) :
    ∃ i d d' pass, s.decoder? i = some d ∧ d.Quiet d' ∧ s.moments e = d'.moments pass := by
  obtain ⟨i, d, d', pass, hd, rfl | rfl, he⟩ := moments_begin hm
  · exact ⟨i, d', d', pass, hd, .refl d', he⟩
  · exact ⟨i, d, d.dropCurrent, pass, hd, d.quiet_dropCurrent, he⟩

/-- The holders agree before every step of an output pass, too. -/
theorem described_moment (h : s.Described origin) {e : Event} {m : Moment}
    (hm : m ∈ s.moments e) : ∃ origin', m.decoder.Described origin' := by
  obtain ⟨i, d, d', pass, hd, hq, he⟩ := moments_cases hm
  rw [he] at hm
  have hg := hq.toGrows.trans ((d'.grows_output pass).2 m hm)
  obtain ⟨origin', -, h'⟩ := hg.described origin (h i d hd)
  exact ⟨origin', h'⟩

end Session

end PictureBuffer
