import PictureBuffer.Proofs.ReferenceLists

/-!
# The current picture in its own lists

A picture that may be a reference for itself comes last in the cycle of each of its lists. A list
that ends before the whole cycle was gone through once would be without it, so the current picture
takes the last place of such a list: it should be **kept** (`KeepsSelf`), and the list otherwise be
the cycle repeated (`RefList.cyclic`).

The list is compared with its template to tell whether it was cut short. The template is made of
whole rounds of the cycle, so it is longer than the list also where a later round was cut, and it is
never longer than a list that asks for as many entries as one can hold.

* `selfReference_spec`: what a list is, and when it keeps the current picture.
* `not_always_kept`: a list of three entries with a cycle of two, the current picture among them,
  has the current picture in its last place, and not the first one of the cycle again.
-/

namespace PictureBuffer

namespace RefList

variable {cycle candidates : List RefEntry} {own : RefEntry} {count n : Nat}

/-- The rounds are as many entries as were asked for if and only if these are whole rounds. -/
theorem length_rounds (ne : cycle ≠ []) :
    count < cycle.length * rounds cycle.length count ↔ ¬cycle.length ∣ count := by
  have hpos := List.length_pos_iff.mpr ne
  constructor
  · rintro hlt ⟨k, rfl⟩
    have hle : rounds cycle.length (cycle.length * k) ≤ k :=
      rounds_le hpos (Nat.le_of_eq (Nat.mul_comm _ _))
    exact Nat.not_lt.mpr (Nat.mul_le_mul_left cycle.length hle) hlt
  · intro hdvd
    rcases Nat.lt_trichotomy count (cycle.length * rounds cycle.length count) with hlt | he | hgt
    · exact hlt
    · exact absurd ⟨_, he⟩ hdvd
    · rw [Nat.mul_comm] at hgt
      exact absurd (le_rounds hpos hgt) (Nat.lt_irrefl _)

/-- What is in a repeated cycle, if it is not among the entries before the last one. -/
theorem mem_cyclic_iff (h : own ∉ candidates) :
    own ∈ cyclic (candidates ++ [own]) n ↔ candidates.length < n := by
  have ne : candidates ++ [own] ≠ [] := by simp
  have hlen : (candidates ++ [own]).length = candidates.length + 1 := by simp
  constructor
  · intro hm
    obtain ⟨i, hi⟩ := List.getElem?_of_mem hm
    have hin : i < n := by
      rw [← length_cyclic ne n]
      exact (List.getElem?_eq_some_iff.mp hi).1
    rw [getElem?_cyclic hin, List.getElem?_append] at hi
    split at hi
    · exact absurd (List.mem_of_getElem? hi) h
    · have hle := Nat.mod_le i (candidates ++ [own]).length
      omega
  · intro hlt
    have hlast : (cyclic (candidates ++ [own]) n)[candidates.length]? = some own := by
      rw [getElem?_cyclic hlt, hlen, Nat.mod_eq_of_lt (Nat.lt_succ_self _)]
      simp
    exact List.mem_of_getElem? hlast

/-- The last entry of a cycle comes at the end of each round. -/
theorem getElem?_cyclic_last (h : own ∉ candidates) (hn : 0 < n) :
    (cyclic (candidates ++ [own]) n)[n - 1]? = some own ↔ (candidates ++ [own]).length ∣ n := by
  have hlen : (candidates ++ [own]).length = candidates.length + 1 := by simp
  have hmod : (n - 1) % (candidates.length + 1) < candidates.length + 1 :=
    Nat.mod_lt _ (Nat.succ_pos _)
  have hdiv := Nat.div_add_mod (n - 1) (candidates.length + 1)
  rw [getElem?_cyclic (by omega), hlen, List.getElem?_append]
  constructor
  · intro hi
    split at hi
    · exact absurd (List.mem_of_getElem? hi) h
    · refine ⟨(n - 1) / (candidates.length + 1) + 1, ?_⟩
      rw [Nat.mul_succ]
      omega
  · rintro ⟨k, rfl⟩
    obtain ⟨k, rfl⟩ : ∃ j, k = j + 1 := Nat.exists_eq_succ_of_ne_zero (by rintro rfl; simp at hn)
    have he : ((candidates.length + 1) * (k + 1) - 1) % (candidates.length + 1) =
        candidates.length := by
      rw [Nat.mul_succ, Nat.add_sub_assoc (Nat.succ_pos _), Nat.mul_add_mod]
      exact Nat.mod_eq_of_lt (Nat.lt_succ_self _)
    rw [he]
    simp

/-- **A list keeps the current picture**: it has the entries of the cycle, unless the current
picture is not among them and takes the last place. -/
structure KeepsSelf (own : RefEntry) (entries : List RefEntry) (list : RefList) : Prop where
  listed : own ∈ list.entries
  same : own ∈ entries → list.entries = entries
  replaced : own ∉ entries → list.entries = entries.set (entries.length - 1) own

theorem keepsSelf_iff {entries : List RefEntry} {list : RefList} {p : Prop} [Decidable p]
    (hpos : 0 < entries.length)
    (h : list.entries = if p then entries.set (entries.length - 1) own else entries) :
    list.KeepsSelf own entries ↔
      if p then own ∉ entries ∨ entries[entries.length - 1]? = some own else own ∈ entries := by
  have hlast : entries.length - 1 < entries.length := by omega
  have hget : (entries.set (entries.length - 1) own)[entries.length - 1]? = some own :=
    List.getElem?_set_self hlast
  by_cases hp : p
  · rw [if_pos hp] at h ⊢
    constructor
    · intro hk
      by_cases hm : own ∈ entries
      · have hsame := h.symm.trans (hk.same hm)
        rw [hsame] at hget
        exact Or.inr hget
      · exact Or.inl hm
    · intro hs
      refine ⟨?_, fun hm => ?_, fun _ => h⟩
      · rw [h]
        exact List.mem_of_getElem? hget
      · have hself := hs.resolve_left (not_not_intro hm)
        obtain ⟨_, he⟩ := List.getElem?_eq_some_iff.mp hself
        rw [h, ← he]
        exact List.set_getElem_self hlast
  · rw [if_neg hp] at h ⊢
    constructor
    · intro hk
      have hlisted := hk.listed
      rwa [h] at hlisted
    · intro hm
      exact ⟨h ▸ hm, fun _ => h, fun hn => absurd hm hn⟩

end RefList

namespace SliceLists

variable {params : ListParams} {cycle : List RefEntry} {own : RefEntry}

/-- Whole rounds of the cycle are more entries than the list has. -/
def Cut (cycle : List RefEntry) (count : Nat) : Prop := count < maxRefs ∧ ¬cycle.length ∣ count

instance (cycle : List RefEntry) (count : Nat) : Decidable (Cut cycle count) :=
  inferInstanceAs (Decidable (_ ∧ _))

theorem lt_length_template (ne : cycle ≠ []) (count : Nat) :
    count < (RefList.template cycle count).length ↔ Cut cycle count := by
  rw [RefList.length_template ne, Nat.lt_min, RefList.length_rounds ne]
  rfl

/-- A list that is not given entry by entry, and may have the current picture in it. -/
theorem entries_leading (ne : cycle ≠ []) (hpos : 0 < params.numRefs)
    (hle : params.numRefs ≤ maxRefs) :
    (leading params ⟨RefList.template cycle params.numRefs⟩ (some own)).entries =
      if Cut cycle params.numRefs then
        (RefList.cyclic cycle params.numRefs).set (params.numRefs - 1) own
      else RefList.cyclic cycle params.numRefs := by
  have htake : (RefList.template cycle params.numRefs).take params.numRefs =
      RefList.cyclic cycle params.numRefs := by
    have hlen := RefList.le_length_template ne hle
    rw [RefList.length_template ne] at hlen
    exact RefList.take_cyclic ne hlen
  have hcut := lt_length_template ne params.numRefs
  unfold leading
  dsimp only
  rw [← htake]
  split
  · rename_i h
    rw [if_pos (hcut.mp h.2)]
    rfl
  · rename_i h
    rw [if_neg fun hc => h ⟨hpos, hcut.mpr hc⟩]
    rfl

/-- Where the current picture is not a candidate, too, the last round must not be cut short unless
it is the first one. -/
theorem keepsSelf_iff_of_not_mem {candidates : List RefEntry} {count : Nat}
    (h : own ∉ candidates) (hpos : 0 < count) :
    (if Cut (candidates ++ [own]) count then
        own ∉ RefList.cyclic (candidates ++ [own]) count ∨
          (RefList.cyclic (candidates ++ [own]) count)[count - 1]? = some own
      else own ∈ RefList.cyclic (candidates ++ [own]) count) ↔
    if count < maxRefs then count ≤ candidates.length ∨ candidates.length + 1 ∣ count
      else candidates.length < count := by
  have hlen : (candidates ++ [own]).length = candidates.length + 1 := by simp
  have hcut : Cut (candidates ++ [own]) count ↔
      count < maxRefs ∧ ¬candidates.length + 1 ∣ count := by
    rw [← hlen]
    rfl
  rw [RefList.mem_cyclic_iff h, RefList.getElem?_cyclic_last h hpos, hlen, Nat.not_lt]
  by_cases hlt : count < maxRefs
  · by_cases hdvd : candidates.length + 1 ∣ count
    · have hle := Nat.le_of_dvd hpos hdvd
      have hmem : candidates.length < count := by omega
      simp [hcut, hdvd, hlt, hmem]
    · simp [hcut, hdvd, hlt]
  · simp [hcut, hlt]

end SliceLists

namespace Decoder

variable {d d' : Decoder} {hdr : SliceHeader} {ref : SlotRef} {second : Bool} {slice : Nat}
  {lists : SliceLists} {own : RefEntry}

/-- The list that a slice was answered was built for it. -/
theorem builtList_of_buildLists (hcur : d.current = some ref) (hu : hdr.Uses second)
    (hok : (d.buildLists hdr slice).1 = .ok lists) :
    d.cycle ref second ≠ [] ∧ d.builtList hdr ref second = .ok (lists.list second) := by
  have htype : hdr.type ≠ .i := by
    intro ht
    rw [SliceHeader.Uses, ht] at hu
    cases hu
  obtain ⟨ne, hused⟩ := buildUsed_of_buildLists hcur htype hok second
  exact ⟨ne, ((buildUsed_ok_iff htype).mp hused).1 second hu⟩

/-- **The current picture in a list that is not given entry by entry.** It takes the last place when
the list ends within a round of the cycle, unless the list is as long as one can be. The list keeps
the current picture, and is otherwise the cycle repeated, exactly if this replaces nothing else that
belongs there. A picture that is not among the candidates is kept in a list of whole rounds and in
one that ends within the first round, if the list has room for one more entry; and in a list as long
as one can be if that is at least one round. -/
theorem selfReference_spec (hcur : d.current = some ref) (hown : d.selfEntry ref = some own)
    (hu : hdr.Uses second) (hm : (hdr.list second).modified = false)
    (hpos : 0 < (hdr.list second).numRefs) (hok : (d.buildLists hdr slice).1 = .ok lists) :
    let count := (hdr.list second).numRefs
    let cycle := d.cycle ref second
    let entries := RefList.cyclic cycle count
    (lists.list second).entries =
      (if count < maxRefs ∧ ¬cycle.length ∣ count then entries.set (count - 1) own
        else entries) ∧
    ((lists.list second).KeepsSelf own entries ↔
      if count < maxRefs ∧ ¬cycle.length ∣ count then
        own ∉ entries ∨ entries[count - 1]? = some own
      else own ∈ entries) ∧
    (own ∉ d.sets.inOrder second → ((lists.list second).KeepsSelf own entries ↔
      if count < maxRefs then count < cycle.length ∨ cycle.length ∣ count
      else cycle.length ≤ count)) := by
  intro count cycle entries
  obtain ⟨ne, hbuilt⟩ := builtList_of_buildLists hcur hu hok
  have hfew : count ≤ maxRefs := ((builtList_iff ne).mp ⟨_, hbuilt⟩).few
  have hcycle : cycle = d.sets.inOrder second ++ [own] := by
    change d.sets.inOrder second ++ (d.selfEntry ref).toList = _
    rw [hown]
    rfl
  have hentries : (lists.list second).entries =
      if SliceLists.Cut cycle count then entries.set (count - 1) own else entries := by
    have hlist := (SliceLists.build_eq ne hfew).symm.trans hbuilt
    dsimp only at hlist
    rw [if_neg (by rw [hm]; decide)] at hlist
    rw [← Except.ok.inj hlist, hown]
    have hnil : d.sets.inOrder second ++ (some own).toList ≠ [] := by simp
    have hentries := @SliceLists.entries_leading _ _ own hnil hpos hfew
    have hsame : cycle = d.sets.inOrder second ++ (some own).toList := hcycle
    rw [← hsame] at hentries ⊢
    exact hentries
  have hlen : entries.length = count := RefList.length_cyclic ne count
  have hkeeps : (lists.list second).KeepsSelf own entries ↔
      if SliceLists.Cut cycle count then own ∉ entries ∨ entries[count - 1]? = some own
      else own ∈ entries := by
    rw [← hlen]
    exact RefList.keepsSelf_iff (by omega) (hlen.symm ▸ hentries)
  refine ⟨hentries, hkeeps, fun hnot => hkeeps.trans ?_⟩
  have hsimple := SliceLists.keepsSelf_iff_of_not_mem hnot hpos
  have hlength : cycle.length = (d.sets.inOrder second).length + 1 := by simp [hcycle]
  rw [← hcycle] at hsimple
  rw [hlength, Nat.lt_succ_iff, Nat.succ_le_iff]
  exact hsimple

end Decoder

namespace Session

/-- A slice whose one list has `count` entries. -/
def listOf (count : Nat) : SliceHeader where
  list0 := { numRefs := count }

/-- The first list of a slice, given by the order counts in it. -/
theorem exists_lists {d : Decoder} {hdr : SliceHeader} {pocs : List Int}
    (h : (d.buildLists hdr 0).1.toOption.map (·.list0.pocs) = some pocs) :
    ∃ lists, (d.buildLists hdr 0).1 = .ok lists ∧ lists.list0.pocs = pocs := by
  cases he : (d.buildLists hdr 0).1 with
  | error fault =>
    rw [he] at h
    cases h
  | ok lists =>
    rw [he] at h
    exact ⟨lists, rfl, Option.some.inj h⟩

/-- A list of one entry is the current picture, which replaces the only candidate. -/
theorem oneEntry_kept : ∃ d own lists,
    ((start {} {}).afterAll selfReferring).decoder? 0 = some d ∧ d.current = some ⟨0, 1⟩ ∧
    d.selfEntry ⟨0, 1⟩ = some own ∧ (d.buildLists (listOf 1) 0).1 = .ok lists ∧
    lists.list0.pocs = [10] ∧
    lists.list0.KeepsSelf own (RefList.cyclic (d.cycle ⟨0, 1⟩ false) 1) := by
  obtain ⟨d, hd⟩ : ∃ d, ((start {} {}).afterAll selfReferring).decoder? 0 = some d := ⟨_, rfl⟩
  obtain ⟨hcur, own, hown, hnot⟩ : d.current = some ⟨0, 1⟩ ∧
      ∃ own, d.selfEntry ⟨0, 1⟩ = some own ∧ own ∉ d.sets.inOrder false := by
    cases hd
    exact ⟨rfl, ⟨10, ⟨0, 1⟩, true⟩, rfl, by decide +kernel⟩
  obtain ⟨lists, hlists, hpocs⟩ := @exists_lists d (listOf 1) [10] (by cases hd; decide +kernel)
  have hlen : (d.cycle ⟨0, 1⟩ false).length = 2 := by
    cases hd
    decide +kernel
  have hu : (listOf 1).Uses false := by decide
  obtain ⟨-, -, hkeeps⟩ := Decoder.selfReference_spec hcur hown hu rfl (by decide) hlists
  exact ⟨d, own, lists, hd, hcur, hown, hlists, hpocs,
    (hkeeps hnot).mpr (Or.inl (by rw [hlen]; decide))⟩

/-- **The current picture takes the last place of a list that has it already**, so it is not true of
every run that a list with the current picture in it is the cycle repeated. -/
theorem not_always_kept : ¬ ∀ (config : Config) (provider : Provider) (log : List Moment)
    (s : Session) (i : Nat) (d : Decoder) (ref : SlotRef) (own : RefEntry) (hdr : SliceHeader)
    (second : Bool) (slice : Nat) (lists : SliceLists), Run config provider log s →
    s.decoder? i = some d → d.current = some ref → d.selfEntry ref = some own →
    hdr.Uses second → (hdr.list second).modified = false → 0 < (hdr.list second).numRefs →
    (hdr.list second).numRefs ≤ maxRefs → (d.buildLists hdr slice).1 = .ok lists →
    (lists.list second).KeepsSelf own
      (RefList.cyclic (d.cycle ref second) (hdr.list second).numRefs) := by
  intro h
  have run := run_all selfReferring (@Run.start {} {})
  obtain ⟨d, hd⟩ : ∃ d, ((start {} {}).afterAll selfReferring).decoder? 0 = some d := ⟨_, rfl⟩
  obtain ⟨hcur, own, hown⟩ : d.current = some ⟨0, 1⟩ ∧
      ∃ own, d.selfEntry ⟨0, 1⟩ = some own := by
    cases hd
    exact ⟨rfl, _, rfl⟩
  obtain ⟨lists, hlists, hpocs⟩ :=
    @exists_lists d (listOf 3) [8, 10, 10] (by cases hd; decide +kernel)
  have hkeeps := h {} {} _ _ 0 d ⟨0, 1⟩ own (listOf 3) false 0 lists run hd hcur hown (by decide)
    rfl (by decide) (by decide) hlists
  have hcycle : own ∈ RefList.cyclic (d.cycle ⟨0, 1⟩ false) 3 ∧
      (RefList.cyclic (d.cycle ⟨0, 1⟩ false) 3).map (·.poc) = [8, 10, 8] := by
    cases hd
    cases hown
    decide +kernel
  have hsame : lists.list0.pocs = [8, 10, 8] := by
    have hentries : lists.list0.entries = _ := hkeeps.same hcycle.1
    rw [RefList.pocs, hentries]
    exact hcycle.2
  rw [hpocs] at hsame
  cases hsame

end Session

end PictureBuffer
