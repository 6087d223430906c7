import PictureBuffer.Proofs.Commands
import PictureBuffer.Proofs.Partners

/-!
# Reference lists against their definition

What `Decoder.buildLists` answers is described without the steps that build it. A list is taken from
its **cycle** (`Decoder.cycle`), the subsets that the current picture may use in the order of the
list, and then the picture itself if it may be a reference for itself. The cycle is repeated as a
whole until there are enough entries, up to the capacity of a list: that is its **template**
(`Decoder.template`).

* `fill_eq`: filling an empty list makes the template. `filled_fill` says the same of the loop
  without the guard against an empty cycle, which ends for every other one (`Filled`); for the empty
  one it does not end (`not_filled_nil`).
* `admits_of_build`, `describes_build`: one list is built exactly if its template has the entries
  that the header asks for, and then has those.
* `lists_against_template`: so it is with the lists of a slice, in every state of every run.

The only place at which a list may differ from its template is the last one, where the current
picture may be a reference.
-/

namespace PictureBuffer

/-! ## Repeating a cycle -/

namespace RefList

variable {cycle : List RefEntry} {count i k m n : Nat} {list result : RefList}

/-- The first `n` entries of `cycle`, which is repeated as a whole as often as it takes. -/
def cyclic (cycle : List RefEntry) (n : Nat) : List RefEntry :=
  (List.replicate n cycle).flatten.take n

theorem getElem?_flatten_replicate (h : i < k * cycle.length) :
    (List.replicate k cycle).flatten[i]? = cycle[i % cycle.length]? := by
  induction k generalizing i with
  | zero => omega
  | succ k ih =>
    rw [List.replicate_succ, List.flatten_cons, List.getElem?_append]
    split
    · rename_i hi
      rw [Nat.mod_eq_of_lt hi]
    · rename_i hi
      rw [Nat.not_lt] at hi
      rw [Nat.succ_mul] at h
      rw [ih (by omega), Nat.mod_eq_sub_mod hi]

theorem length_cyclic (ne : cycle ≠ []) (n : Nat) : (cyclic cycle n).length = n := by
  have hpos := List.length_pos_iff.mpr ne
  have hle : n ≤ n * cycle.length := Nat.le_mul_of_pos_right n hpos
  simp [cyclic, hle]

/-- Entry `i` of a cycle that is repeated. -/
theorem getElem?_cyclic (h : i < n) : (cyclic cycle n)[i]? = cycle[i % cycle.length]? := by
  by_cases ne : cycle = []
  · simp [cyclic, ne]
  · have hpos := List.length_pos_iff.mpr ne
    have hle : n ≤ n * cycle.length := Nat.le_mul_of_pos_right n hpos
    rw [cyclic, List.getElem?_take_of_lt h, getElem?_flatten_replicate (by omega)]

/-- Some rounds of a cycle, cut off. -/
theorem take_flatten_replicate (ne : cycle ≠ []) (m k : Nat) :
    (List.replicate k cycle).flatten.take m = cyclic cycle (min m (k * cycle.length)) := by
  refine List.ext_getElem? fun i => ?_
  by_cases h : i < min m (k * cycle.length)
  · rw [getElem?_cyclic h, List.getElem?_take_of_lt (by omega),
      getElem?_flatten_replicate (by omega)]
  · rw [List.getElem?_eq_none (by simp; omega),
      List.getElem?_eq_none (by rw [length_cyclic ne]; omega)]

theorem take_cyclic (ne : cycle ≠ []) (h : m ≤ n) : (cyclic cycle n).take m = cyclic cycle m := by
  refine List.ext_getElem? fun i => ?_
  by_cases hi : i < m
  · rw [List.getElem?_take_of_lt hi, getElem?_cyclic hi, getElem?_cyclic (by omega)]
  · rw [List.getElem?_eq_none (by simp [length_cyclic ne]; omega),
      List.getElem?_eq_none (by rw [length_cyclic ne]; omega)]

/-- What is added to a list is cut off at its capacity. -/
theorem entries_pushAll (entries : List RefEntry) : ∀ {list : RefList}, list.length ≤ maxRefs →
    (list.pushAll entries).entries = (list.entries ++ entries).take maxRefs := by
  induction entries with
  | nil =>
    intro list h
    rw [List.append_nil, List.take_of_length_le h]
    rfl
  | cons entry entries ih =>
    intro list h
    have hcons : list.pushAll (entry :: entries) = (list.push entry).pushAll entries := rfl
    rw [hcons, ih (length_push_le h entry)]
    unfold push
    split
    · rename_i hfull
      have hlen : maxRefs ≤ list.entries.length := of_decide_eq_true hfull
      rw [List.take_append_of_le_length hlen, List.take_append_of_le_length hlen]
    · simp

/-! ### The template of a list -/

/-- The rounds of a cycle of `len` entries that it takes to have `count` of them. -/
def rounds (len count : Nat) : Nat := (count + len - 1) / len

/-- **The template of a list** of `count` entries: whole rounds of the cycle, as many as it takes,
up to the capacity of a list. -/
def template (cycle : List RefEntry) (count : Nat) : List RefEntry :=
  cyclic cycle (min maxRefs (cycle.length * rounds cycle.length count))

theorem rounds_le {len : Nat} (hpos : 0 < len) (h : count ≤ k * len) : rounds len count ≤ k := by
  have hlt : (count + len - 1) / len < k + 1 := by
    rw [Nat.div_lt_iff_lt_mul hpos, Nat.succ_mul]
    omega
  exact Nat.lt_succ_iff.mp hlt

theorem le_rounds {len : Nat} (hpos : 0 < len) (h : k * len < count) : k < rounds len count := by
  refine (Nat.le_div_iff_mul_le hpos).mpr ?_
  rw [Nat.succ_mul]
  omega

/-- The length of a list that was filled with `k` rounds. -/
theorem length_of_rounds (ne : cycle ≠ [])
    (h : list.entries = (List.replicate k cycle).flatten.take maxRefs) :
    list.length = min maxRefs (k * cycle.length) := by
  rw [length, h, take_flatten_replicate ne, length_cyclic ne]

/-- Filling goes on with the rounds that are missing. -/
theorem fill_of_rounds (ne : cycle ≠ [])
    (h : list.entries = (List.replicate k cycle).flatten.take maxRefs)
    (hk : k ≤ rounds cycle.length count) :
    (fill cycle count list).entries = template cycle count := by
  have hpos := List.length_pos_iff.mpr ne
  fun_induction fill cycle count list generalizing k with
  | case1 list hloop ih =>
    have hlen := length_of_rounds ne h
    refine ih (k := k + 1) ?_ (le_rounds hpos (by omega))
    have hall : (List.replicate k cycle).flatten.take maxRefs = (List.replicate k cycle).flatten :=
      List.take_of_length_le (by simp; omega)
    rw [entries_pushAll cycle (by omega), h, hall, List.replicate_succ', List.flatten_append,
      List.flatten_singleton]
  | case2 list hloop =>
    have hlen := length_of_rounds ne h
    have hle := Nat.mul_le_mul_right cycle.length hk
    rw [h, take_flatten_replicate ne, template, Nat.mul_comm cycle.length]
    by_cases hfull : maxRefs ≤ k * cycle.length
    · rw [Nat.min_eq_left hfull, Nat.min_eq_left (by omega)]
    · have hdone : rounds cycle.length count ≤ k := by
        refine rounds_le hpos ?_
        have hstop : ¬(list.length < count ∧ list.length < maxRefs) :=
          fun hs => hloop ⟨hs.1, hs.2, ne⟩
        omega
      rw [Nat.le_antisymm hk hdone]

/-- **Filling an empty list makes the template.** -/
theorem fill_eq (ne : cycle ≠ []) (count : Nat) : fill cycle count {} = ⟨template cycle count⟩ := by
  have h := @fill_of_rounds cycle count 0 {} ne (by simp) (Nat.zero_le _)
  rw [← h]

/-- **The loop that fills a list**, with no guard against an empty cycle: it runs as long as the
list is short and not full. -/
inductive Filled (cycle : List RefEntry) (count : Nat) : RefList → RefList → Prop
  | done {list : RefList} (h : count ≤ list.length ∨ maxRefs ≤ list.length) :
      Filled cycle count list list
  | round {list result : RefList} (short : list.length < count) (room : list.length < maxRefs)
      (rest : Filled cycle count (list.pushAll cycle) result) : Filled cycle count list result

/-- The loop ends for every cycle that has an entry. -/
theorem filled_fill (ne : cycle ≠ []) (count : Nat) (list : RefList) :
    Filled cycle count list (fill cycle count list) := by
  fun_induction fill cycle count list with
  | case1 list h ih => exact .round h.1 h.2.1 ih
  | case2 list h =>
    have hstop : ¬(list.length < count ∧ list.length < maxRefs) := fun hs => h ⟨hs.1, hs.2, ne⟩
    exact .done (by omega)

/-- It ends for an empty cycle only if it does not run at all. -/
theorem not_filled_nil (h : Filled [] count list result) :
    count ≤ list.length ∨ maxRefs ≤ list.length := by
  induction h with
  | done h => exact h
  | round _ _ _ ih => exact ih

theorem length_template (ne : cycle ≠ []) (count : Nat) : (template cycle count).length =
    min maxRefs (cycle.length * rounds cycle.length count) :=
  length_cyclic ne _

/-- A template has the entries that were asked for, if a list can hold them. -/
theorem le_length_template (ne : cycle ≠ []) (h : count ≤ maxRefs) :
    count ≤ (template cycle count).length := by
  have hpos := List.length_pos_iff.mpr ne
  rw [length_template ne]
  refine Nat.le_min.mpr ⟨h, Nat.not_lt.mp fun hlt => ?_⟩
  rw [Nat.mul_comm] at hlt
  exact Nat.lt_irrefl _ (le_rounds hpos hlt)

end RefList

/-! ## One list -/

/-- The header asks for no more entries than a list can hold, and for none past the end of the
template. -/
structure ListParams.Admits (params : ListParams) (template : List RefEntry) : Prop where
  few : params.numRefs ≤ maxRefs
  named : params.modified = true →
    ∀ i < params.numRefs, params.entries[i]?.getD 0 < template.length

/-- **The entries that the header asks for**: those of the template that it names one by one, or the
first ones. The last of these is not described where the current picture may take its place. -/
structure ListParams.Describes (params : ListParams) (template : List RefEntry) (selfRef : Bool)
    (list : RefList) : Prop where
  length : list.length = params.numRefs
  explicit : params.modified = true →
    ∀ i < params.numRefs, list.get? i = template[params.entries[i]?.getD 0]?
  leading : params.modified = false →
    ∀ i < params.numRefs - selfRef.toNat, list.get? i = template[i]?

namespace SliceLists

variable {params : ListParams} {temp taken list : RefList} {is : List Nat}

/-- The entry that a header names for position `i`. -/
def named? (params : ListParams) (temp : RefList) (i : Nat) : Option RefEntry :=
  temp.get? (params.entries[i]?.getD 0)

/-- A list is given entry by entry. -/
def addNamed (params : ListParams) (temp list : RefList) (i : Nat) : Except Fault RefList :=
  match named? params temp i with
  | some entry => .ok (list.push entry)
  | none => .error (.invalidReferenceIndex (params.entries[i]?.getD 0) temp.length)

theorem explicit_eq (params : ListParams) (temp : RefList) :
    explicit params temp = (List.range params.numRefs).foldlM (addNamed params temp) {} := rfl

theorem foldlM_addNamed {g : Nat → RefEntry} (h : ∀ i ∈ is, named? params temp i = some (g i)) :
    is.foldlM (addNamed params temp) taken = .ok (taken.pushAll (is.map g)) := by
  induction is generalizing taken with
  | nil => rfl
  | cons i is ih =>
    rw [List.foldlM_cons, addNamed, h i List.mem_cons_self]
    exact ih fun j hj => h j (List.mem_cons_of_mem i hj)

theorem named_of_foldlM (h : is.foldlM (addNamed params temp) taken = .ok list) :
    ∀ i ∈ is, ∃ entry, named? params temp i = some entry := by
  induction is generalizing taken with
  | nil => exact fun _ hi => by cases hi
  | cons i is ih =>
    rw [List.foldlM_cons, addNamed] at h
    cases hget : named? params temp i with
    | none =>
      rw [hget] at h
      cases h
    | some entry =>
      rw [hget] at h
      exact List.forall_mem_cons.mpr ⟨⟨entry, hget⟩, ih h⟩

/-- The entries that are named make the list, if each of them is there. -/
theorem explicit_of_named (hn : params.numRefs ≤ maxRefs)
    (h : ∀ i < params.numRefs, ∃ entry, named? params temp i = some entry) :
    ∃ list, explicit params temp = .ok list ∧ list.length = params.numRefs ∧
      ∀ i < params.numRefs, list.get? i = named? params temp i := by
  let g (i : Nat) : RefEntry := (named? params temp i).getD default
  have hg : ∀ i < params.numRefs, named? params temp i = some (g i) := by
    intro i hi
    obtain ⟨entry, he⟩ := h i hi
    rw [he, show g i = entry by simp only [g, he, Option.getD_some]]
  have hall : (({} : RefList).pushAll ((List.range params.numRefs).map g)).entries =
      (List.range params.numRefs).map g := by
    rw [RefList.entries_pushAll _ (Nat.zero_le _)]
    exact List.take_of_length_le (by simpa using hn)
  refine ⟨_, (explicit_eq params temp).trans
    (foldlM_addNamed fun i hi => hg i (List.mem_range.mp hi)), ?_, fun i hi => ?_⟩
  · rw [RefList.length, hall, List.length_map, List.length_range]
  · rw [RefList.get?, hall, List.getElem?_map, List.getElem?_range hi, hg i hi]
    rfl

/-- A list that is given entry by entry has the entries that are named. -/
theorem named_of_explicit (h : explicit params temp = .ok list) :
    ∀ i < params.numRefs, ∃ entry, named? params temp i = some entry :=
  fun i hi => named_of_foldlM ((explicit_eq params temp).symm.trans h) i (List.mem_range.mpr hi)

/-- The first entries of a list that is long enough, but perhaps for the last one. -/
theorem leading_spec (current : Option RefEntry) (hlen : params.numRefs ≤ temp.length) :
    (leading params temp current).length = params.numRefs ∧
      ∀ i < params.numRefs - current.isSome.toNat,
        (leading params temp current).get? i = temp.get? i := by
  have htake : (temp.take params.numRefs).length = params.numRefs := by
    simp only [RefList.take, RefList.length, List.length_take] at hlen ⊢
    omega
  have hget : ∀ i < params.numRefs, (temp.take params.numRefs).get? i = temp.get? i :=
    fun i hi => List.getElem?_take_of_lt hi
  unfold leading
  cases current with
  | none => exact ⟨htake, hget⟩
  | some entry =>
    dsimp only
    split
    · refine ⟨by simpa [RefList.length, RefList.set] using htake, fun i hi => ?_⟩
      have hi : i < params.numRefs - 1 := hi
      rw [← hget i (by omega)]
      exact List.getElem?_set_ne (by omega)
    · exact ⟨htake, fun i hi => hget i (by omega)⟩

variable {candidates : List RefEntry} {current : Option RefEntry}

/-- **What one list is built from.** -/
theorem build_eq (ne : candidates ++ current.toList ≠ []) (hn : params.numRefs ≤ maxRefs) :
    build params candidates current =
      let temp : RefList := ⟨RefList.template (candidates ++ current.toList) params.numRefs⟩
      if params.modified then explicit params temp else .ok (leading params temp current) := by
  rw [build, if_neg (Nat.not_lt.mpr hn), RefList.fill_eq ne]

/-- **A list that the template admits is built, with the entries that the header asks for.** -/
theorem describes_build (ne : candidates ++ current.toList ≠ [])
    (h : params.Admits (RefList.template (candidates ++ current.toList) params.numRefs)) :
    ∃ list, build params candidates current = .ok list ∧ params.Describes
      (RefList.template (candidates ++ current.toList) params.numRefs) current.isSome list := by
  have hle := RefList.le_length_template ne h.few
  rw [build_eq ne h.few]
  dsimp only
  generalize RefList.template (candidates ++ current.toList) params.numRefs = template at h hle
  cases hm : params.modified with
  | true =>
    obtain ⟨list, he, hlen, hget⟩ := @explicit_of_named params ⟨template⟩ h.few
      fun i hi => ⟨_, List.getElem?_eq_getElem (h.named hm i hi)⟩
    exact ⟨list, he, hlen, fun _ => hget, fun hf => by cases hm.symm.trans hf⟩
  | false =>
    obtain ⟨hlen, hget⟩ := @leading_spec params ⟨template⟩ current hle
    exact ⟨_, rfl, hlen, fun ht => (by cases hm.symm.trans ht), fun _ => hget⟩

/-- **No other list is built.** -/
theorem admits_of_build (ne : candidates ++ current.toList ≠ [])
    (h : build params candidates current = .ok list) :
    params.Admits (RefList.template (candidates ++ current.toList) params.numRefs) := by
  by_cases hn : params.numRefs ≤ maxRefs
  · rw [build_eq ne hn] at h
    refine ⟨hn, fun hm i hi => ?_⟩
    dsimp only at h
    rw [if_pos hm] at h
    obtain ⟨entry, he⟩ := named_of_explicit h i hi
    exact (List.getElem?_eq_some_iff.mp he).1
  · rw [build, if_pos (Nat.not_le.mp hn)] at h
    cases h

end SliceLists

/-! ## The cycle of a list -/

/-- The entries of a subset, as they enter a reference list. -/
def RefList.enterAs (list : RefList) (longTerm : Bool) : List RefEntry :=
  list.entries.map fun entry => { entry with longTerm }

/-- **The pictures that the current one may use**, in the order of the first or the second list. -/
def RefSets.inOrder (sets : RefSets) : (second : Bool) → List RefEntry
  | false => sets.stCurrBefore.enterAs false ++ sets.interLayer0.enterAs true ++
      sets.stCurrAfter.enterAs false ++ sets.ltCurr.enterAs true ++ sets.interLayer1.enterAs true
  | true => sets.stCurrAfter.enterAs false ++ sets.interLayer1.enterAs true ++
      sets.stCurrBefore.enterAs false ++ sets.ltCurr.enterAs true ++ sets.interLayer0.enterAs true

theorem RefSets.candidates_eq (sets : RefSets) (second : Bool) :
    sets.candidates second = sets.inOrder second := by
  cases second <;> simp [candidates, Subset.listOrder, inOrder, RefList.enterAs, get,
    Subset.isLongTerm]

/-- Both lists go through the same pictures. -/
theorem RefSets.length_inOrder (sets : RefSets) (second : Bool) :
    (sets.inOrder second).length = sets.numUsable := by
  cases second <;> simp [inOrder, RefList.enterAs, numUsable, RefList.length] <;> omega

/-- What a header says of one of its lists. -/
def SliceHeader.list (hdr : SliceHeader) (second : Bool) : ListParams :=
  if second then hdr.list1 else hdr.list0

/-- The slice uses the list. -/
def SliceHeader.Uses (hdr : SliceHeader) (second : Bool) : Prop := second.toNat < hdr.type.numLists

instance (hdr : SliceHeader) (second : Bool) : Decidable (hdr.Uses second) :=
  inferInstanceAs (Decidable (_ < _))

def SliceLists.list (lists : SliceLists) (second : Bool) : RefList :=
  if second then lists.list1 else lists.list0

namespace Decoder

variable {d d' : Decoder} {hdr : SliceHeader} {ref : SlotRef} {second : Bool} {slice : Nat}
  {slot : Slot}

/-- **The cycle of a list**: the pictures that the current one may use, and last itself. -/
def cycle (d : Decoder) (ref : SlotRef) (second : Bool) : List RefEntry :=
  d.sets.inOrder second ++ (d.selfEntry ref).toList

/-- The template of a list of a slice. -/
def template (d : Decoder) (hdr : SliceHeader) (ref : SlotRef) (second : Bool) : List RefEntry :=
  RefList.template (d.cycle ref second) (hdr.list second).numRefs

theorem cycle_eq_nil_iff : d.cycle ref second = [] ↔
    d.sets.numUsable = 0 ∧ d.selfEntry ref = none := by
  rw [cycle, List.append_eq_nil_iff, ← List.length_eq_zero_iff, RefSets.length_inOrder,
    Option.toList_eq_nil_iff]

/-! ## The lists of a slice -/

/-- A list, from the sets and the current picture alone. -/
def builtList (d : Decoder) (hdr : SliceHeader) (ref : SlotRef) (second : Bool) :
    Except Fault RefList :=
  SliceLists.build (hdr.list second) (d.sets.inOrder second) (d.selfEntry ref)

theorem buildList_eq (d : Decoder) (hdr : SliceHeader) (ref : SlotRef) (second : Bool) :
    ∃ collocated,
      d.buildList hdr ref second = (d.builtList hdr ref second, { d with collocated }) := by
  unfold buildList builtList SliceHeader.list
  dsimp only
  rw [RefSets.candidates_eq]
  cases SliceLists.build (if second then hdr.list1 else hdr.list0) (d.sets.inOrder second)
    (d.selfEntry ref) with
  | error fault => exact ⟨_, rfl⟩
  | ok list =>
    obtain ⟨collocated, he⟩ := d.chooseCollocated_eq hdr second list
    exact ⟨collocated, congrArg (Prod.mk _) he⟩

/-- The lists that a slice uses are built one after the other. -/
theorem buildUsed_fst (d : Decoder) (hdr : SliceHeader) (ref : SlotRef) (both : Bool) :
    (d.buildUsed hdr ref both).1 =
      match d.builtList hdr ref false with
      | .error fault => .error fault
      | .ok list0 =>
        if both then
          match d.builtList hdr ref true with
          | .error fault => .error fault
          | .ok list1 => .ok ⟨list0, list1⟩
        else .ok { list0 } := by
  obtain ⟨collocated, h₀⟩ := d.buildList_eq hdr ref false
  unfold buildUsed
  rw [h₀]
  cases d.builtList hdr ref false with
  | error fault => rfl
  | ok list0 =>
    dsimp only
    split
    · obtain ⟨collocated', h₁⟩ := buildList_eq { d with collocated } hdr ref true
      rw [h₁]
      have hsame : ({ d with collocated } : Decoder).builtList hdr ref true =
        d.builtList hdr ref true := rfl
      rw [hsame]
      cases d.builtList hdr ref true with
      | error fault => rfl
      | ok list1 => rfl
    · rfl

/-- A slice of the current picture begins. -/
theorem startSlice_ok {pps : Pps} (hcur : d.current = some ref) (hpps : d.pps = some pps)
    (hslot : d.slot? ref = some slot) (hslice : slice < slot.table.length) (hdr : SliceHeader) :
    (d.startSlice hdr slice).1 = .ok () := by
  have hp : d.currentPicture = .ok (ref, pps) := by rw [currentPicture, hcur, hpps]
  have hs : slot.selectLists slice (pps.tileScan hdr.address) = .ok _ := if_pos hslice
  rw [startSlice, hp]
  dsimp only
  rw [hslot]
  dsimp only
  rw [hs]

/-- **What a slice that uses lists is answered** once it has begun: it is refused if there is
nothing to refer to, and else its lists are built. -/
theorem buildLists_fst (hcur : d.current = some ref) (htype : hdr.type ≠ .i) (second : Bool) :
    (d.buildLists hdr slice).1 =
      match (d.startSlice hdr slice).1 with
      | .error fault => .error fault
      | .ok () =>
        if d.cycle ref second = [] then .error .zeroReferences
        else (d.buildUsed hdr ref (hdr.type = .b)).1 := by
  obtain ⟨layers, hs⟩ := d.startSlice_eq hdr slice
  rw [buildLists]
  rcases hstart : d.startSlice hdr slice with ⟨_ | _, d'⟩
  · rfl
  · rw [hstart] at hs
    obtain rfl : d' = { d with layers } := hs
    have hused : ∀ both, (({ d with layers } : Decoder).buildUsed hdr ref both).1 =
        (d.buildUsed hdr ref both).1 := by
      intro both
      rw [buildUsed_fst, buildUsed_fst]
      rfl
    have hcur' : ({ d with layers } : Decoder).current = some ref := hcur
    have hnil : d.cycle ref second = [] ↔ ({ d with layers } : Decoder).sets.numUsable = 0 ∧
      ({ d with layers } : Decoder).selfEntry ref = none := cycle_eq_nil_iff
    generalize ({ d with layers } : Decoder) = d' at hused hcur' hnil
    dsimp only
    rw [hcur']
    dsimp only
    rw [if_neg htype, ← hused]
    split
    · rename_i h
      rw [if_pos (hnil.mpr h)]
    · rename_i h
      rw [if_neg fun hn => h (hnil.mp hn)]
      rcases d'.buildUsed hdr ref (hdr.type = .b) with ⟨_ | _, d''⟩
      · rfl
      · rfl

/-- The lists that a slice was answered are the ones that it uses. -/
theorem buildUsed_of_buildLists (hcur : d.current = some ref) (htype : hdr.type ≠ .i)
    {lists : SliceLists} (h : (d.buildLists hdr slice).1 = .ok lists) (second : Bool) :
    d.cycle ref second ≠ [] ∧ (d.buildUsed hdr ref (hdr.type = .b)).1 = .ok lists := by
  rw [buildLists_fst hcur htype second] at h
  cases hs : (d.startSlice hdr slice).1 with
  | error fault =>
    rw [hs] at h
    cases h
  | ok =>
    rw [hs] at h
    dsimp only at h
    split at h
    · cases h
    · rename_i ne
      exact ⟨ne, h⟩

/-- Whether a list is built is for its template to say. -/
theorem builtList_iff (ne : d.cycle ref second ≠ []) :
    (∃ list, d.builtList hdr ref second = .ok list) ↔
      (hdr.list second).Admits (d.template hdr ref second) := by
  constructor
  · rintro ⟨list, h⟩
    exact SliceLists.admits_of_build ne h
  · intro h
    obtain ⟨list, hlist, -⟩ := SliceLists.describes_build ne h
    exact ⟨list, hlist⟩

theorem describes_builtList (ne : d.cycle ref second ≠ []) {list : RefList}
    (h : d.builtList hdr ref second = .ok list) : (hdr.list second).Describes
      (d.template hdr ref second) (d.selfEntry ref).isSome list := by
  obtain ⟨list', hlist, hdescribes⟩ :=
    SliceLists.describes_build ne (SliceLists.admits_of_build ne h)
  obtain rfl : list = list' := Except.ok.inj (h.symm.trans hlist)
  exact hdescribes

/-- A slice gets the lists that it uses, and the others empty. -/
theorem buildUsed_ok_iff (htype : hdr.type ≠ .i) {lists : SliceLists} :
    (d.buildUsed hdr ref (hdr.type = .b)).1 = .ok lists ↔
      (∀ second, hdr.Uses second → d.builtList hdr ref second = .ok (lists.list second)) ∧
      ∀ second, ¬hdr.Uses second → lists.list second = {} := by
  rw [buildUsed_fst]
  unfold SliceHeader.Uses SliceLists.list
  obtain ⟨list0, list1⟩ := lists
  cases ht : hdr.type with
  | i => exact absurd ht htype
  | p =>
    cases he₀ : d.builtList hdr ref false <;> simp [SliceType.numLists, he₀, eq_comm]
  | b =>
    cases he₀ : d.builtList hdr ref false <;> cases he₁ : d.builtList hdr ref true <;>
      simp [SliceType.numLists, he₀, he₁]

/-- The lists are built if each one that the slice uses is. -/
theorem exists_buildUsed (htype : hdr.type ≠ .i)
    (h : ∀ second, hdr.Uses second → ∃ list, d.builtList hdr ref second = .ok list) :
    ∃ lists, (d.buildUsed hdr ref (hdr.type = .b)).1 = .ok lists := by
  unfold SliceHeader.Uses at h
  rw [buildUsed_fst]
  cases ht : hdr.type with
  | i => exact absurd ht htype
  | p =>
    rw [ht] at h
    obtain ⟨list0, h₀⟩ := h false (by decide)
    rw [h₀]
    exact ⟨_, rfl⟩
  | b =>
    rw [ht] at h
    obtain ⟨list0, h₀⟩ := h false (by decide)
    obtain ⟨list1, h₁⟩ := h true (by decide)
    rw [h₀, h₁]
    exact ⟨_, rfl⟩

/-! ## The picture that a decoder has turned to -/

/-- The order count, the type, the parameters and the number of slices of the picture that a
decoder has turned to. -/
def turned (d : Decoder) : Int × NaluType × Option Pps × Nat := (d.poc, d.nalu, d.pps, d.numSlices)

theorem turned_modifyLayer (d : Decoder) (n : Nat) (f : Layer → Layer) :
    (d.modifyLayer n f).turned = d.turned := by
  unfold modifyLayer
  split <;> rfl

theorem turned_onDpb (d : Decoder) (n : Nat) (f : Dpb → Store → Dpb × Store) :
    (d.onDpb n f).turned = d.turned := by
  unfold onDpb
  split <;> rfl

theorem turned_updateFrame (d : Decoder) (ref : SlotRef) (f : Frame → Frame) :
    (d.updateFrame ref f).turned = d.turned := by
  obtain ⟨store, he⟩ := d.updateFrame_eq ref f
  rw [he]
  rfl

theorem turned_abandonPicture (d : Decoder) : d.abandonPicture.turned = d.turned := by
  unfold abandonPicture
  dsimp only
  split
  · exact d.turned_updateFrame _ _
  · rfl

theorem turned_finishPicture (d : Decoder) : d.finishPicture.turned = d.turned := by
  unfold finishPicture
  dsimp only
  split
  · exact d.turned_updateFrame _ _
  · rfl

theorem turned_clear (d : Decoder) : d.clear.turned = d.turned := by
  change ((((d.abandonPicture.onDpb 0 Dpb.clear).onDpb 1 Dpb.clear).modifyLayer 0
    ({ · with current := none })).modifyLayer 1 ({ · with current := none })).turned = d.turned
  rw [turned_modifyLayer, turned_modifyLayer, turned_onDpb, turned_onDpb, turned_abandonPicture]

theorem turned_startSlice (d : Decoder) (hdr : SliceHeader) (slice : Nat) :
    (d.startSlice hdr slice).2.turned = d.turned :=
  startSlice_preserves (P := fun d' => d'.turned = d.turned) rfl
    fun _ => turned_modifyLayer _ _ _

theorem turned_buildLists (d : Decoder) (hdr : SliceHeader) (slice : Nat) :
    (d.buildLists hdr slice).2.turned = d.turned :=
  buildLists_preserves (P := fun d' => d'.turned = d.turned) rfl
    (fun _ => turned_modifyLayer _ _ _) (fun _ h => h)
    fun _ h => (turned_modifyLayer _ _ _).trans h

theorem turned_output (d : Decoder) (pass : OutputPass) :
    (d.output pass).2.turned = d.turned := by
  obtain ⟨layers, shared, he⟩ := (d.output_eq pass).1
  rw [he]
  rfl

theorem turned_dropCurrent (d : Decoder) : d.dropCurrent.turned = d.turned := by
  unfold dropCurrent
  dsimp only
  split
  · exact (turned_abandonPicture _).trans (turned_onDpb _ _ _)
  · exact d.turned_abandonPicture

theorem turned_flush (d : Decoder) : d.flush.2.turned = d.turned := by
  have ho := (d.dropCurrent.turned_output d.flushPass).trans d.turned_dropCurrent
  have hend : ∀ d' : Decoder, d'.turned = d.turned →
      ({ d'.clear with toShared := d'.clear.toShared.dropStash } : Decoder).turned = d.turned :=
    fun d' h => d'.turned_clear.trans h
  unfold flush
  rcases he : d.dropCurrent.output d.flushPass with ⟨fault | _ | _ | frame, d'⟩
  · rw [he] at ho
    exact hend d' ho
  · rw [he] at ho
    exact hend d' ho
  · rw [he] at ho
    exact hend d' ho
  · rw [he] at ho
    exact ho

/-- **Only `startPicture` turns a decoder to another picture.** -/
theorem turned_run (d : Decoder) {command : Command}
    (h : match command with
      | .startPicture .. => False
      | _ => True) : (d.run command).2.turned = d.turned := by
  cases command with
  | startPicture => exact h.elim
  | setSps n sps =>
    dsimp only [run, setSps]
    split
    · rfl
    · exact d.turned_modifyLayer n _
  | unmarkAll n =>
    dsimp only [run, unmarkAll]
    split
    · rfl
    · exact d.turned_onDpb n _
  | deriveSets n hdr =>
    obtain ⟨layers, store, sets, he⟩ := (d.deriving_deriveSets n hdr).eq
    exact (congrArg turned he : _)
  | finishPicture => exact d.turned_finishPicture
  | startSlice hdr slice => exact d.turned_startSlice hdr slice
  | buildLists hdr slice => exact d.turned_buildLists hdr slice
  | output pass => exact d.turned_output pass
  | flush => exact d.turned_flush
  | clear => exact d.turned_clear
  | setVps | setSei | setDts | setDuration | dropStash => rfl

/-- A decoder that has a current picture has turned to one. -/
def Guided (d : Decoder) : Prop := ∀ ref, d.current = some ref → ∃ pps, d.pps = some pps

theorem guided_run (h : d.Guided) (command : Command) : (d.run command).2.Guided := by
  have kept : (d.run command).2.turned = d.turned →
      (∀ ref, (d.run command).2.current = some ref → d.current = some ref) →
      (d.run command).2.Guided := by
    intro hturned hcurrent ref hr
    have hpps : (d.run command).2.pps = d.pps := congrArg (·.2.2.1) hturned
    rw [hpps]
    exact h ref (hcurrent ref hr)
  cases command with
  | startPicture layer info =>
    change (d.startPicture layer info).2.Guided
    obtain ⟨fault, he, -⟩ | ⟨fault, store, he, -⟩ | ⟨_, _, _, _, _, _, -, he, -⟩ :=
      d.startPicture_cases layer info
    · rw [he]
      exact h
    · rw [he]
      exact fun _ _ => ⟨info.pps, rfl⟩
    · rw [he]
      exact fun _ _ => ⟨info.pps, rfl⟩
  | deriveSets layer hdr =>
    refine kept (d.turned_run trivial) fun ref hr => ?_
    exact (d.deriving_deriveSets layer hdr).current_eq.symm.trans hr
  | _ => exact kept (d.turned_run trivial) (d.ages_run trivial).current

end Decoder

namespace Session

variable {config : Config} {provider : Provider} {log : List Moment} {s : Session} {i : Nat}
  {d : Decoder} {ref : SlotRef} {slot : Slot} {hdr : SliceHeader} {slice : Nat}

/-- In every state of every run, a decoder that has a current picture has its parameters. -/
theorem guided_of_run (run : Run config provider log s) :
    ∀ {i : Nat} {d : Decoder}, s.decoder? i = some d → d.Guided := by
  induction run with
  | start =>
    intro i d hd ref hr
    obtain ⟨hc, -⟩ := decoder?_eq hd
    rcases i with _ | i
    · rw [← Option.some.inj hc] at hr
      cases hr
    · cases hc
  | step run e ih =>
    intro j d hd
    obtain ⟨i, old, hold, ⟨command, -, rfl⟩ | ⟨owns, hcontext⟩⟩ := decoder?_step hd
    · exact Decoder.guided_run (ih hold) command
    · intro ref hr
      rw [hcontext] at hr ⊢
      exact ih hold ref hr

/-- **The lists of a slice against their templates**, in every state of every run: they are built
exactly if there is a picture to refer to and each list that the slice uses can be read off its
template, and then have the entries that the header asks for. Filling a list from its cycle ends
with the template; where there is nothing to refer to, the slice is refused without it. -/
theorem lists_against_template (run : Run config provider log s) (hd : s.decoder? i = some d)
    (hcur : d.current = some ref) (hslot : d.slot? ref = some slot)
    (hslice : slice < slot.table.length) (htype : hdr.type ≠ .i) :
    ((∃ lists, (d.buildLists hdr slice).1 = .ok lists) ↔
      (∀ second, d.cycle ref second ≠ []) ∧ ∀ second, hdr.Uses second →
        (hdr.list second).Admits (d.template hdr ref second)) ∧
    (∀ lists, (d.buildLists hdr slice).1 = .ok lists →
      (∀ second, hdr.Uses second → (hdr.list second).Describes (d.template hdr ref second)
        (d.selfEntry ref).isSome (lists.list second)) ∧
      ∀ second, ¬hdr.Uses second → lists.list second = {}) ∧
    ∀ second, if d.cycle ref second = [] then (d.buildLists hdr slice).1 = .error .zeroReferences
      else RefList.Filled (d.cycle ref second) (hdr.list second).numRefs {}
        ⟨d.template hdr ref second⟩ := by
  obtain ⟨pps, hpps⟩ := guided_of_run run hd ref hcur
  have hfst : ∀ second, (d.buildLists hdr slice).1 =
      if d.cycle ref second = [] then .error .zeroReferences
      else (d.buildUsed hdr ref (hdr.type = .b)).1 := by
    intro second
    rw [Decoder.buildLists_fst hcur htype second,
      Decoder.startSlice_ok hcur hpps hslot hslice hdr]
  have hne : ∀ lists, (d.buildLists hdr slice).1 = .ok lists →
      ∀ second, d.cycle ref second ≠ [] :=
    fun lists h second => (Decoder.buildUsed_of_buildLists hcur htype h second).1
  have hok : ∀ lists, (d.buildLists hdr slice).1 = .ok lists →
      (∀ second, hdr.Uses second → d.builtList hdr ref second = .ok (lists.list second)) ∧
      ∀ second, ¬hdr.Uses second → lists.list second = {} :=
    fun lists h => (Decoder.buildUsed_ok_iff htype).mp
      (Decoder.buildUsed_of_buildLists hcur htype h false).2
  refine ⟨⟨?_, ?_⟩, ?_, ?_⟩
  · rintro ⟨lists, h⟩
    refine ⟨hne lists h, fun second hu => ?_⟩
    exact (Decoder.builtList_iff (hne lists h second)).mp ⟨_, (hok lists h).1 second hu⟩
  · rintro ⟨ne, hadmits⟩
    have hbuilt := fun second hu => (Decoder.builtList_iff (ne second)).mpr (hadmits second hu)
    obtain ⟨lists, hlists⟩ := Decoder.exists_buildUsed htype hbuilt
    rw [hfst false, if_neg (ne false)]
    exact ⟨lists, hlists⟩
  · intro lists h
    refine ⟨fun second hu => ?_, (hok lists h).2⟩
    exact Decoder.describes_builtList (hne lists h second) ((hok lists h).1 second hu)
  · intro second
    split
    · rename_i hnil
      rw [hfst second, if_pos hnil]
    · rename_i ne
      have hfill := RefList.filled_fill ne (hdr.list second).numRefs {}
      rw [RefList.fill_eq ne] at hfill
      exact hfill

/-- A picture of order count `8` is decoded. One of `10` has begun, which may refer to itself, and
its sets are derived. -/
def selfReferring : List Event :=
  [.run 0 (.setSps 0 { width := 2, height := 2 }),
    .run 0 (.startPicture 0 { poc := 8, output := true, numSlices := 1, pps := {} }),
    .run 0 .finishPicture,
    .run 0 (.startPicture 0
      { poc := 10, output := true, numSlices := 1, pps := { currentPicRef := true } }),
    .run 0 (.deriveSets 0
      { shortTerm := some { deltas := [-2], used := [true], numNegative := 1 } })]

/-- The first list is cut short, and the second one given entry by entry. -/
def bothLists : SliceHeader where
  type := .b
  list0 := { numRefs := 3 }
  list1 := { numRefs := 4, modified := true, entries := [1, 3, 0] }

/-- The lists of a slice, read off their templates. -/
theorem bothLists_against_template : ∃ log d lists,
    Run {} {} log ((start {} {}).afterAll selfReferring) ∧
    ((start {} {}).afterAll selfReferring).decoder? 0 = some d ∧
    (d.buildLists bothLists 0).1 = .ok lists ∧
    lists.list0.pocs = [8, 10, 10] ∧ lists.list1.pocs = [10, 10, 8, 8] ∧
    ∀ second, bothLists.Uses second → (bothLists.list second).Describes
      (d.template bothLists ⟨0, 1⟩ second) (d.selfEntry ⟨0, 1⟩).isSome (lists.list second) := by
  have run := run_all selfReferring (@Run.start {} {})
  obtain ⟨d, hd⟩ : ∃ d, ((start {} {}).afterAll selfReferring).decoder? 0 = some d := ⟨_, rfl⟩
  obtain ⟨hcur, slot, hslot, hslice⟩ : d.current = some ⟨0, 1⟩ ∧
      ∃ slot, d.slot? ⟨0, 1⟩ = some slot ∧ 0 < slot.table.length := by
    cases hd
    exact ⟨rfl, _, rfl, by decide⟩
  have hpocs : (d.buildLists bothLists 0).1.toOption.map
      (fun lists => (lists.list0.pocs, lists.list1.pocs)) =
        some ([8, 10, 10], [10, 10, 8, 8]) := by
    cases hd
    decide +kernel
  obtain ⟨lists, hlists⟩ : ∃ lists, (d.buildLists bothLists 0).1 = .ok lists := by
    cases he : (d.buildLists bothLists 0).1 with
    | error fault =>
      rw [he] at hpocs
      cases hpocs
    | ok lists => exact ⟨lists, rfl⟩
  rw [hlists] at hpocs
  obtain ⟨h₀, h₁⟩ := Prod.mk.inj (Option.some.inj hpocs)
  have htype : bothLists.type ≠ .i := by decide
  have h := lists_against_template run hd hcur hslot hslice htype
  exact ⟨_, d, lists, run, hd, hlists, h₀, h₁, (h.2.1 lists hlists).1⟩

end Session

end PictureBuffer
