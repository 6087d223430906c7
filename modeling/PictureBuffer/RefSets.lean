import PictureBuffer.RefList
import PictureBuffer.SliceHeader

/-!
# Reference picture sets

The pictures that the current picture or its successors may refer to, divided into subsets
(8.3.2). The subsets with `curr` in their name and the inter-layer ones are usable by the current
picture itself; the others are only kept.

A slice picks its lists from a **cycle**, the usable subsets one after the other in an order that
depends on the list (`Subset.listOrder`). A cycle shorter than the number of entries asked for is
repeated as a whole, up to the capacity of a list (`RefList.fill`).

Model of `RpsType` (`Subset`) and `RefPicSets` (`RefSets`), and of `build_temp_list`:
`RefSets.candidates` is one round through the subsets, and `RefList.fill` repeats it.
-/

namespace PictureBuffer

/-- The subsets of the reference picture set. -/
inductive Subset
  | stCurrBefore
  | stCurrAfter
  | stFoll
  | ltCurr
  | ltFoll
  | interLayer0
  | interLayer1
  deriving DecidableEq, Repr, Inhabited

namespace Subset

def all : List Subset :=
  [stCurrBefore, stCurrAfter, stFoll, ltCurr, ltFoll, interLayer0, interLayer1]

/-- The subset's pictures enter reference lists as long-term references. Inter-layer references
are treated as long-term, G.8.1.3. -/
def isLongTerm : Subset → Bool
  | ltCurr | interLayer0 | interLayer1 => true
  | _ => false

/-- The two reference lists differ in the order in which they go through the subsets. -/
def listOrder : (secondList : Bool) → List Subset
  | false => [stCurrBefore, interLayer0, stCurrAfter, ltCurr, interLayer1]
  | true => [stCurrAfter, interLayer1, stCurrBefore, ltCurr, interLayer0]

end Subset

/-- The reference picture set of a picture: a list of pictures per subset. -/
structure RefSets where
  stCurrBefore : RefList := {}
  stCurrAfter : RefList := {}
  stFoll : RefList := {}
  ltCurr : RefList := {}
  ltFoll : RefList := {}
  interLayer0 : RefList := {}
  interLayer1 : RefList := {}
  deriving DecidableEq, Repr, Inhabited

namespace RefSets

def get (sets : RefSets) : Subset → RefList
  | .stCurrBefore => sets.stCurrBefore
  | .stCurrAfter => sets.stCurrAfter
  | .stFoll => sets.stFoll
  | .ltCurr => sets.ltCurr
  | .ltFoll => sets.ltFoll
  | .interLayer0 => sets.interLayer0
  | .interLayer1 => sets.interLayer1

def set (sets : RefSets) (subset : Subset) (list : RefList) : RefSets :=
  match subset with
  | .stCurrBefore => { sets with stCurrBefore := list }
  | .stCurrAfter => { sets with stCurrAfter := list }
  | .stFoll => { sets with stFoll := list }
  | .ltCurr => { sets with ltCurr := list }
  | .ltFoll => { sets with ltFoll := list }
  | .interLayer0 => { sets with interLayer0 := list }
  | .interLayer1 => { sets with interLayer1 := list }

/-- Adds `entry` to a subset, unless it is full. -/
def push (sets : RefSets) (subset : Subset) (entry : RefEntry) : RefSets :=
  sets.set subset ((sets.get subset).push entry)

theorem get_set (sets : RefSets) (a b : Subset) (list : RefList) :
    (sets.set a list).get b = if a = b then list else sets.get b := by
  cases a <;> cases b <;> rfl

/-- The candidates of a reference list, in list order. -/
def candidates (sets : RefSets) (secondList : Bool) : List RefEntry :=
  (Subset.listOrder secondList).flatMap fun subset =>
    (sets.get subset).entries.map fun entry => { entry with longTerm := subset.isLongTerm }

/-- Pictures in the subsets usable by the current picture. -/
def numUsable (sets : RefSets) : Nat :=
  sets.stCurrBefore.length + sets.stCurrAfter.length + sets.ltCurr.length
    + sets.interLayer0.length + sets.interLayer1.length

end RefSets

/-! ## Filling a list from a cycle -/

namespace RefList

theorem length_le_pushAll (cycle : List RefEntry) :
    ∀ list : RefList, list.length ≤ (list.pushAll cycle).length := by
  induction cycle with
  | nil => exact fun _ => Nat.le_refl _
  | cons entry cycle ih =>
    refine fun list => Nat.le_trans ?_ (ih (list.push entry))
    unfold push
    split
    · exact Nat.le_refl _
    · simp [length]

theorem length_lt_pushAll {cycle : List RefEntry} {list : RefList} (room : list.length < maxRefs)
    (ne : cycle ≠ []) : list.length < (list.pushAll cycle).length := by
  cases cycle with
  | nil => exact absurd rfl ne
  | cons entry cycle =>
    refine Nat.lt_of_lt_of_le ?_ (length_le_pushAll cycle (list.push entry))
    rw [push, if_neg (by simpa [isFull] using room)]
    simp [length]

/-- Adds `cycle` until the list has `count` entries or is full. The last round is not cut short,
so the list may end up longer than asked for. -/
def fill (cycle : List RefEntry) (count : Nat) (list : RefList) : RefList :=
  if list.length < count ∧ list.length < maxRefs ∧ cycle ≠ [] then
    fill cycle count (list.pushAll cycle)
  else list
termination_by maxRefs - list.length
decreasing_by
  rename_i h
  have := length_lt_pushAll h.2.1 h.2.2
  omega

end RefList

end PictureBuffer
