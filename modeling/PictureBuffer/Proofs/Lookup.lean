import Mathlib.Data.Int.ModEq
import Mathlib.Order.Bounds.Basic
import PictureBuffer.Proofs.Buffers
import PictureBuffer.Proofs.Ranges

/-!
# Looking up a picture

A reference names a picture by its whole order count, or by the low bits only. The low bits of an
order count, negative or not, are its residue modulo a power of two (`pocLsb_eq_emod`). Low bits
that are in range therefore name the pictures with a congruent order count, other than the current
one (`Lookup.names_low_iff_modEq`).

The look-up goes through the slots from the lowest one on, and a slot that has given up its picture
does not count, although it remembers the order count (`Dpb.finds`). Of two references of which one
names all that the other one names, it finds no higher slot (`Dpb.Finds.exists_le`). A picture that
is found by its whole order count, and is not the current one, has the low bits of it; so these find
it as well, unless a lower slot holds another one (`Dpb.find?_finds_lowest`).
-/

namespace PictureBuffer

/-! ## Low bits -/

/-- The low bits of an order count are its residue. -/
theorem pocLsb_eq_emod {bits : Nat} (h : bits ≤ 30) (poc : Int) :
    pocLsb bits poc = poc % 2 ^ bits := by
  have hpow : 2 ^ bits ≤ 2 ^ 30 := Nat.pow_le_pow_right (by decide) h
  have hmask : (BitVec.ofNat 32 (shiftedOne 32 bits - 1)).toNat = 2 ^ bits - 1 := by
    rw [BitVec.toNat_ofNat, shiftedOne_of_lt (by omega), Nat.mod_eq_of_lt (by omega)]
  have hnat : (BitVec.ofInt 32 poc &&& BitVec.ofNat 32 (shiftedOne 32 bits - 1)).toNat =
      (poc % 2 ^ 32).toNat % 2 ^ bits := by
    rw [BitVec.toNat_and, hmask, Nat.and_two_pow_sub_one_eq_mod, BitVec.toNat_ofInt]
    rfl
  have hlt : (poc % 2 ^ 32).toNat % 2 ^ bits < 2 ^ bits := Nat.mod_lt _ (Nat.two_pow_pos bits)
  rw [pocLsb, BitVec.toInt_eq_toNat_of_lt (by omega), hnat]
  have hcast : ((poc % 2 ^ 32).toNat : Int) = poc % 2 ^ 32 :=
    Int.toNat_of_nonneg (Int.emod_nonneg poc (by decide))
  have hdvd : (2 : Int) ^ bits ∣ 2 ^ 32 := pow_dvd_pow 2 (by omega)
  rw [Int.natCast_emod, hcast, Nat.cast_pow, Nat.cast_ofNat, Int.emod_emod_of_dvd poc hdvd]

/-- Low bits in range are those of the congruent order counts. -/
theorem pocLsb_eq_iff {bits : Nat} {target : Int} (hbits : bits ≤ 30) (hnonneg : 0 ≤ target)
    (hlt : target < 2 ^ bits) (poc : Int) :
    pocLsb bits poc = target ↔ poc ≡ target [ZMOD 2 ^ bits] := by
  rw [pocLsb_eq_emod hbits, Int.ModEq, Int.emod_eq_of_lt hnonneg hlt]

namespace Dpb

/-! ## The pictures that are named -/

namespace Lookup

variable {bits : Nat} {current target poc : Int}

theorem names_full_iff : full.names target poc = true ↔ poc = target := beq_iff_eq

theorem names_low_iff :
    (low bits current).names target poc = true ↔ pocLsb bits poc = target ∧ poc ≠ current := by
  rw [names, Bool.and_eq_true, beq_iff_eq, bne_iff_ne]

theorem names_low_iff_modEq (hbits : bits ≤ 30) (hnonneg : 0 ≤ target) (hlt : target < 2 ^ bits) :
    (low bits current).names target poc = true ↔
      poc ≡ target [ZMOD 2 ^ bits] ∧ poc ≠ current := by
  rw [names_low_iff, pocLsb_eq_iff hbits hnonneg hlt]

end Lookup

/-! ## The slot that is found -/

variable {dpb : Dpb} {P Q : Int → Prop} {found : Option Nat} {index : Nat}

/-- The slots that hold a picture whose order count satisfies `P`. -/
def slotsWith (dpb : Dpb) (P : Int → Prop) : Set Nat :=
  { index | ∃ slot, dpb.slot? index = some slot ∧ slot.isFree = false ∧ P slot.poc }

/-- **The lowest slot is found** that holds a picture whose order count satisfies `P`, and nothing
if there is none. -/
structure Finds (dpb : Dpb) (P : Int → Prop) (found : Option Nat) : Prop where
  some_iff : ∀ index, found = some index ↔ IsLeast (dpb.slotsWith P) index
  none_iff : found = none ↔ ∀ index, index ∉ dpb.slotsWith P

theorem Finds.congr (h : dpb.Finds P found) (hiff : ∀ poc, P poc ↔ Q poc) :
    dpb.Finds Q found := by
  obtain rfl : P = Q := funext fun poc => propext (hiff poc)
  exact h

/-- What names more finds something too, in no higher slot. -/
theorem Finds.exists_le (hP : dpb.Finds P (some index)) (hQ : dpb.Finds Q found)
    (himp : ∀ poc, P poc → Q poc) : ∃ low ≤ index, found = some low := by
  obtain ⟨slot, hslot, hheld, hpoc⟩ := ((hP.some_iff index).mp rfl).1
  have hmem : index ∈ dpb.slotsWith Q := ⟨slot, hslot, hheld, himp _ hpoc⟩
  cases found with
  | none => exact absurd hmem (hQ.none_iff.mp rfl index)
  | some low => exact ⟨low, ((hQ.some_iff low).mp rfl).2 hmem, rfl⟩

theorem isLeast_of_find? {lookup : Lookup} {target : Int}
    (h : dpb.find? lookup target = some index) :
    IsLeast (dpb.slotsWith fun poc => lookup.names target poc = true) index := by
  refine ⟨slot?_of_find? h, ?_⟩
  rintro i ⟨slot, hslot, hheld, hnamed⟩
  obtain ⟨_, _, hbelow⟩ := List.findIdx?_eq_some_iff_getElem.mp h
  obtain ⟨hi, rfl⟩ := List.getElem?_eq_some_iff.mp hslot
  refine Nat.le_of_not_lt fun hlt => hbelow i hlt ?_
  rw [hheld, hnamed]
  rfl

/-- A look-up finds the lowest slot with a picture that is named. -/
theorem finds (dpb : Dpb) (lookup : Lookup) (target : Int) :
    dpb.Finds (fun poc => lookup.names target poc = true) (dpb.find? lookup target) := by
  have hnone : dpb.find? lookup target = none ↔
      ∀ index, index ∉ dpb.slotsWith fun poc => lookup.names target poc = true := by
    rw [find?_eq_none_iff]
    constructor
    · rintro h index ⟨slot, hslot, hheld, hnamed⟩
      rw [h index slot hslot hheld] at hnamed
      cases hnamed
    · intro h index slot hslot hheld
      exact Bool.eq_false_iff.mpr fun hnamed => h index ⟨slot, hslot, hheld, hnamed⟩
  refine ⟨fun index => ⟨isLeast_of_find?, fun hleast => ?_⟩, hnone⟩
  cases hfound : dpb.find? lookup target with
  | none => exact absurd hleast.1 (hnone.mp hfound index)
  | some lowest => rw [(isLeast_of_find? hfound).unique hleast]

/-- **What a look-up finds**, in any buffer. Low bits that are in range find the lowest slot with a
picture whose order count is congruent to them and is not the current one; a whole order count
finds the lowest slot with a picture that has it. If the latter finds something else than the
current picture, so do its low bits, in no higher slot. -/
theorem find?_finds_lowest (dpb : Dpb) {bits : Nat} (hbits : bits ≤ 30) (current : Int) :
    (∀ target, 0 ≤ target → target < 2 ^ bits →
      dpb.Finds (fun poc => poc ≡ target [ZMOD 2 ^ bits] ∧ poc ≠ current)
        (dpb.find? (.low bits current) target)) ∧
    (∀ target, dpb.Finds (fun poc => poc = target) (dpb.find? .full target)) ∧
    ∀ target index, dpb.find? .full target = some index → target ≠ current →
      ∃ lower ≤ index, dpb.find? (.low bits current) (target % 2 ^ bits) = some lower := by
  have hlow : ∀ target, 0 ≤ target → target < 2 ^ bits →
      dpb.Finds (fun poc => poc ≡ target [ZMOD 2 ^ bits] ∧ poc ≠ current)
        (dpb.find? (.low bits current) target) := fun target hnonneg hlt =>
    (dpb.finds _ target).congr fun _ => Lookup.names_low_iff_modEq hbits hnonneg hlt
  have hfull : ∀ target, dpb.Finds (fun poc => poc = target) (dpb.find? .full target) :=
    fun target => (dpb.finds _ target).congr fun _ => Lookup.names_full_iff
  refine ⟨hlow, hfull, fun target index hfound hne => ?_⟩
  have hpos : (0 : Int) < 2 ^ bits := Int.pow_pos (by decide)
  have hfinds := hfull target
  rw [hfound] at hfinds
  refine hfinds.exists_le (hlow _ (Int.emod_nonneg target hpos.ne') (Int.emod_lt_of_pos target hpos))
    ?_
  rintro poc rfl
  exact ⟨(Int.mod_modEq poc _).symm, hne⟩

/-- A slot that has given up its picture, and three pictures. All order counts but the last one have
the same four low bits. -/
def alikeInLowBits : Dpb where
  layer := 0
  slots := [{ poc := 2 }, { poc := -14, flags := { shortTerm := true }, frame := some 0 },
    { poc := 18, flags := { shortTerm := true }, frame := some 1 },
    { poc := 5, flags := { shortTerm := true }, frame := some 2 }]

/-- The low bits of 18 find the picture below it, whose order count is negative; those of the
current picture find nothing. -/
theorem alikeInLowBits_found :
    4 ≤ 30 ∧ (0 : Int) ≤ 2 ∧ (2 : Int) < 2 ^ 4 ∧
      alikeInLowBits.find? .full 18 = some 2 ∧ (18 : Int) ≠ 5 ∧
      IsLeast (alikeInLowBits.slotsWith fun poc => poc ≡ 2 [ZMOD 2 ^ 4] ∧ poc ≠ 5) 1 ∧
      (∀ index, index ∉ alikeInLowBits.slotsWith fun poc => poc ≡ 5 [ZMOD 2 ^ 4] ∧ poc ≠ 5) ∧
      IsLeast (alikeInLowBits.slotsWith fun poc => poc = 18) 2 ∧
      ∃ lower ≤ 2, alikeInLowBits.find? (.low 4 5) (18 % 2 ^ 4) = some lower := by
  have hbits : 4 ≤ 30 := by decide
  obtain ⟨hlow, hfull, hboth⟩ := alikeInLowBits.find?_finds_lowest hbits 5
  have hfound : alikeInLowBits.find? .full 18 = some 2 := by decide
  refine ⟨hbits, by decide, by decide, hfound, by decide, ?_, ?_, ?_,
    hboth 18 2 hfound (by decide)⟩
  · exact ((hlow 2 (by decide) (by decide)).some_iff 1).mp (by decide)
  · exact (hlow 5 (by decide) (by decide)).none_iff.mp (by decide)
  · exact ((hfull 18).some_iff 2).mp hfound

end Dpb

end PictureBuffer
