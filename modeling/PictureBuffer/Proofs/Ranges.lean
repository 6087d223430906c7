import Mathlib.Algebra.Ring.Int.Defs
import Mathlib.Algebra.Ring.Nat
import PictureBuffer.Params
import PictureBuffer.Weave

/-!
# Ranges in which words are exact

Words of a fixed width hold a number as it is if it is in their range (`wrap_of_lt`,
`wrapSigned_of_fits`), and shift as far as they have bits (`shiftedOne_of_lt`). So the frame woven
from two fields is twice as tall as they are (`wovenLayout_of_lt`), and a picture has as many blocks
as cover it (`ctbCount_of_lt`).
-/

namespace PictureBuffer

/-! ## Words -/

section

variable {width : Nat}

theorem wrap_le (width n : Nat) : wrap width n ≤ n := Nat.mod_le _ _

theorem wrap_of_lt {n : Nat} (h : n < 2 ^ width) : wrap width n = n := Nat.mod_eq_of_lt h

/-- The value is one of the signed words of `width` bits. -/
def FitsSigned (width : Nat) (value : Int) : Prop :=
  -2 ^ width ≤ 2 * value ∧ 2 * value < 2 ^ width

instance (width : Nat) (value : Int) : Decidable (FitsSigned width value) :=
  inferInstanceAs (Decidable (_ ∧ _))

theorem wrapSigned_of_fits {value : Int} (h : FitsSigned width value) :
    wrapSigned width value = value := by
  obtain ⟨low, high⟩ := h
  have hsize : ((2 ^ width : Nat) : Int) = 2 ^ width := Int.natCast_pow 2 width
  rw [wrapSigned, BitVec.toInt_ofInt]
  exact Int.bmod_eq_of_le_mul_two (by omega) (by omega)

theorem shiftedOne_pos (width amount : Nat) : 0 < shiftedOne width amount := by
  rw [shiftedOne, Nat.one_shiftLeft]
  exact Nat.two_pow_pos _

theorem shiftedOne_of_lt {amount : Nat} (h : amount < width) :
    shiftedOne width amount = 2 ^ amount := by
  rw [shiftedOne, Nat.one_shiftLeft, Nat.mod_eq_of_lt h]

end

/-! ## Sizes -/

/-- The height of a woven frame is twice that of a field, if it is a word of 32 bits. -/
theorem Frame.wovenLayout_of_lt {field : Frame} (h : field.layout.height * 2 < 2 ^ 32) :
    field.wovenLayout =
      .unpadded field.layout.format field.layout.width (field.layout.height * 2) := by
  rw [wovenLayout, wrap_of_lt h]

namespace Sps

variable {sps : Sps}

theorem ctbSize_of_lt (h : sps.log2Ctb < 64) : sps.ctbSize = 2 ^ sps.log2Ctb := shiftedOne_of_lt h

/-- **A picture has the blocks that cover it**, if a word of 64 bits can be shifted by the logarithm
of their size. -/
theorem ctbCount_of_lt (h : sps.log2Ctb < 64) : sps.ctbCount =
    (sps.width + 2 ^ sps.log2Ctb - 1) / 2 ^ sps.log2Ctb *
      ((sps.height + 2 ^ sps.log2Ctb - 1) / 2 ^ sps.log2Ctb) := by
  rw [ctbCount, ctbWidth, ctbHeight, ctbSize_of_lt h]

end Sps

end PictureBuffer
