/-!
# Integers of a fixed width

Sizes, durations and order counts are kept in words of 32 or 64 bits, signed or not. A result that
needs more bits wraps around (`wrap`, `wrapSigned`), and the amount of a shift counts modulo the
width (`shiftedOne`).

Where a result of the development is about the exact number, it names the range in which nothing
wraps (`FitsSigned`, or a bound).

Out of scope: a build that checks its arithmetic and stops at the first result that wraps. In the
range that is named the two do the same. Counts of what has happened are not bounded either.
-/

namespace PictureBuffer

/-- The unsigned word of `width` bits that holds `n`. -/
def wrap (width n : Nat) : Nat := (BitVec.ofNat width n).toNat

/-- The signed word of `width` bits that holds `value`, in two's complement. -/
def wrapSigned (width : Nat) (value : Int) : Int := (BitVec.ofInt width value).toInt

/-- The word of `width` bits with only bit `amount` set, as a shift of `1` to the left makes it. -/
def shiftedOne (width amount : Nat) : Nat := 1 <<< (amount % width)

end PictureBuffer
