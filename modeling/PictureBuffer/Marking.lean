/-!
# Slot flags

What a slot of the picture buffer is used for: its picture waits for output, serves as a
short-term or a long-term reference, or stands in for a reference that is missing.

`Flags.marking` reads the reference marking, long-term winning over short-term, and
`Flags.status` sums up the use of the slot.

Model of `Reference` (`Marking`), `SlotFlags` (`Flags`) and `SlotStatus` (`Status`).
-/

namespace PictureBuffer

/-- How a picture is marked for reference. -/
inductive Marking
  | none
  | shortTerm
  | longTerm
  deriving DecidableEq, Repr, Inhabited

/-- The state bits of a slot. -/
structure Flags where
  /-- The picture waits for output. -/
  output : Bool := false
  shortTerm : Bool := false
  longTerm : Bool := false
  /-- The picture stands in for a missing reference. -/
  placeholder : Bool := false
  deriving DecidableEq, Repr, Inhabited

namespace Flags

def empty : Flags := {}

/-- Waiting for output only. -/
def waiting : Flags := { output := true }

/-- Both reference markings. -/
def references : Flags := { shortTerm := true, longTerm := true }

/-- A missing reference's stand-in. -/
def standIn : Flags := { placeholder := true }

def all : Flags := ⟨true, true, true, true⟩

def isEmpty (f : Flags) : Bool :=
  !f.output && !f.shortTerm && !f.longTerm && !f.placeholder

/-- The bits set in `f` or in `g`. -/
def union (f g : Flags) : Flags :=
  ⟨f.output || g.output, f.shortTerm || g.shortTerm, f.longTerm || g.longTerm,
    f.placeholder || g.placeholder⟩

/-- The bits set in `f` and not in `mask`. -/
def without (f mask : Flags) : Flags :=
  ⟨f.output && !mask.output, f.shortTerm && !mask.shortTerm, f.longTerm && !mask.longTerm,
    f.placeholder && !mask.placeholder⟩

/-- The flags with code `bits`: output `1`, short-term `2`, long-term `4`, placeholder `8`.
Higher bits mean nothing. -/
def ofBits (bits : Nat) : Flags :=
  ⟨bits.testBit 0, bits.testBit 1, bits.testBit 2, bits.testBit 3⟩

def bits (f : Flags) : Nat :=
  f.output.toNat + 2 * f.shortTerm.toNat + 4 * f.longTerm.toNat + 8 * f.placeholder.toNat

theorem ofBits_bits (f : Flags) : ofBits f.bits = f := by
  obtain ⟨a, b, c, d⟩ := f
  cases a <;> cases b <;> cases c <;> cases d <;> rfl

/-- The marking carried by the flags. -/
def marking (f : Flags) : Marking :=
  if f.longTerm then .longTerm else if f.shortTerm then .shortTerm else .none

end Flags

/-- The flags that carry a marking. -/
def Marking.flags : Marking → Flags
  | .none => {}
  | .shortTerm => { shortTerm := true }
  | .longTerm => { longTerm := true }

/-- What a slot is used for. -/
inductive Status
  | free
  /-- Kept only as a reference. -/
  | reference (marking : Marking)
  /-- Waiting only for output. -/
  | pending
  /-- A reference that also waits for output. -/
  | both (marking : Marking)
  /-- The stand-in for a missing reference. -/
  | unavailable (marking : Marking)
  deriving DecidableEq, Repr

def Flags.status (f : Flags) : Status :=
  if f.placeholder then .unavailable f.marking
  else match f.output, f.marking with
    | true, .none => .pending
    | true, m => .both m
    | false, .none => .free
    | false, m => .reference m

end PictureBuffer
