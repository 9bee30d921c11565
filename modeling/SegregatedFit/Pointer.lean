/-
This file defines the handle to an allocated block, which is the offset of its payload.
The padding word lies at offset zero, so no payload does.
-/

import SegregatedFit.Word

namespace SegregatedFit

/-- The payload offset of an allocated block. -/
structure Pointer where
  offset : Nat
  offset_ne_zero : offset ≠ 0
deriving DecidableEq

namespace Pointer

/-- The pointer with an offset, if it is not zero. -/
def ofOffset? (offset : Nat) : Option Pointer :=
  if zero : offset = 0 then none else some ⟨offset, zero⟩

/-- The pointer to a block. -/
def ofBlock (block : Nat) : Except Fault Pointer :=
  Fault.expect .nullPointer (ofOffset? block)

theorem ofBlock_eq_ok_iff {block : Nat} {pointer : Pointer} :
    ofBlock block = .ok pointer ↔ pointer.offset = block := by
  obtain ⟨offset, nonzero⟩ := pointer
  unfold ofBlock ofOffset?
  split
  · rename_i zero
    simp only [Fault.expect, reduceCtorEq, false_iff]
    exact fun same => nonzero (same.trans zero)
  · simp [Fault.expect, eq_comm]

/-- The written form of a pointer for a reader. -/
def describe (pointer : Pointer) : String :=
  s!"Pointer({pointer.offset})"

end Pointer

end SegregatedFit
