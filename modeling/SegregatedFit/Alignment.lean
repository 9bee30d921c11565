/-
This file rounds values to the alignment. Every payload offset and every block size is
a multiple of two words, so that a payload may hold any machine value.
-/

import SegregatedFit.Word

namespace SegregatedFit

/-- Payload offsets and block sizes are multiples of this value. -/
@[simp] abbrev alignment : Nat := 2 * wordSize

/-- Whether a value is a multiple of the alignment. -/
def isAligned (value : Nat) : Bool :=
  value % alignment = 0

/-- The least multiple of the alignment that is not below `value`, if it is a word. -/
def alignUp? (value : Nat) : Option Nat :=
  if value + (alignment - 1) < wordLimit then
    some ((value + (alignment - 1)) / alignment * alignment)
  else
    none

/-- The least multiple of the alignment that is not below `value`. The sum with a whole
alignment has to fit in a word, so the topmost multiple is out of reach. -/
def alignUp (value : Nat) : Except Fault Nat := do
  let padded ← Word.add value alignment
  return (padded - 1) / alignment * alignment

theorem isAligned_iff {value : Nat} : isAligned value = true ↔ value % 16 = 0 :=
  decide_eq_true_iff

/-- Rounding succeeds exactly when the rounded value is a word. -/
theorem alignUp?_eq_some_iff {value rounded : Nat} :
    alignUp? value = some rounded ↔
      rounded < wordLimit ∧ rounded % 16 = 0 ∧ value ≤ rounded ∧ rounded < value + 16 := by
  simp only [alignUp?, wordLimit, alignment, wordSize]
  split
  · simp only [Option.some.injEq]
    omega
  · simp only [reduceCtorEq, false_iff]
    omega

end SegregatedFit
