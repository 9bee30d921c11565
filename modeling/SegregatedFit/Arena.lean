/-
This file defines the arena: a source seen as one range of words and bytes, addressed by
offsets from its start. An access that does not lie inside of the range is a fault, and
changes nothing.
-/

import SegregatedFit.Action
import SegregatedFit.Source

namespace SegregatedFit

/-- A source, and how often it was asked for more bytes with success. -/
structure Arena (σ : Type) where
  source : σ
  growths : Nat

namespace Arena

variable {σ : Type} [Source σ]

/-- The number of bytes in the arena, sentinels included. -/
def size (arena : Arena σ) : Nat :=
  Source.size arena.source

/-- The payload offset of the epilogue, which ends where the arena ends. -/
def epilogue (arena : Arena σ) : Nat :=
  arena.size

/-- The number of bytes by which the arena can still grow. -/
def remaining (arena : Arena σ) : Nat :=
  Source.remaining arena.source

/-! ### Reading -/

/-- The word at an offset, if it lies inside of the arena. -/
def word? (arena : Arena σ) (offset : Nat) : Option Nat :=
  if offset + wordSize ≤ arena.size then
    some (Source.load arena.source offset wordSize)
  else
    none

/-- The word at an offset. -/
def word (arena : Arena σ) (offset : Nat) : Except Fault Nat :=
  Fault.expect (.outOfBounds offset wordSize) (arena.word? offset)

/-- The `count` bytes from an offset on. -/
def bytes (arena : Arena σ) (offset count : Nat) : Except Fault (List UInt8) :=
  if offset + count ≤ arena.size then
    .ok (Source.readBytes arena.source offset count)
  else
    .error (.outOfBounds offset count)

/-! ### Writing -/

/-- The arena with another word at an offset. -/
def withWord : Arena σ → (offset value : Nat) → Arena σ
  | ⟨source, growths⟩, offset, value => ⟨Source.store source offset value wordSize, growths⟩

/-- The arena with other bytes from an offset on. -/
def withBytes : Arena σ → (offset : Nat) → List UInt8 → Arena σ
  | ⟨source, growths⟩, offset, values => ⟨Source.writeBytes source offset values, growths⟩

/-- Writes a word at an offset. -/
def setWord (offset value : Nat) : Action (Arena σ) Unit := fun arena =>
  if offset + wordSize ≤ arena.size then
    .ok () (arena.withWord offset value)
  else
    .error (.outOfBounds offset wordSize) arena

/-- Writes bytes from an offset on. -/
def setBytes (offset : Nat) (values : List UInt8) : Action (Arena σ) Unit := fun arena =>
  if offset + values.length ≤ arena.size then
    .ok () (arena.withBytes offset values)
  else
    .error (.outOfBounds offset values.length) arena

/-- Copies `count` bytes. The two ranges may overlap, since all bytes are read before the
first is written. -/
def copy (origin target count : Nat) : Action (Arena σ) Unit := do
  setBytes target (← Action.inspect (bytes · origin count))

/-! ### Reading what was written -/

theorem size_lt (arena : Arena σ) : arena.size < wordLimit :=
  Source.size_lt _

theorem word_eq_ok_iff {arena : Arena σ} {offset value : Nat} :
    arena.word offset = .ok value ↔ arena.word? offset = some value :=
  Fault.expect_eq_ok_iff

theorem word?_eq_some_iff {arena : Arena σ} {offset value : Nat} :
    arena.word? offset = some value ↔
      offset + 8 ≤ arena.size ∧ Source.load arena.source offset 8 = value := by
  simp [word?]

theorem word_lt {arena : Arena σ} {offset value : Nat}
    (found : arena.word? offset = some value) : value < wordLimit := by
  obtain ⟨_, rfl⟩ := word?_eq_some_iff.mp found
  exact Source.load_lt _ _ 8

theorem setWord_eq_ok_iff {before after : Arena σ} {offset value : Nat} {answer : Unit} :
    setWord offset value before = .ok answer after ↔
      offset + 8 ≤ before.size ∧ before.withWord offset value = after := by
  unfold setWord
  split <;> grind

theorem setBytes_eq_ok_iff {before after : Arena σ} {offset : Nat} {values : List UInt8}
    {answer : Unit} :
    setBytes offset values before = .ok answer after ↔
      offset + values.length ≤ before.size ∧ before.withBytes offset values = after := by
  unfold setBytes
  split <;> grind

@[simp] theorem size_withWord (arena : Arena σ) (offset value : Nat) :
    (arena.withWord offset value).size = arena.size :=
  Source.size_store _ _ _ _

/-- A word that was written is read again. -/
theorem word?_withWord_self {arena : Arena σ} {offset value : Nat}
    (inside : offset + 8 ≤ arena.size) (small : value < wordLimit) :
    (arena.withWord offset value).word? offset = some value := by
  refine word?_eq_some_iff.mpr ⟨by rwa [size_withWord], ?_⟩
  exact (Source.load_store _ _ _ 8 inside).trans (Nat.mod_eq_of_lt small)

/-- A word keeps its value while another word is written that does not overlap with it. -/
theorem word?_withWord_of_apart (arena : Arena σ) {offset other value : Nat}
    (apart : other + 8 ≤ offset ∨ offset + 8 ≤ other) :
    (arena.withWord offset value).word? other = arena.word? other := by
  have same : Source.load (arena.withWord offset value).source other wordSize =
      Source.load arena.source other wordSize := by
    refine Source.load_congr _ _ _ _ fun index low high => ?_
    simp only [wordSize] at high
    exact Source.byte_store_of_outside _ _ _ _ _ (by simp only [wordSize]; omega)
  simp only [word?, size_withWord, same]

end Arena

end SegregatedFit
