/-
This file defines the boundary tag. A tag tells the size of a block, whether the block
is allocated and whether the block before it is. Sizes are multiples of eight, so the
three flags fit into the low bits of the word that carries the size:

    63                                   3   2   1   0
    +-------------------------------------+---+---+---+
    |              block size             | - | P | A |
    +-------------------------------------+---+---+---+

The main statement: reading a written tag gives it back, and every word is the word of
exactly one tag.
-/

import SegregatedFit.Word

namespace SegregatedFit

/-- A boundary tag. The third flag means nothing, but a word read from memory may have
it set, and then keeps it. -/
structure Tag where
  size : Nat
  allocated : Bool
  prevAllocated : Bool := false
  spare : Bool := false
  size_mod : size % 8 = 0 := by omega
deriving DecidableEq

namespace Tag

/-- The tag that a word of memory stands for. -/
def ofWord (word : Nat) : Tag where
  size := word / 8 * 8
  allocated := word % 2 = 1
  prevAllocated := word / 2 % 2 = 1
  spare := word / 4 % 2 = 1

/-- The word that stands for a tag in memory. -/
def word (tag : Tag) : Nat :=
  tag.size + tag.spare.toNat * 4 + tag.prevAllocated.toNat * 2 + tag.allocated.toNat

/-- The tag of a block of `size` bytes after a free block. -/
def pack (size : Nat) (allocated : Bool) : Except Fault Tag :=
  if whole : size % 8 = 0 then .ok { size, allocated, size_mod := whole }
  else .error (.ragged size)

/-- The same tag after a block that is allocated or not. -/
def withPrevAllocated (tag : Tag) (prevAllocated : Bool) : Tag :=
  { tag with prevAllocated }

/-- Whether two tags agree on all that a footer tells about its block. -/
def sameBlock (first second : Tag) : Bool :=
  first.size == second.size && first.allocated == second.allocated

/-- The tag of the prologue, in its header and in its footer. -/
def prologue : Tag where
  size := 16
  allocated := true

/-- The tag of the epilogue: no bytes, and never free. -/
def epilogue : Tag where
  size := 0
  allocated := true

/-- The written form of a tag for a reader. -/
def describe (tag : Tag) : String :=
  s!"Tag \x7b size: {tag.size}, allocated: {tag.allocated}, " ++
    s!"prev_allocated: {tag.prevAllocated} \x7d"

@[simp] theorem word_ofWord (word : Nat) : (ofWord word).word = word := by
  simp only [ofWord, Tag.word]
  have allocated : (decide (word % 2 = 1)).toNat = word % 2 := by
    by_cases set : word % 2 = 1 <;> simp [set]; omega
  have prevAllocated : (decide (word / 2 % 2 = 1)).toNat = word / 2 % 2 := by
    by_cases set : word / 2 % 2 = 1 <;> simp [set]; omega
  have spare : (decide (word / 4 % 2 = 1)).toNat = word / 4 % 2 := by
    by_cases set : word / 4 % 2 = 1 <;> simp [set]; omega
  rw [allocated, prevAllocated, spare]
  omega

@[simp] theorem ofWord_word (tag : Tag) : ofWord tag.word = tag := by
  obtain ⟨size, allocated, prevAllocated, spare, whole⟩ := tag
  simp only [ofWord, Tag.word, mk.injEq]
  cases allocated <;> cases prevAllocated <;> cases spare <;> simp <;> omega

theorem sameBlock_iff {first second : Tag} : first.sameBlock second = true ↔
    first.size = second.size ∧ first.allocated = second.allocated := by
  simp only [sameBlock, Bool.and_eq_true, beq_iff_eq]

/-- Tags that agree with a third one agree with each other. -/
theorem sameBlock_of_sameBlock {first second tag : Tag} (one : first.sameBlock tag = true)
    (other : second.sameBlock tag = true) : first.sameBlock second = true := by
  rw [sameBlock_iff] at *
  exact ⟨one.1.trans other.1.symm, one.2.trans other.2.symm⟩

/-- The flags never reach into the next size. -/
theorem word_lt (tag : Tag) : tag.word < tag.size + 8 := by
  obtain ⟨size, allocated, prevAllocated, spare, whole⟩ := tag
  cases allocated <;> cases prevAllocated <;> cases spare <;> simp [Tag.word]

end Tag

end SegregatedFit
