/-
This file gives the arena its blocks. A block is named by the offset of its payload, one
word after its header:

    allocated:  | header |          payload          |
    free:       | header | previous | next | … | footer |

The footer of a free block is the word before the header of its follower. That makes the
step to a free predecessor possible; whether it is free is told by a flag in the own
header, for otherwise the word in front belongs to somebody else.
-/

import SegregatedFit.Arena
import SegregatedFit.BlockSize
import SegregatedFit.Tag

namespace SegregatedFit

namespace Arena

variable {σ : Type} [Source σ]

/-- The offset of the header of a block. -/
def headerOffset (block : Nat) : Except Fault Nat :=
  Word.sub block headerSize

/-- The tag in the header of a block, if the header lies inside of the arena. -/
def header? (arena : Arena σ) (block : Nat) : Option Tag :=
  if headerSize ≤ block then
    (arena.word? (block - headerSize)).map Tag.ofWord
  else
    none

/-- The tag in the header of a block. -/
def header (arena : Arena σ) (block : Nat) : Except Fault Tag :=
  Fault.expect (.outOfBounds (block - headerSize) wordSize) (arena.header? block)

/-- The payload offset of the block that follows. -/
def nextBlock (arena : Arena σ) (block : Nat) : Except Fault Nat := do
  Word.add block (← arena.header block).size

/-- The offset of the footer of a block, which counts only while the block is free. -/
def footerOffset (arena : Arena σ) (block : Nat) : Except Fault Nat := do
  Word.sub (← arena.nextBlock block) (headerSize + wordSize)

/-- The tag in the footer of a free block. -/
def footer (arena : Arena σ) (block : Nat) : Except Fault Tag := do
  return Tag.ofWord (← arena.word (← arena.footerOffset block))

/-- The payload offset of the block in front, which has to be free. -/
def previousBlock (arena : Arena σ) (block : Nat) : Except Fault Nat := do
  let footer := Tag.ofWord (← arena.word (← Word.sub block (headerSize + wordSize)))
  Word.sub block footer.size

/-- Writes the header of a block. -/
def setHeader (block : Nat) (tag : Tag) : Action (Arena σ) Unit := do
  setWord (← headerOffset block) tag.word

/-- Writes header and footer of a free block of `size` bytes. Only the header tells
whether the block in front is allocated. -/
def setFreeTags (block size : Nat) (prevAllocated : Bool) : Action (Arena σ) Unit := do
  let tag ← Tag.pack size false
  setHeader block (tag.withPrevAllocated prevAllocated)
  setWord (← Action.inspect (footerOffset · block)) tag.word

/-- Writes the header of an allocated block of `size` bytes. -/
def setAllocatedTag (block size : Nat) (prevAllocated : Bool) : Action (Arena σ) Unit := do
  let tag ← Tag.pack size true
  setHeader block (tag.withPrevAllocated prevAllocated)

/-- Tells a block whether the block in front is allocated. -/
def setPrevAllocated (block : Nat) (prevAllocated : Bool) : Action (Arena σ) Unit := do
  let tag ← Action.inspect (header · block)
  setHeader block (tag.withPrevAllocated prevAllocated)

/-- Tells the follower of a block whether the block is allocated. -/
def setNextPrevAllocated (block : Nat) (allocated : Bool) : Action (Arena σ) Unit := do
  setPrevAllocated (← Action.inspect (nextBlock · block)) allocated

theorem header_eq_ok_iff {arena : Arena σ} {block : Nat} {tag : Tag} :
    arena.header block = .ok tag ↔ arena.header? block = some tag :=
  Fault.expect_eq_ok_iff

theorem header?_eq_some_iff {arena : Arena σ} {block : Nat} {tag : Tag} :
    arena.header? block = some tag ↔
      8 ≤ block ∧ ∃ word, arena.word? (block - 8) = some word ∧ Tag.ofWord word = tag := by
  simp [header?]

theorem headerOffset_eq_ok_iff {block offset : Nat} :
    headerOffset block = .ok offset ↔ 8 ≤ block ∧ block - 8 = offset :=
  Word.sub_eq_ok_iff

theorem setHeader_eq_ok_iff {before after : Arena σ} {block : Nat} {tag : Tag} {answer : Unit} :
    setHeader block tag before = .ok answer after ↔
      8 ≤ block ∧ block ≤ before.size ∧ before.withWord (block - 8) tag.word = after := by
  simp only [setHeader, Action.bind_eq_ok_iff, Action.lift_eq_ok_iff, headerOffset_eq_ok_iff,
    setWord_eq_ok_iff]
  constructor
  · rintro ⟨offset, between, ⟨⟨above, rfl⟩, rfl⟩, inside, written⟩
    exact ⟨above, by omega, written⟩
  · rintro ⟨above, inside, written⟩
    exact ⟨_, _, ⟨⟨above, rfl⟩, rfl⟩, by omega, written⟩

/-- A header that was written is read again. -/
theorem header?_withWord_self {arena : Arena σ} {block : Nat} {tag : Tag} (above : 8 ≤ block)
    (inside : block ≤ arena.size) (small : tag.word < wordLimit) :
    (arena.withWord (block - 8) tag.word).header? block = some tag := by
  refine header?_eq_some_iff.mpr ⟨above, tag.word, ?_, Tag.ofWord_word tag⟩
  exact word?_withWord_self (by omega) small

/-- A header stays while a word is written that does not overlap with it. -/
theorem header?_withWord_of_apart (arena : Arena σ) {block offset value : Nat}
    (apart : block ≤ offset ∨ offset + 16 ≤ block) :
    (arena.withWord offset value).header? block = arena.header? block := by
  unfold header?
  split
  · rename_i above
    simp only [headerSize, wordSize] at *
    rw [word?_withWord_of_apart _ (by omega)]
  · rfl

theorem le_size_of_header? {arena : Arena σ} {block : Nat} {tag : Tag}
    (found : arena.header? block = some tag) : 8 ≤ block ∧ block ≤ arena.size := by
  obtain ⟨above, word, inside, _⟩ := header?_eq_some_iff.mp found
  have bound := (word?_eq_some_iff.mp inside).1
  omega

end Arena

end SegregatedFit
