/-
This file walks through the blocks of an arena, from the first block after the sentinels
on. The walk ends at a header of size zero, such as that of the epilogue, or where no
header can be read. Nothing is trusted on the way, so the walk has an answer on every
arena.
-/

import SegregatedFit.Arena.Block

namespace SegregatedFit

/-- A block that was met on a walk: where its payload begins, and its header. -/
structure Block where
  offset : Nat
  tag : Tag
deriving DecidableEq

namespace Block

/-- The payload offset of the block that follows. -/
def next (block : Block) : Nat :=
  block.offset + block.tag.size

end Block

namespace Arena

variable {σ : Type} [Source σ]

/-- The blocks from an offset on. -/
def blocksFrom (arena : Arena σ) (offset : Nat) : List Block :=
  match found : arena.header? offset with
  | none => []
  | some tag =>
    if _ : tag.size = 0 then
      []
    else
      have _ := le_size_of_header? found
      ⟨offset, tag⟩ :: arena.blocksFrom (offset + tag.size)
termination_by arena.size + 8 - offset

theorem blocksFrom_of_header? {arena : Arena σ} {offset : Nat} {tag : Tag}
    (found : arena.header? offset = some tag) (large : tag.size ≠ 0) :
    arena.blocksFrom offset = ⟨offset, tag⟩ :: arena.blocksFrom (offset + tag.size) := by
  rw [blocksFrom]
  split <;> simp_all

theorem blocksFrom_of_size_eq_zero {arena : Arena σ} {offset : Nat} {tag : Tag}
    (found : arena.header? offset = some tag) (empty : tag.size = 0) :
    arena.blocksFrom offset = [] := by
  rw [blocksFrom]
  split <;> simp_all

/-- The blocks between the sentinels. -/
def blocks (arena : Arena σ) : List Block :=
  arena.blocksFrom firstBlock

/-- The same walk, which is a fault when the end of its last block is no word. -/
def walk (arena : Arena σ) : Except Fault (List Block) :=
  let blocks := arena.blocks
  if blocks.all (·.next < wordLimit) then .ok blocks else .error .overflow

end Arena

end SegregatedFit
