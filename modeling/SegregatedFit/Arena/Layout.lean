/-
This file says when an arena is laid out well. Its blocks then tile the range between
the prologue and the epilogue; each block tells the truth about the block in front of it;
and a free block has a footer, and no free block in front. The blocks of such an arena
are the blocks that a walk through it meets.
-/

import SegregatedFit.Arena.Walk

namespace SegregatedFit

namespace Block

/-- Whether a block may be part of an arena: its offset and its size are aligned, and its
size is not below the least. -/
def Regular (block : Block) : Prop :=
  block.offset % 16 = 0 ∧ block.tag.size % 16 = 0 ∧ 32 ≤ block.tag.size

end Block

namespace Arena

variable {σ : Type} [Source σ]

/-- Whether the word in front of the header of its follower agrees with a free block. -/
def FooterAgrees (arena : Arena σ) (block : Block) : Prop :=
  ∃ word, arena.word? (block.next - 16) = some word ∧
    (Tag.ofWord word).sameBlock block.tag = true

/-- Whether the prologue has its header and its footer. -/
def PrologueIntact (arena : Arena σ) : Prop :=
  ∃ header footer, arena.word? 8 = some header ∧ arena.word? 16 = some footer ∧
    (Tag.ofWord header).sameBlock Tag.prologue = true ∧
    (Tag.ofWord footer).sameBlock Tag.prologue = true

/-- Whether the epilogue is in its place and knows the block in front. -/
def EpilogueIntact (arena : Arena σ) (prevAllocated : Bool) : Prop :=
  ∃ tag, arena.header? arena.epilogue = some tag ∧
    tag.sameBlock Tag.epilogue = true ∧ tag.prevAllocated = prevAllocated

/-- Whether blocks lie one after the other from an offset up to the epilogue, after a block
that is allocated or not. -/
def Tiled (arena : Arena σ) (offset : Nat) (prevAllocated : Bool) : List Block → Prop
  | [] => offset = arena.epilogue ∧ arena.EpilogueIntact prevAllocated
  | block :: rest =>
    block.offset = offset ∧ block.Regular ∧ arena.header? offset = some block.tag ∧
      block.tag.prevAllocated = prevAllocated ∧
      (block.tag.allocated = false → prevAllocated = true ∧ arena.FooterAgrees block) ∧
      arena.Tiled block.next block.tag.allocated rest

/-- Whether an arena is laid out well and consists of the given blocks. -/
def LaidOut (arena : Arena σ) (blocks : List Block) : Prop :=
  arena.PrologueIntact ∧ arena.Tiled firstBlock true blocks

/-- The walk from an offset on meets the blocks that lie there. -/
theorem blocksFrom_eq_of_tiled {arena : Arena σ} {offset : Nat} {prevAllocated : Bool}
    {blocks : List Block} (tiled : arena.Tiled offset prevAllocated blocks) :
    arena.blocksFrom offset = blocks := by
  induction blocks generalizing offset prevAllocated with
  | nil =>
    obtain ⟨rfl, tag, found, same, _⟩ := tiled
    exact blocksFrom_of_size_eq_zero found (Tag.sameBlock_iff.mp same).1
  | cons block rest inductionHypothesis =>
    obtain ⟨here, ⟨_, _, large⟩, found, _, _, tail⟩ := tiled
    rw [blocksFrom_of_header? found (by omega), ← here]
    exact congrArg (block :: ·) (inductionHypothesis tail)

/-- The blocks of an arena that is laid out well are those that a walk through it meets. -/
theorem blocks_eq_of_laidOut {arena : Arena σ} {blocks : List Block}
    (layout : arena.LaidOut blocks) : arena.blocks = blocks :=
  blocksFrom_eq_of_tiled layout.2

/-- There is at most one way to lay out an arena. -/
theorem LaidOut.unique {arena : Arena σ} {first second : List Block}
    (one : arena.LaidOut first) (other : arena.LaidOut second) : first = second :=
  (blocks_eq_of_laidOut one).symm.trans (blocks_eq_of_laidOut other)

end Arena

end SegregatedFit
