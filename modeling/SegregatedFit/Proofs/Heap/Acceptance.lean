/-
This file says which arenas pass the audit of their blocks. The audit reads its way from header to
header, and bytes that anybody may have written tell it where the next header is. What it accepts
can be said without such a walk: there are blocks, each next to the one before, that fill the
arena between the sentinels and of which every single one is as it should be. The audit finds
them whenever there are any, and counts those that are free.
-/

import Mathlib.Data.List.Chain
import SegregatedFit.Proofs.Heap.Verdict

namespace SegregatedFit

/-- Whether a block begins where the one in front ends, knows whether that one is allocated, and
is not free behind a free one. -/
def Block.Follows (block : Block) (start : Nat) (prevAllocated : Bool) : Prop :=
  block.offset = start ∧ block.tag.prevAllocated = prevAllocated ∧
    (prevAllocated = true ∨ block.tag.allocated = true)

namespace Arena

variable {σ : Type} [Source σ]

/-- Whether blocks fill an arena from an offset to its end, after a block that is allocated or
not. -/
structure Fills (arena : Arena σ) (start : Nat) (prevAllocated : Bool) (blocks : List Block) :
    Prop where
  starts : ∀ block ∈ blocks.head?, block.Follows start prevAllocated
  follow : blocks.IsChain fun first second => second.Follows first.next first.tag.allocated
  ends : blocks.getLast?.elim start Block.next = arena.size
  headers : ∀ block ∈ blocks, arena.header? block.offset = some block.tag
  sizes : ∀ block ∈ blocks, block.tag.size % 16 = 0 ∧ 32 ≤ block.tag.size
  footers : ∀ block ∈ blocks, block.tag.allocated = false → arena.FooterAgrees block
  epilogue : arena.EpilogueIntact (blocks.getLast?.elim prevAllocated (·.tag.allocated))

variable {arena : Arena σ} {start : Nat} {prevAllocated : Bool} {block : Block}
variable {blocks rest : List Block}

/-- Blocks fill an arena when the first is as it should be and the others fill the rest. -/
theorem fills_cons_iff : arena.Fills start prevAllocated (block :: rest) ↔
    block.Follows start prevAllocated ∧ arena.header? block.offset = some block.tag ∧
      (block.tag.size % 16 = 0 ∧ 32 ≤ block.tag.size) ∧
      (block.tag.allocated = false → arena.FooterAgrees block) ∧
      arena.Fills block.next block.tag.allocated rest := by
  have last : ∀ {Value : Type} (default : Value) (view : Block → Value),
      (block :: rest).getLast?.elim default view = rest.getLast?.elim (view block) view := by
    intro Value default view
    rw [List.getLast?_cons]
    cases rest.getLast? <;> rfl
  constructor
  · rintro ⟨starts, follow, ends, headers, sizes, footers, epilogue⟩
    obtain ⟨next, later⟩ := List.isChain_cons.mp follow
    obtain ⟨header, headers⟩ := List.forall_mem_cons.mp headers
    obtain ⟨size, sizes⟩ := List.forall_mem_cons.mp sizes
    obtain ⟨footer, footers⟩ := List.forall_mem_cons.mp footers
    rw [last] at ends epilogue
    exact ⟨starts block rfl, header, size, footer,
      next, later, ends, headers, sizes, footers, epilogue⟩
  · rintro ⟨first, header, size, footer, next, later, ends, headers, sizes, footers, epilogue⟩
    refine ⟨?_, List.isChain_cons.mpr ⟨next, later⟩, ?_, List.forall_mem_cons.mpr ⟨header, headers⟩,
      List.forall_mem_cons.mpr ⟨size, sizes⟩, List.forall_mem_cons.mpr ⟨footer, footers⟩, ?_⟩
    · rintro _ ⟨rfl⟩
      exact first
    · rwa [last]
    · rwa [last]

/-- From an aligned offset on, blocks fill an arena exactly when they tile it. -/
theorem fills_iff_tiled (aligned : start % 16 = 0) :
    arena.Fills start prevAllocated blocks ↔ arena.Tiled start prevAllocated blocks := by
  induction blocks generalizing start prevAllocated with
  | nil =>
    constructor
    · rintro ⟨_, _, ends, _, _, _, epilogue⟩
      exact ⟨ends, epilogue⟩
    · rintro ⟨ends, epilogue⟩
      exact ⟨nofun, List.isChain_nil, ends, List.forall_mem_nil _, List.forall_mem_nil _,
        List.forall_mem_nil _, epilogue⟩
  | cons block rest inductionHypothesis =>
    have step (here : block.offset = start) (whole : block.tag.size % 16 = 0) :
        arena.Fills block.next block.tag.allocated rest ↔
          arena.Tiled block.next block.tag.allocated rest :=
      inductionHypothesis (by unfold Block.next; omega)
    rw [fills_cons_iff]
    constructor
    · rintro ⟨⟨here, knows, coalesced⟩, header, ⟨whole, large⟩, footer, tail⟩
      refine ⟨here, ⟨here ▸ aligned, whole, large⟩, here ▸ header, knows, fun free => ?_,
        (step here whole).mp tail⟩
      exact ⟨coalesced.resolve_right (by simp [free]), footer free⟩
    · rintro ⟨here, ⟨_, whole, large⟩, header, knows, free, tail⟩
      refine ⟨⟨here, knows, ?_⟩, here ▸ header, ⟨whole, large⟩, fun isFree => (free isFree).2,
        (step here whole).mpr tail⟩
      cases allocated : block.tag.allocated with
      | true => exact Or.inr rfl
      | false => exact Or.inl (free allocated).1

end Arena

namespace Audit

variable {σ : Type} [Source σ] {arena : Arena σ} {count : Nat}

/-- The audit of the blocks counts `count` free blocks exactly when the prologue is intact and
there are blocks that fill the arena behind it, `count` of them free. -/
theorem checkBlocks_counts_iff : (checkBlocks arena).run = .ok (.ok count) ↔
    arena.PrologueIntact ∧ ∃ blocks, arena.Fills firstBlock true blocks ∧
      count = (blocks.filter (! ·.tag.allocated)).length := by
  constructor
  · intro passes
    obtain ⟨blocks, ⟨prologue, tiled⟩, counted⟩ := laidOut_of_checkBlocks passes
    exact ⟨prologue, blocks, (Arena.fills_iff_tiled (by decide)).mpr tiled, counted⟩
  · rintro ⟨prologue, blocks, fills, rfl⟩
    exact checkBlocks_passes ⟨prologue, (Arena.fills_iff_tiled (by decide)).mp fills⟩

end Audit

end SegregatedFit
