/-
This file collects what follows when blocks tile an arena: where each of them lies, that no
two of them begin at the same offset, that a walk meets them all and ends, and what their headers
tell about the blocks in front of them.
-/

import SegregatedFit.Arena.Layout

namespace SegregatedFit

namespace Arena

variable {σ : Type} [Source σ] {arena : Arena σ} {blocks : List Block}
variable {offset : Nat} {prevAllocated : Bool}

/-- A walk knows the blocks that it meets by their headers. -/
theorem header?_of_mem_blocksFrom {block : Block} (member : block ∈ arena.blocksFrom offset) :
    arena.header? block.offset = some block.tag := by
  fun_induction blocksFrom arena offset with
  | case1 => cases member
  | case2 => cases member
  | case3 offset tag found large _ inductionHypothesis =>
    rcases List.mem_cons.mp member with rfl | later
    · exact found
    · exact inductionHypothesis later

/-- The blocks of an arena have their headers. -/
theorem header?_of_mem_blocks {block : Block} (member : block ∈ arena.blocks) :
    arena.header? block.offset = some block.tag :=
  header?_of_mem_blocksFrom member

/-- The blocks of a tiled arena have their headers, and end in front of the epilogue. -/
theorem Tiled.bounds (tiled : arena.Tiled offset prevAllocated blocks) :
    offset ≤ arena.epilogue ∧ ∀ block ∈ blocks, offset ≤ block.offset ∧
      block.next ≤ arena.epilogue ∧ block.Regular ∧
      arena.header? block.offset = some block.tag := by
  induction blocks generalizing offset prevAllocated with
  | nil => exact ⟨Nat.le_of_eq tiled.1, List.forall_mem_nil _⟩
  | cons block rest inductionHypothesis =>
    obtain ⟨rfl, regular, header, _, _, tail⟩ := tiled
    obtain ⟨ends, others⟩ := inductionHypothesis tail
    have starts : block.offset ≤ block.next := Nat.le_add_right _ _
    refine ⟨Nat.le_trans starts ends, List.forall_mem_cons.mpr
      ⟨⟨Nat.le_refl _, ends, regular, header⟩, fun other member => ?_⟩⟩
    obtain ⟨behind, rest⟩ := others other member
    exact ⟨Nat.le_trans starts behind, rest⟩

/-- The blocks of a tiled arena lie at different offsets. -/
theorem Tiled.nodup (tiled : arena.Tiled offset prevAllocated blocks) :
    (blocks.map Block.offset).Nodup := by
  induction blocks generalizing offset prevAllocated with
  | nil => exact List.nodup_nil
  | cons block rest inductionHypothesis =>
    obtain ⟨_, ⟨_, _, large⟩, _, _, _, tail⟩ := tiled
    refine List.nodup_cons.mpr ⟨fun found => ?_, inductionHypothesis tail⟩
    obtain ⟨other, member, same⟩ := List.mem_map.mp found
    have behind := (tail.bounds.2 other member).1
    unfold Block.next at behind
    omega

/-- A walk meets the blocks of an arena that is laid out well. -/
theorem LaidOut.walk_eq_ok (layout : arena.LaidOut blocks) : arena.walk = .ok blocks := by
  unfold walk
  simp only [blocks_eq_of_laidOut layout]
  refine if_pos (List.all_eq_true.mpr fun block member => decide_eq_true ?_)
  obtain ⟨_, ends, _⟩ := layout.2.bounds.2 block member
  exact Nat.lt_of_le_of_lt ends arena.size_lt

/-! ### What headers tell about the blocks in front of them -/

/-- The payload offsets of the blocks of an arena, and of its epilogue. -/
def heads (arena : Arena σ) : List Nat :=
  arena.blocks.map Block.offset ++ [arena.epilogue]

variable {block : Block} {head : Nat} {tag : Tag}

/-- A tiled range begins with a header, which knows the block in front. -/
theorem Tiled.exists_first (tiled : arena.Tiled offset prevAllocated blocks) :
    ∃ tag, arena.header? offset = some tag ∧ tag.prevAllocated = prevAllocated := by
  cases blocks with
  | nil =>
    obtain ⟨rfl, tag, header, _, knows⟩ := tiled
    exact ⟨tag, header, knows⟩
  | cons block rest =>
    obtain ⟨_, _, header, knows, _⟩ := tiled
    exact ⟨block.tag, header, knows⟩

/-- Behind a block there is a header, which knows the block. -/
theorem Tiled.exists_follower (tiled : arena.Tiled offset prevAllocated blocks)
    (member : block ∈ blocks) :
    ∃ tag, arena.header? block.next = some tag ∧ tag.prevAllocated = block.tag.allocated := by
  induction blocks generalizing offset prevAllocated with
  | nil => cases member
  | cons first rest inductionHypothesis =>
    obtain ⟨_, _, _, _, _, tail⟩ := tiled
    rcases List.mem_cons.mp member with rfl | later
    · exact tail.exists_first
    · exact inductionHypothesis tail later

/-- A free block of a tiled range has its footer. -/
theorem Tiled.footerAgrees (tiled : arena.Tiled offset prevAllocated blocks)
    (member : block ∈ blocks) (free : block.tag.allocated = false) :
    arena.FooterAgrees block := by
  induction blocks generalizing offset prevAllocated with
  | nil => cases member
  | cons first rest inductionHypothesis =>
    obtain ⟨_, _, _, _, footer, tail⟩ := tiled
    rcases List.mem_cons.mp member with rfl | later
    · exact (footer free).2
    · exact inductionHypothesis tail later

/-- A tiled range ends at an epilogue. -/
theorem Tiled.exists_epilogue (tiled : arena.Tiled offset prevAllocated blocks) :
    ∃ tag, arena.header? arena.size = some tag ∧ tag.sameBlock Tag.epilogue = true := by
  induction blocks generalizing offset prevAllocated with
  | nil =>
    obtain ⟨_, tag, header, same, _⟩ := tiled
    exact ⟨tag, header, same⟩
  | cons block rest inductionHypothesis =>
    obtain ⟨_, _, _, _, _, tail⟩ := tiled
    exact inductionHypothesis tail

/-- Every header of a tiled range but the first one lies behind a block. -/
theorem Tiled.offsets_eq (tiled : arena.Tiled offset prevAllocated blocks) :
    blocks.map Block.offset ++ [arena.epilogue] = offset :: blocks.map Block.next := by
  induction blocks generalizing offset prevAllocated with
  | nil =>
    obtain ⟨rfl, _⟩ := tiled
    rfl
  | cons block rest inductionHypothesis =>
    obtain ⟨rfl, _, _, _, _, tail⟩ := tiled
    rw [List.map_cons, List.cons_append, inductionHypothesis tail, List.map_cons]

namespace LaidOut

theorem heads_eq (layout : arena.LaidOut blocks) :
    arena.heads = firstBlock :: blocks.map Block.next := by
  rw [heads, blocks_eq_of_laidOut layout]
  exact layout.2.offsets_eq

theorem mem_heads_iff (layout : arena.LaidOut blocks) :
    head ∈ arena.heads ↔ (∃ block ∈ blocks, block.offset = head) ∨ head = arena.size := by
  rw [heads, blocks_eq_of_laidOut layout, List.mem_append, List.mem_map, List.mem_singleton]
  rfl

theorem offset_mem_heads (layout : arena.LaidOut blocks) (member : block ∈ blocks) :
    block.offset ∈ arena.heads :=
  layout.mem_heads_iff.mpr (Or.inl ⟨block, member, rfl⟩)

theorem next_mem_heads (layout : arena.LaidOut blocks) (member : block ∈ blocks) :
    block.next ∈ arena.heads := by
  rw [layout.heads_eq]
  exact List.mem_cons_of_mem _ (List.mem_map_of_mem member)

theorem aligned_of_mem_heads (layout : arena.LaidOut blocks) (member : head ∈ arena.heads) :
    head % 16 = 0 ∧ 32 ≤ head := by
  rw [layout.heads_eq] at member
  rcases List.mem_cons.mp member with rfl | behind
  · exact ⟨rfl, Nat.le_refl _⟩
  · obtain ⟨block, found, rfl⟩ := List.mem_map.mp behind
    obtain ⟨_, _, ⟨whole, even, large⟩, _⟩ := layout.2.bounds.2 block found
    unfold Block.next
    omega

/-- A header knows the block in front of it. In front of the first one nothing is free. -/
theorem prevAllocated_cases (layout : arena.LaidOut blocks) (member : head ∈ arena.heads)
    (found : arena.header? head = some tag) :
    head = firstBlock ∧ tag.prevAllocated = true ∨
      ∃ block ∈ blocks, block.next = head ∧ tag.prevAllocated = block.tag.allocated := by
  rw [layout.heads_eq] at member
  rcases List.mem_cons.mp member with rfl | behind
  · obtain ⟨_, header, knows⟩ := layout.2.exists_first
    cases header.symm.trans found
    exact Or.inl ⟨rfl, knows⟩
  · obtain ⟨block, inArena, rfl⟩ := List.mem_map.mp behind
    obtain ⟨_, header, knows⟩ := layout.2.exists_follower inArena
    cases header.symm.trans found
    exact Or.inr ⟨block, inArena, rfl, knows⟩

end LaidOut

end Arena

end SegregatedFit
