/-
This file proves that a heap that a chart describes is well formed: its cells are the blocks
that a walk through the arena meets, and its lists hold those that are free.
-/

import SegregatedFit.Heap.WellFormed
import SegregatedFit.Proofs.Arena.Layout
import SegregatedFit.Proofs.Heap.Describes

namespace SegregatedFit

namespace Cell

variable {σ : Type} [Source σ] {arena : Arena σ} {cells : List Cell} {start : Nat}
variable {prevAllocated : Bool}

/-- Cells that can be read from memory, with an epilogue behind them, tile the arena. -/
theorem Tiles.tiled (tiles : Tiles start arena.size cells) (whole : start % 16 = 0)
    (separated : Separated prevAllocated cells)
    (shown : ∀ block ∈ blocks prevAllocated (cells ++ [epilogue arena.size]), arena.Shows block) :
    arena.Tiled start prevAllocated (blocks prevAllocated cells) := by
  induction cells generalizing start prevAllocated with
  | nil =>
    obtain rfl : start = arena.size := tiles
    have header := (shown _ List.mem_cons_self).header
    refine ⟨rfl, _, header, ?_, rfl⟩
    simp [Tag.sameBlock, tag, Tag.ofParts, epilogue, Tag.epilogue]
  | cons cell rest inductionHypothesis =>
    obtain ⟨rfl, regular, restTiles⟩ := tiles
    have size_eq := size_tag regular prevAllocated
    have here := shown _ List.mem_cons_self
    have next_eq : Block.next ⟨cell.offset, cell.tag prevAllocated⟩ = cell.next :=
      congrArg (cell.offset + ·) size_eq
    have nextWhole : cell.next % 16 = 0 := by
      have := regular.1
      unfold next
      omega
    refine ⟨rfl, ⟨whole, ?_, ?_⟩, here.header, rfl, fun free => ⟨?_, ?_⟩, ?_⟩
    · rw [size_eq]
      exact regular.1
    · rw [size_eq]
      exact regular.2
    · have free : cell.allocated = false := free
      exact separated.1.resolve_right (by simp [free])
    · refine ⟨_, here.footer free, ?_⟩
      rw [Tag.ofWord_word]
      simp [Tag.sameBlock, Tag.withPrevAllocated]
    · rw [next_eq]
      exact inductionHypothesis restTiles nextWhole separated.2
        fun block member => shown block (List.mem_cons_of_mem _ member)

end Cell

namespace Chart

variable {σ : Type} [Source σ] {last : Nat} {chart : Chart} {heap : Heap σ last}

/-- The arena of a described heap consists of the cells of the chart. -/
theorem Describes.laidOut (describes : chart.Describes heap) :
    heap.arena.LaidOut (Cell.blocks true chart.cells) := by
  have closed := describes.closed
  have size_eq := Heap.Opened.size_eq closed
  refine ⟨closed.prologue, ?_⟩
  have tiles := describes.tiles
  rw [← size_eq] at tiles
  exact tiles.tiled rfl describes.separated (size_eq ▸ closed.backShown)

/-- A walk through a described heap meets the cells of the chart. -/
theorem Describes.walk_eq_ok (describes : chart.Describes heap) :
    heap.arena.walk = .ok (Cell.blocks true chart.cells) :=
  describes.laidOut.walk_eq_ok

/-- The lists of a described heap hold the free cells of the chart. -/
theorem Describes.holds (describes : chart.Describes heap) :
    heap.index.Holds heap.arena (Cell.blocks true chart.cells) fun bucket =>
      (Index.bucketCells last bucket chart.order).map Cell.offset := by
  have closed := describes.closed
  intro bucket
  have members : ∀ cell ∈ Index.bucketCells last bucket chart.order, cell ∈ chart.cells ∧
      cell.allocated = false ∧ bucketFor last cell.size = bucket := by
    intro cell member
    obtain ⟨ordered, here⟩ := Index.mem_bucketCells.mp member
    obtain ⟨found, free⟩ := closed.free cell ordered
    exact ⟨found, free, here⟩
  refine ⟨closed.follows.represents (Heap.Opened.hosts closed) closed.ascending bucket,
    fun node => ⟨?_, ?_⟩⟩
  · intro member
    obtain ⟨cell, found, rfl⟩ := List.mem_map.mp member
    obtain ⟨inCells, free, here⟩ := members cell found
    obtain ⟨flag, block⟩ := Cell.exists_mem_blocks true inCells
    refine ⟨_, block, rfl, free, ?_⟩
    rwa [Cell.size_tag (describes.tiles.bounds inCells).2.2]
  · rintro ⟨block, member, rfl, free, here⟩
    obtain ⟨cell, found, flag, rfl⟩ := Cell.exists_of_mem_blocks member
    rw [Cell.size_tag (describes.tiles.bounds found).2.2] at here
    exact List.mem_map.mpr ⟨cell, Index.mem_bucketCells.mpr
      ⟨describes.indexed cell found free, here⟩, rfl⟩

/-- A described heap is well formed. -/
theorem Describes.wellFormed (describes : chart.Describes heap) : heap.WellFormed :=
  ⟨_, _, describes.laidOut, describes.holds⟩

end Chart

end SegregatedFit
