/-
This file measures how a heap is used: how many of its blocks are allocated and how many
are free, and how many bytes belong to either kind.
-/

import SegregatedFit.Arena.Walk
import SegregatedFit.Heap

namespace SegregatedFit

/-- How a heap is used. Sizes of blocks include their headers. -/
structure Usage where
  heapSize : Nat
  growths : Nat
  allocatedBlocks : Nat
  allocatedBytes : Nat
  freeBlocks : Nat
  freeBytes : Nat
  /-- The payload of the largest free block, or zero if there is none. -/
  largestFree : Nat
deriving DecidableEq

namespace Usage

/-- The usage of a heap before any of its blocks is counted. -/
def begin (heapSize growths : Nat) : Usage where
  heapSize := heapSize
  growths := growths
  allocatedBlocks := 0
  allocatedBytes := 0
  freeBlocks := 0
  freeBytes := 0
  largestFree := 0

/-- Counts a block. -/
def tally (usage : Usage) (block : Block) : Except Fault Usage :=
  if block.tag.allocated then do
    return { usage with
      allocatedBlocks := ← Word.add usage.allocatedBlocks 1
      allocatedBytes := ← Word.add usage.allocatedBytes block.tag.size }
  else do
    return { usage with
      freeBlocks := ← Word.add usage.freeBlocks 1
      freeBytes := ← Word.add usage.freeBytes block.tag.size
      largestFree := max usage.largestFree (← payloadSize block.tag.size) }

end Usage

namespace Heap

variable {σ : Type} [Source σ] {last : Nat}

/-- Walks through all blocks and measures them. -/
def usage (heap : Heap σ last) : Except Fault Usage := do
  (← heap.arena.walk).foldlM Usage.tally (Usage.begin heap.size heap.arena.growths)

end Heap

end SegregatedFit
