/-
This file allocates blocks. The index yields the smallest free block that fits. If what
is left of it is a block on its own, the block is split: small blocks are cut from the
low end, so that they lie close together, and large ones from the high end, where they
merge with later growth once they are free.

    below the threshold:  | allocated |   free    |
    from it on:           |   free    | allocated |
-/

import SegregatedFit.Heap.Coalesce
import SegregatedFit.Pointer

namespace SegregatedFit

namespace Heap

variable {σ : Type} [Source σ] {last : Nat}

/-- Uses a whole free block that has left the index. -/
def placeWhole (block : Nat) (tag : Tag) : Action (Heap σ last) Nat := do
  onArena (Arena.setAllocatedTag block tag.size tag.prevAllocated)
  onArena (Arena.setNextPrevAllocated block true)
  return block

/-- Uses the low end of a free block that has left the index. -/
def placeLow (block size : Nat) (tag : Tag) (leftover : Nat) : Action (Heap σ last) Nat := do
  onArena (Arena.setAllocatedTag block size tag.prevAllocated)
  let rest ← Word.add block size
  onArena (Arena.setFreeTags rest leftover true)
  indexBlock rest
  return block

/-- Uses the high end of a free block that has left the index. -/
def placeHigh (block size : Nat) (tag : Tag) (leftover : Nat) : Action (Heap σ last) Nat := do
  onArena (Arena.setFreeTags block leftover tag.prevAllocated)
  indexBlock block
  let high ← Word.sub (← Word.add block tag.size) size
  onArena (Arena.setAllocatedTag high size false)
  onArena (Arena.setNextPrevAllocated high true)
  return high

/-- Allocates `size` bytes of a free block and answers their payload offset. -/
def place (block size : Nat) : Action (Heap σ last) Nat := do
  let tag ← inspectArena (Arena.header · block)
  let splitThreshold ← Action.look (·.config.splitThreshold)
  unindexBlock block
  let leftover ← Word.sub tag.size size
  if leftover < minimumBlock then
    placeWhole block tag
  else if size < splitThreshold then
    placeLow block size tag leftover
  else
    placeHigh block size tag leftover

/-- The block to cut `size` bytes from: the best fit, or a new one at the end. -/
def findOrExtend (size : Nat) : Action (Heap σ last) (Except Refusal Nat) := do
  match ← Action.inspect fun heap => heap.index.find heap.arena size with
  | some block => return .ok block
  | none => extend size

/-- Allocates a block with room for `request` bytes. -/
def allocate (request : Nat) : Action (Heap σ last) (Except Refusal Pointer) := do
  if request = 0 then
    return .error .invalidArgument
  else
    match blockSize? request with
    | none =>
      let available ← Action.look (·.arena.remaining)
      return .error (.outOfMemory request available)
    | some size =>
      match ← findOrExtend size with
      | .error refusal => return .error refusal
      | .ok block => return .ok (← Pointer.ofBlock (← place block size))

/-- Allocates a block with room for `request` bytes, or nothing if that is refused. -/
def allocate? (request : Nat) : Action (Heap σ last) (Option Pointer) := do
  return (← allocate request).toOption

end Heap

end SegregatedFit
