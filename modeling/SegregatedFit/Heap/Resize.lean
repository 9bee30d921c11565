/-
This file resizes allocated blocks. A block that gets smaller stays where it is, and its
tail is released. A block that gets larger stays if the block after it is free and large
enough, or if it is the last one and the arena can grow; otherwise its payload moves to
a new block.
-/

import SegregatedFit.Heap.Release

namespace SegregatedFit

namespace Heap

variable {σ : Type} [Source σ] {last : Nat}

/-- Writes another size into the header of an allocated block. -/
def setBlockSize (block size : Nat) : Action (Heap σ last) Unit := do
  let tag ← inspectArena (Arena.header · block)
  onArena (Arena.setAllocatedTag block size tag.prevAllocated)

/-- Cuts an allocated block of `size` bytes down to `newSize` bytes and frees the rest, if
the rest is large enough to be a block. -/
def trim (block size newSize : Nat) : Action (Heap σ last) Unit := do
  let leftover ← Word.sub size newSize
  if minimumBlock ≤ leftover then
    setBlockSize block newSize
    let rest ← Word.add block newSize
    onArena (Arena.setFreeTags rest leftover true)
    onArena (Arena.setNextPrevAllocated rest false)
    indexBlock rest
    let _ ← coalesce rest

/-- Makes sure that the block after `block` is free and that both together have `newSize`
bytes, if need be by growth at the end of the arena. -/
def reserveAfter (block size newSize : Nat) : Action (Heap σ last) Bool := do
  let next ← inspectArena (Arena.nextBlock · block)
  let nextTag ← inspectArena (Arena.header · next)
  let available ← if nextTag.allocated then pure size else Word.add size nextTag.size
  let after ← if nextTag.allocated then pure next else inspectArena (Arena.nextBlock · next)
  if newSize ≤ available then
    return true
  else if after = (← Action.look (·.arena.epilogue)) then
    return (← extend (← Word.sub newSize available)).isOk
  else
    return false

/-- Makes an allocated block of `size` bytes and the free block after it into one. The
answer is the size of the result. -/
def absorbNext (block size : Nat) : Action (Heap σ last) Nat := do
  let next ← inspectArena (Arena.nextBlock · block)
  let nextTag ← inspectArena (Arena.header · next)
  unindexBlock next
  let total ← Word.add size nextTag.size
  onArena (Arena.setNextPrevAllocated next true)
  setBlockSize block total
  return total

/-- Enlarges an allocated block without moving it, and answers whether that was possible. -/
def growInPlace (block size newSize : Nat) : Action (Heap σ last) Bool := do
  if ← reserveAfter block size newSize then
    trim block (← absorbNext block size) newSize
    return true
  else
    return false

/-- Moves the payload of an allocated block of `size` bytes to a new block with room for
`request` bytes. -/
def relocate (pointer : Pointer) (size request : Nat) :
    Action (Heap σ last) (Option Pointer) := do
  match ← allocate? request with
  | none => return none
  | some target =>
    let count := min (← payloadSize size) request
    onArena (Arena.copy pointer.offset target.offset count)
    release pointer
    return some target

/-- Gives the block of a live pointer room for `request` bytes, which may be none. -/
def resizeBlock? (pointer : Pointer) (request : Nat) : Action (Heap σ last) (Option Pointer) := do
  let size := (← inspectArena (Arena.header · pointer.offset)).size
  match blockSize? request with
  | none => return none
  | some newSize =>
    if newSize ≤ size then
      trim pointer.offset size newSize
      return some pointer
    else if ← growInPlace pointer.offset size newSize then
      return some pointer
    else
      relocate pointer size request

/-- Gives an allocation room for `request` bytes and keeps its first bytes. Without a
pointer this allocates; without a request it releases, and answers nothing. -/
def resize? (pointer : Option Pointer) (request : Nat) :
    Action (Heap σ last) (Option Pointer) := do
  match pointer with
  | none => allocate? request
  | some pointer =>
    if request = 0 then
      release pointer
      return none
    else
      resizeBlock? pointer request

end Heap

end SegregatedFit
