/-
This file merges free blocks with their free neighbours, and lets a heap grow and begin.
Every block that becomes free is merged at once, so no two free blocks are ever adjacent,
and a new block at the end joins the free block in front of it.
-/

import SegregatedFit.Heap

namespace SegregatedFit

namespace Heap

variable {σ : Type} [Source σ] {last : Nat}

/-- Makes one free block of a range whose blocks have left the index. -/
def mergeRange (block size : Nat) (prevAllocated : Bool) : Action (Heap σ last) Nat := do
  onArena (Arena.setFreeTags block size prevAllocated)
  indexBlock block
  return block

/-- Merges a free block of the index with its free neighbours, and answers the payload
offset of the resulting block, which is in the index again. -/
def coalesce (block : Nat) : Action (Heap σ last) Nat := do
  let tag ← inspectArena (Arena.header · block)
  let next ← inspectArena (Arena.nextBlock · block)
  let nextTag ← inspectArena (Arena.header · next)
  match tag.prevAllocated, nextTag.allocated with
  | true, true => return block
  | true, false =>
    unindexBlock block
    unindexBlock next
    mergeRange block (← Word.add tag.size nextTag.size) true
  | false, true =>
    let previous ← inspectArena (Arena.previousBlock · block)
    let previousTag ← inspectArena (Arena.header · previous)
    unindexBlock block
    unindexBlock previous
    mergeRange previous (← Word.add previousTag.size tag.size) previousTag.prevAllocated
  | false, false =>
    let previous ← inspectArena (Arena.previousBlock · block)
    let previousTag ← inspectArena (Arena.header · previous)
    unindexBlock block
    unindexBlock previous
    unindexBlock next
    let front ← Word.add previousTag.size tag.size
    mergeRange previous (← Word.add front nextTag.size) previousTag.prevAllocated

/-- Grows the arena by at least `size` bytes, and by a whole chunk if that is more. The
answer is the free block at the end, which is in the index. -/
def extend (size : Nat) : Action (Heap σ last) (Except Refusal Nat) := do
  let chunkSize ← Action.look (·.config.chunkSize)
  match alignUp? (max size chunkSize) with
  | none =>
    let available ← Action.look (·.arena.remaining)
    return .error (.outOfMemory size available)
  | some growth =>
    match ← onArena (Arena.grow growth) with
    | .error refusal => return .error refusal
    | .ok block =>
      indexBlock block
      return .ok (← coalesce block)

/-- Builds a heap in a source that has not handed out any bytes yet. -/
def create (source : σ) (config : Config) : Except Fault (Except Refusal (Heap σ last)) :=
  match config.normalized? with
  | none =>
    let requested := max config.chunkSize config.initialSize
    .ok (.error (.outOfMemory requested (Source.remaining source)))
  | some config =>
    match Arena.init source with
    | .error refusal => .ok (.error refusal)
    | .ok arena =>
      match extend config.initialSize ⟨arena, Index.empty, config⟩ with
      | .ok (.ok _) heap => .ok (.ok heap)
      | .ok (.error refusal) _ => .ok (.error refusal)
      | .error fault _ => .error fault

end Heap

end SegregatedFit
