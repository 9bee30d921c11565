/-
This file releases allocated blocks. The caller promises that the pointer is live: that
this heap has answered it, and that it was not released since. The heap keeps no record
of its pointers, so a broken promise ends in a fault or in a heap that is not well formed.
-/

import SegregatedFit.Heap.Allocate

namespace SegregatedFit

namespace Heap

variable {σ : Type} [Source σ] {last : Nat}

/-- Frees the block of a pointer and merges it with its free neighbours. -/
def release (pointer : Pointer) : Action (Heap σ last) Unit := do
  let block := pointer.offset
  let tag ← inspectArena (Arena.header · block)
  onArena (Arena.setFreeTags block tag.size tag.prevAllocated)
  onArena (Arena.setNextPrevAllocated block false)
  indexBlock block
  let _ ← coalesce block

end Heap

end SegregatedFit
