/-
This file says when a heap is well formed: its arena is laid out well, and the lists of its
index hold the free blocks of the arena, each in the bucket for its size. The operations
keep heaps well formed as long as their callers keep their promises. The main statement: a
walk along the list of a bucket visits exactly the free blocks that belong there.
-/

import SegregatedFit.Arena.Layout
import SegregatedFit.FreeList.Chain
import SegregatedFit.Heap

namespace SegregatedFit

variable {σ : Type} [Source σ] {last : Nat}

namespace Index

/-- Whether the lists of an index stand for the given nodes, bucket by bucket, and these
nodes are the free ones of the given blocks. -/
def Holds (index : Index last) (arena : Arena σ) (blocks : List Block)
    (nodes : Fin (last + 1) → List Nat) : Prop :=
  ∀ bucket, (index.lists.get bucket).Represents arena (nodes bucket) ∧
    ∀ node, node ∈ nodes bucket ↔
      ∃ block ∈ blocks, block.offset = node ∧ block.tag.allocated = false ∧
        bucketFor last block.tag.size = bucket

end Index

namespace Heap

/-- Whether a heap is well formed. -/
def WellFormed (heap : Heap σ last) : Prop :=
  ∃ blocks nodes, heap.arena.LaidOut blocks ∧ heap.index.Holds heap.arena blocks nodes

/-- A walk along the list of a bucket visits exactly the free blocks that belong there. -/
theorem WellFormed.nodes_eq {heap : Heap σ last} (wellFormed : heap.WellFormed)
    (bucket : Fin (last + 1)) :
    ∃ nodes, (heap.index.lists.get bucket).nodes heap.arena = .ok nodes ∧ nodes.Nodup ∧
      ∀ node, node ∈ nodes ↔ ∃ block ∈ heap.arena.blocks, block.offset = node ∧
        block.tag.allocated = false ∧ bucketFor last block.tag.size = bucket := by
  obtain ⟨blocks, nodes, layout, holds⟩ := wellFormed
  obtain ⟨represents, members⟩ := holds bucket
  rw [Arena.blocks_eq_of_laidOut layout]
  exact ⟨nodes bucket, represents.nodes_eq, represents.distinct, members⟩

end Heap

end SegregatedFit
