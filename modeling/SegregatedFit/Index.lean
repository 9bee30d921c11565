/-
This file defines the index of the free blocks: one free list per size class. A block is
in the list of the bucket for its size, so it has to leave the index before its size
changes, and comes back afterwards. A search begins in the bucket for the size that is
wanted and goes on to the buckets of larger blocks.
-/

import SegregatedFit.FreeList
import SegregatedFit.SizeClass

namespace SegregatedFit

/-- The free lists of the buckets from zero up to the last one. -/
structure Index (last : Nat) where
  lists : Vector FreeList (last + 1)

namespace Index

variable {σ : Type} [Source σ] {last : Nat}

/-- The index without blocks. -/
def empty : Index last where
  lists := Vector.replicate (last + 1) FreeList.empty

/-- The list of the bucket for blocks of `size` bytes. -/
def listFor (index : Index last) (size : Nat) : FreeList :=
  index.lists.get ⟨bucketFor last size, Nat.lt_succ_of_le (bucketFor_le last size)⟩

/-- The index with another list in the bucket for blocks of `size` bytes. -/
def setListFor (index : Index last) (size : Nat) (list : FreeList) : Index last where
  lists := index.lists.set (bucketFor last size) list
    (Nat.lt_succ_of_le (bucketFor_le last size))

/-- Adds a free block to the list for its size. -/
def insert (index : Index last) (block : Nat) : Action (Arena σ) (Index last) := do
  let tag ← Action.inspect (Arena.header · block)
  return index.setListFor tag.size (← (index.listFor tag.size).insert block)

/-- Takes a block out of the list for its size. -/
def remove (index : Index last) (block : Nat) : Action (Arena σ) (Index last) := do
  let tag ← Action.inspect (Arena.header · block)
  return index.setListFor tag.size (← (index.listFor tag.size).remove block)

/-- The first fitting block of the bucket for `size` or of a bucket after it. -/
def find (index : Index last) (arena : Arena σ) (size : Nat) : Except Fault (Option Nat) :=
  (index.lists.toList.drop (bucketFor last size)).findSomeM? (·.find arena size)

/-- The number of blocks in all lists together. -/
def length (index : Index last) : Except Fault Nat :=
  index.lists.toList.foldlM (fun total list => Word.add total list.length) 0

end Index

end SegregatedFit
