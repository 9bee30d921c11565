/-
This file defines the free list, a doubly linked list of free blocks in ascending order
of size. The nodes live inside of the arena, in the first words of the blocks themselves;
the list only knows its head and its length. Because the list is sorted, the first block
that is large enough is also the smallest such block of the list.

Links are words of memory that anybody may have overwritten, so a walk along them has a
budget: an arena has fewer nodes than bytes, and a longer walk goes round in a circle.
-/

import SegregatedFit.Arena.Link

namespace SegregatedFit

/-- Where a list of free blocks begins, and how many blocks it has. -/
structure FreeList where
  head : Option Nat
  length : Nat
deriving DecidableEq

namespace FreeList

variable {σ : Type} [Source σ]

/-- The list without nodes. -/
def empty : FreeList where
  head := none
  length := 0

/-! ### Walking along the links -/

/-- The place of a block of `size` bytes: the last node that is smaller, if any, and the
node after it. -/
def seek (arena : Arena σ) (size : Nat) :
    (budget : Nat) → (previous current : Option Nat) → Except Fault (Option Nat × Option Nat)
  | _, previous, none => .ok (previous, none)
  | 0, _, some _ => .error .endless
  | budget + 1, previous, some node => do
    if size ≤ (← arena.header node).size then
      return (previous, some node)
    else
      seek arena size budget (some node) (← arena.nextLink node)

/-- The first node of at least `size` bytes. -/
def firstFit (arena : Arena σ) (size : Nat) :
    (budget : Nat) → (current : Option Nat) → Except Fault (Option Nat)
  | _, none => .ok none
  | 0, some _ => .error .endless
  | budget + 1, some node => do
    let next ← arena.nextLink node
    if size ≤ (← arena.header node).size then
      return some node
    else
      firstFit arena size budget next

/-- The nodes from one node on. -/
def nodesFrom (arena : Arena σ) :
    (budget : Nat) → (current : Option Nat) → Except Fault (List Nat)
  | _, none => .ok []
  | 0, some _ => .error .endless
  | budget + 1, some node => do
    return node :: (← nodesFrom arena budget (← arena.nextLink node))

/-- The nodes of a list in order. -/
def nodes (list : FreeList) (arena : Arena σ) : Except Fault (List Nat) :=
  nodesFrom arena arena.size list.head

/-- The smallest block of a list that has at least `size` bytes. -/
def find (list : FreeList) (arena : Arena σ) (size : Nat) : Except Fault (Option Nat) :=
  firstFit arena size arena.size list.head

/-! ### Changing the list -/

/-- Puts a block in front of the first node that is not smaller. -/
def insert (list : FreeList) (block : Nat) : Action (Arena σ) FreeList := do
  let tag ← Action.inspect (Arena.header · block)
  let (previous, next) ← Action.inspect fun arena =>
    seek arena tag.size arena.size none list.head
  Arena.setPreviousLink block previous
  Arena.setNextLink block next
  Arena.setNextLinkOf previous (some block)
  Arena.setPreviousLinkOf next (some block)
  return {
    head := if previous.isNone then some block else list.head
    length := ← Word.add list.length 1 }

/-- Takes a block of the list out of it. -/
def remove (list : FreeList) (block : Nat) : Action (Arena σ) FreeList := do
  let previous ← Action.inspect (Arena.previousLink · block)
  let next ← Action.inspect (Arena.nextLink · block)
  Arena.setNextLinkOf previous next
  Arena.setPreviousLinkOf next previous
  return {
    head := if previous.isNone then next else list.head
    length := ← Word.sub list.length 1 }

end FreeList

end SegregatedFit
