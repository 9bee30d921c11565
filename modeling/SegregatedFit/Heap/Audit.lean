/-
This file audits heaps. An audit trusts nothing: it walks through the arena and along the
free lists, and reports the first inconsistency that it meets. It verifies

* that the sentinels are intact,
* that blocks are aligned, have valid sizes and tile the arena,
* that free blocks have matching footers and no free neighbours,
* that each block knows whether the block in front is allocated, and
* that the free lists hold the free blocks, sorted and in the right buckets.
-/

import SegregatedFit.Corruption
import SegregatedFit.Heap

namespace SegregatedFit

/-- A check that reports the first inconsistency. Reads that an earlier test has made safe
are not tested again, and would be faults. -/
abbrev Audit : Type → Type :=
  ExceptT Corruption (Except Fault)

namespace Audit

/-- Reports an inconsistency unless a condition holds. -/
def require (condition : Bool) (corruption : Corruption) : Audit Unit :=
  if condition then pure () else throw corruption

variable {Value Answer : Type}

theorem pure_run_eq_ok_iff {value answer : Value} :
    (pure value : Audit Value).run = .ok (.ok answer) ↔ value = answer := by
  simp [pure, ExceptT.pure, ExceptT.mk, ExceptT.run, Except.pure]

/-- Two checks pass when the first passes and the second passes after it. -/
theorem bind_run_eq_ok_iff {first : Audit Value} {second : Value → Audit Answer}
    {answer : Answer} :
    (first >>= second).run = .ok (.ok answer) ↔
      ∃ value, first.run = .ok (.ok value) ∧ (second value).run = .ok (.ok answer) := by
  simp only [ExceptT.run_bind, Fault.bind_eq_ok_iff]
  constructor
  · rintro ⟨value | value, found, rest⟩
    · simp [pure, Except.pure] at rest
    · exact ⟨value, found, rest⟩
  · rintro ⟨value, found, rest⟩
    exact ⟨.ok value, found, rest⟩

/-- A requirement passes exactly when its condition holds. -/
theorem require_run_eq_ok_iff {condition : Bool} {corruption : Corruption} {answer : Unit} :
    (require condition corruption).run = .ok (.ok answer) ↔ condition = true := by
  cases condition <;>
    simp [require, pure, ExceptT.pure, ExceptT.mk, ExceptT.run, Except.pure, throw, throwThe,
      MonadExceptOf.throw]

variable {σ : Type} [Source σ] {last : Nat}

/-- The tag in the header of a block, which may lie anywhere. -/
def tagAt (arena : Arena σ) (block : Nat) : Audit Tag :=
  match arena.header? block with
  | some tag => pure tag
  | none => throw (.outOfBounds block)

/-! ### The blocks of the arena -/

/-- Whether the prologue has its header and its footer. -/
def checkPrologue (arena : Arena σ) : Audit Unit := do
  let header ← tagAt arena prologueSize
  let footerMatches := match arena.word? prologueSize with
    | some word => (Tag.ofWord word).sameBlock header
    | none => false
  require (header.size = prologueSize && header.allocated && footerMatches) .prologue

/-- Whether a free block has its footer, and an allocated block in front. -/
def checkFreeBlock (arena : Arena σ) (block : Nat) (tag : Tag) (prevAllocated : Bool) :
    Audit Unit := do
  let footer ← arena.footer block
  require (footer.sameBlock tag) (.footerMismatch block tag.word footer.word)
  unless prevAllocated do
    let offset ← Word.sub block (headerSize + wordSize)
    let previousSize := match arena.word? offset with
      | some word => (Tag.ofWord word).size
      | none => 0
    throw (.uncoalesced (block - previousSize) block)

/-- Checks one block before the epilogue. The answer is its tag, whose size takes the walk
forward. -/
def checkBlock (arena : Arena σ) (block : Nat) (prevAllocated : Bool) :
    Audit { tag : Tag // 0 < tag.size } := do
  let tag ← tagAt arena block
  require (isAligned block) (.misaligned block)
  if large : minimumBlock ≤ tag.size ∧ isAligned tag.size then
    require (block + tag.size ≤ arena.epilogue) (.outOfBounds block)
    require (tag.prevAllocated == prevAllocated) (.prevAllocatedBit block)
    unless tag.allocated do
      checkFreeBlock arena block tag prevAllocated
    return ⟨tag, Nat.lt_of_lt_of_le (by decide) large.1⟩
  else
    throw (.invalidSize block tag.size)

/-- Counts a block if it is free. -/
def countFree (tag : Tag) (free : Nat) : Except Fault Nat :=
  if tag.allocated then .ok free else Word.add free 1

/-- Checks the blocks from an offset on. The answer is the number of free blocks, counted
on from `free`, and whether the last block is allocated. -/
def checkBlocksFrom (arena : Arena σ) (block : Nat) (prevAllocated : Bool) (free : Nat) :
    Audit (Nat × Bool) :=
  if block < arena.epilogue then do
    let ⟨tag, _⟩ ← checkBlock arena block prevAllocated
    checkBlocksFrom arena (block + tag.size) tag.allocated (← countFree tag free)
  else
    pure (free, prevAllocated)
termination_by arena.epilogue - block

/-- Whether the epilogue is in its place and knows the block in front. -/
def checkEpilogue (arena : Arena σ) (prevAllocated : Bool) : Audit Unit := do
  let tag ← tagAt arena arena.epilogue
  require (tag.size = 0 && tag.allocated) (.epilogue arena.epilogue tag.word)
  require (tag.prevAllocated == prevAllocated) (.prevAllocatedBit arena.epilogue)

/-- Checks all blocks and answers how many of them are free. -/
def checkBlocks (arena : Arena σ) : Audit Nat := do
  checkPrologue arena
  let (free, prevAllocated) ← checkBlocksFrom arena firstBlock true 0
  checkEpilogue arena prevAllocated
  return free

/-! ### The free lists -/

/-- Checks one node of a list, which the node `previous` has led to. The answer is the size
of its block. -/
def checkNode (arena : Arena σ) (last bucket : Nat) (previous : Option Nat)
    (node lastSize : Nat) : Audit Nat := do
  let link := Link.word previous
  require (firstBlock ≤ node && node < arena.epilogue && isAligned node)
    (.danglingLink link node)
  let tag ← tagAt arena node
  require (!tag.allocated) (.danglingLink link node)
  match arena.word? node with
  | some stored => require (stored = link) (.asymmetricLink node)
  | none => throw (.outOfBounds node)
  let expected := bucketFor last tag.size
  require (expected = bucket) (.wrongBucket node bucket expected)
  require (lastSize ≤ tag.size) (.unsorted bucket node)
  return tag.size

/-- Checks the nodes of a list from `current` on. There are `limit` free blocks, so a walk
that has met more nodes than that, in all lists together, goes round in a circle. The
answer counts the nodes of this list and of all lists, on from the given numbers. -/
def checkNodesFrom (arena : Arena σ) (last limit bucket : Nat) (previous current : Option Nat)
    (lastSize length indexed : Nat) : Audit (Nat × Nat) :=
  match current with
  | none => pure (length, indexed)
  | some node => do
    let size ← checkNode arena last bucket previous node lastSize
    let ⟨indexed, _⟩ ← Word.next indexed
    let length ← Word.add length 1
    if limit < indexed then
      throw (.indexMismatch limit indexed)
    else
      match arena.word? (← Word.add node wordSize) with
      | some next =>
        checkNodesFrom arena last limit bucket (some node) (Link.ofWord next) size length indexed
      | none => throw (.outOfBounds node)
termination_by limit - indexed

/-- Checks one list. The answer counts the nodes of all lists, on from `indexed`. -/
def checkList (arena : Arena σ) (last limit bucket : Nat) (list : FreeList) (indexed : Nat) :
    Audit Nat := do
  let (length, indexed) ←
    checkNodesFrom arena last limit bucket none list.head 0 0 indexed
  require (length = list.length) (.indexMismatch length list.length)
  return indexed

/-- Checks all lists of an index and answers how many nodes they have. -/
def checkLists (arena : Arena σ) (index : Index last) (limit : Nat) : Audit Nat :=
  index.lists.toList.zipIdx.foldlM
    (fun indexed (list, bucket) => checkList arena last limit bucket list indexed) 0

end Audit

namespace Heap

variable {σ : Type} [Source σ] {last : Nat}

/-- Verifies all that the allocator relies on. -/
def audit (heap : Heap σ last) : Audit Unit := do
  let walked ← Audit.checkBlocks heap.arena
  let recorded ← heap.index.length
  Audit.require (walked = recorded) (.indexMismatch walked recorded)
  let indexed ← Audit.checkLists heap.arena heap.index walked
  Audit.require (walked = indexed) (.indexMismatch walked indexed)

end Heap

end SegregatedFit
