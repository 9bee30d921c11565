/-
This file defines the heap: an arena whose blocks tile it from end to end, and an index
of those blocks that are free. Every change of the heap is a change of the arena, or of
the arena and the index together; the settings stay.
-/

import SegregatedFit.Arena.Growth
import SegregatedFit.Config
import SegregatedFit.Index

namespace SegregatedFit

/-- A heap over a source, with the buckets from zero up to `last`. -/
structure Heap (σ : Type) (last : Nat) where
  arena : Arena σ
  index : Index last
  config : Config

namespace Heap

variable {σ : Type} {last : Nat} {Answer : Type}

/-- The number of the last bucket of a heap for which no number of buckets is chosen. -/
def defaultLast : Nat := 31

/-- Reads from the arena of a heap. -/
def inspectArena (read : Arena σ → Except Fault Answer) : Action (Heap σ last) Answer :=
  Action.inspect fun heap => read heap.arena

/-- Changes the arena of a heap. -/
def onArena (action : Action (Arena σ) Answer) : Action (Heap σ last) Answer :=
  fun ⟨arena, index, config⟩ =>
    match action arena with
    | .ok answer arena => .ok answer ⟨arena, index, config⟩
    | .error fault arena => .error fault ⟨arena, index, config⟩

/-- Changes the arena of a heap and its index. -/
def onIndex (action : Index last → Action (Arena σ) (Index last)) :
    Action (Heap σ last) Unit :=
  fun ⟨arena, index, config⟩ =>
    match action index arena with
    | .ok index arena => .ok () ⟨arena, index, config⟩
    | .error fault arena => .error fault ⟨arena, index, config⟩

theorem onArena_eq_ok_iff {action : Action (Arena σ) Answer} {before after : Heap σ last}
    {answer : Answer} :
    onArena action before = .ok answer after ↔
      ∃ arena, action before.arena = .ok answer arena ∧ { before with arena } = after := by
  obtain ⟨arena, index, config⟩ := before
  simp only [onArena]
  cases action arena <;> simp [and_assoc]

theorem onIndex_eq_ok_iff {action : Index last → Action (Arena σ) (Index last)}
    {before after : Heap σ last} {answer : Unit} :
    onIndex action before = .ok answer after ↔
      ∃ index arena, action before.index before.arena = .ok index arena ∧
        { before with arena, index } = after := by
  obtain ⟨arena, index, config⟩ := before
  simp only [onIndex]
  cases action index arena <;> simp [and_assoc]

variable [Source σ]

/-- The size of the arena, sentinels included. -/
def size (heap : Heap σ last) : Nat :=
  heap.arena.size

/-- Adds a free block to the index. -/
def indexBlock (block : Nat) : Action (Heap σ last) Unit :=
  onIndex (Index.insert · block)

/-- Takes a free block out of the index. -/
def unindexBlock (block : Nat) : Action (Heap σ last) Unit :=
  onIndex (Index.remove · block)

end Heap

end SegregatedFit
