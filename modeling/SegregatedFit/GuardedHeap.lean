/-
This file puts a heap behind a lock. Every operation holds the lock from its begin to its
end, so operations of several clients happen one after the other. An operation that stops
with a fault may leave the heap in the middle of an update; it poisons the lock, and from
then on no operation touches the heap again. An operation that does not end keeps the lock,
and whoever wants it afterwards waits for it forever.
-/

import SegregatedFit.Heap.Payload
import SegregatedFit.Heap.Resize

namespace SegregatedFit

/-- What has become of a lock. -/
inductive Lock where
  /-- Whoever wants it gets it. -/
  | free
  /-- It was given back by a fault, and whoever wants it is turned away. -/
  | poisoned
  /-- It is never given back, and whoever wants it waits forever. -/
  | kept
deriving DecidableEq

/-- What becomes of a lock by a fault of the action that holds it. Only an action without an end
does not give it back. -/
def Lock.ofFault : Fault → Lock
  | .endless => .kept
  | _ => .poisoned

theorem Lock.ofFault_endless : ofFault .endless = .kept := rfl

theorem Lock.ofFault_of_ne_endless {fault : Fault} (ends : fault ≠ .endless) :
    ofFault fault = .poisoned := by
  unfold ofFault
  split
  · exact absurd rfl ends
  · rfl

/-- A heap behind a lock. -/
structure GuardedHeap (σ : Type) (last : Nat) where
  heap : Heap σ last
  lock : Lock := .free

namespace GuardedHeap

variable {σ : Type} {last : Nat} {Answer : Type}

/-- Puts a heap behind a lock. -/
def ofHeap (heap : Heap σ last) : GuardedHeap σ last where
  heap

/-- Runs an action on the heap while the lock is held. On a poisoned lock the action is
not run and there is no answer; for a lock that is kept the caller waits without an end. A
fault of the action reaches the caller, and decides what becomes of the lock. -/
def withLock (action : Action (Heap σ last) Answer) :
    Action (GuardedHeap σ last) (Option Answer) := fun ⟨heap, lock⟩ =>
  match lock with
  | .free =>
    match action heap with
    | .ok answer heap => .ok (some answer) ⟨heap, .free⟩
    | .error fault heap => .error fault ⟨heap, .ofFault fault⟩
  | .poisoned => .ok none ⟨heap, .poisoned⟩
  | .kept => .error .endless ⟨heap, .kept⟩

/-- On a poisoned lock nothing happens. -/
theorem withLock_of_poisoned (action : Action (Heap σ last) Answer) (heap : Heap σ last) :
    withLock action ⟨heap, .poisoned⟩ = .ok none ⟨heap, .poisoned⟩ := rfl

/-- For a lock that is kept everybody waits. -/
theorem withLock_of_kept (action : Action (Heap σ last) Answer) (heap : Heap σ last) :
    withLock action ⟨heap, .kept⟩ = .error .endless ⟨heap, .kept⟩ := rfl

/-- An action that has an answer leaves the lock as it was. -/
theorem withLock_of_eq_ok {action : Action (Heap σ last) Answer} {before after : Heap σ last}
    {answer : Answer} (answered : action before = .ok answer after) :
    withLock action (ofHeap before) = .ok (some answer) (ofHeap after) := by
  simp [withLock, ofHeap, answered]

/-- An action that stops with a fault takes the lock from all others. -/
theorem withLock_of_eq_error {action : Action (Heap σ last) Answer}
    {before after : Heap σ last} {fault : Fault} (stopped : action before = .error fault after) :
    withLock action (ofHeap before) = .error fault ⟨after, .ofFault fault⟩ := by
  simp [withLock, ofHeap, stopped]

/-- The heap behind the lock, if the lock is free. -/
def intoHeap? (guarded : GuardedHeap σ last) : Option (Heap σ last) :=
  if guarded.lock = .free then some guarded.heap else none

variable [Source σ]

/-- Allocates a block while the lock is held. -/
def allocate? (request : Nat) : Action (GuardedHeap σ last) (Option Pointer) := do
  return (← withLock (Heap.allocate? request)).join

/-- Allocates a block of zeros while the lock is held. -/
def allocateZeroed? (request : Nat) : Action (GuardedHeap σ last) (Option Pointer) := do
  return (← withLock (Heap.allocateZeroed? request)).join

/-- Resizes a block while the lock is held. -/
def resize? (pointer : Option Pointer) (request : Nat) :
    Action (GuardedHeap σ last) (Option Pointer) := do
  return (← withLock (Heap.resize? pointer request)).join

/-- Releases a block while the lock is held. -/
def release (pointer : Pointer) : Action (GuardedHeap σ last) Unit := do
  let _ ← withLock (Heap.release pointer)

end GuardedHeap

end SegregatedFit
