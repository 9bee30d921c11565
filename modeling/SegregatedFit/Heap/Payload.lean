/-
This file gives access to the payloads of allocated blocks. A payload is all of a block
but its header, which may be more than was asked for. The owner may write any bytes there,
and only there.
-/

import SegregatedFit.Heap.Allocate

namespace SegregatedFit

namespace Heap

variable {σ : Type} [Source σ] {last : Nat}

/-- The number of bytes in the payload of a block. -/
def usableSize (heap : Heap σ last) (pointer : Pointer) : Except Fault Nat := do
  payloadSize (← heap.arena.header pointer.offset).size

/-- The payload of a block. -/
def payload (heap : Heap σ last) (pointer : Pointer) : Except Fault (List UInt8) := do
  heap.arena.bytes pointer.offset (← heap.usableSize pointer)

/-- Writes bytes into the payload of a block, `start` bytes after its begin. The bytes
have to end within the payload, and the payload within the arena. -/
def writePayload (pointer : Pointer) (start : Nat) (values : List UInt8) :
    Action (Heap σ last) Unit := do
  let usable ← Action.inspect (usableSize · pointer)
  let arenaSize ← Action.look size
  if pointer.offset + usable ≤ arenaSize ∧ start + values.length ≤ usable then
    onArena (Arena.setBytes (pointer.offset + start) values)
  else
    throw (.outOfBounds (pointer.offset + start) values.length)

/-- Writes every byte of the payload of a block, each by its place in the payload. -/
def fillPayload (pointer : Pointer) (value : Nat → UInt8) : Action (Heap σ last) Unit := do
  let payload ← Action.inspect (payload · pointer)
  writePayload pointer 0 (payload.mapIdx fun index _ => value index)

/-- Allocates a block with room for `request` bytes and fills its payload with zeros. -/
def allocateZeroed? (request : Nat) : Action (Heap σ last) (Option Pointer) := do
  match ← allocate? request with
  | none => return none
  | some pointer =>
    fillPayload pointer fun _ => 0
    return some pointer

end Heap

end SegregatedFit
