/-
This file defines what clients do with a heap. A client makes calls and remembers the leases
that it got: pointers that were answered and that it neither gave back nor had replaced. The
calls that name a pointer are only permitted while it is leased. A history is a sequence of
permitted calls with their replies, from the begin of a heap on.
-/

import SegregatedFit.Heap.Payload
import SegregatedFit.Heap.Resize

namespace SegregatedFit

/-- A pointer that a client holds, and the number of bytes that it asked for last. -/
structure Lease where
  pointer : Pointer
  request : Nat
deriving DecidableEq

/-- The calls that a client may make on a heap. -/
inductive Call where
  | allocate (request : Nat)
  | allocate? (request : Nat)
  | allocateZeroed? (request : Nat)
  | resize? (pointer : Option Pointer) (request : Nat)
  | release (pointer : Pointer)
  | write (pointer : Pointer) (start : Nat) (values : List UInt8)
deriving DecidableEq

/-- The reply to a call: a pointer if the call hands one out, and a refusal only where the
call tells one. -/
abbrev Reply : Type :=
  Except Refusal (Option Pointer)

/-- The pointer that a reply hands out. -/
def Reply.granted? (reply : Reply) : Option Pointer :=
  reply.toOption.join

namespace Call

/-- The number of bytes that a call asks for. -/
def request : Call → Nat
  | allocate request => request
  | allocate? request => request
  | allocateZeroed? request => request
  | resize? _ request => request
  | release _ => 0
  | write _ _ _ => 0

/-- The pointer that a call names. -/
def argument? : Call → Option Pointer
  | resize? pointer _ => pointer
  | release pointer => some pointer
  | write pointer _ _ => some pointer
  | _ => none

/-- The pointer that a client gives back with a call. A resize gives its pointer back when it
answers another one, or when it asks for no bytes. -/
def returned? (call : Call) (reply : Reply) : Option Pointer :=
  match call with
  | resize? pointer request => if request = 0 ∨ reply.granted?.isSome then pointer else none
  | release pointer => some pointer
  | _ => none

/-- The leases of a client after a call. -/
def settle (call : Call) (reply : Reply) (leases : List Lease) : List Lease :=
  (reply.granted?.map fun pointer => ⟨pointer, call.request⟩).toList ++
    leases.filter (some ·.pointer ≠ call.returned? reply)

variable {σ : Type} [Source σ] {last : Nat}

/-- Makes a call. -/
def perform : Call → Action (Heap σ last) Reply
  | allocate request => do return (← Heap.allocate request).map some
  | allocate? request => do return .ok (← Heap.allocate? request)
  | allocateZeroed? request => do return .ok (← Heap.allocateZeroed? request)
  | resize? pointer request => do return .ok (← Heap.resize? pointer request)
  | release pointer => do
    Heap.release pointer
    return .ok none
  | write pointer start values => do
    Heap.writePayload pointer start values
    return .ok none

/-- Whether the bytes that a call writes lie within the payload that it names. -/
def Fits (heap : Heap σ last) : Call → Prop
  | write pointer start values =>
    match heap.usableSize pointer with
    | .ok usable => start + values.length ≤ usable
    | .error _ => False
  | _ => True

instance (heap : Heap σ last) : (call : Call) → Decidable (call.Fits heap)
  | allocate _ => isTrue trivial
  | allocate? _ => isTrue trivial
  | allocateZeroed? _ => isTrue trivial
  | resize? _ _ => isTrue trivial
  | release _ => isTrue trivial
  | write pointer start values =>
    match found : heap.usableSize pointer with
    | .ok usable => decidable_of_iff (start + values.length ≤ usable) (by rw [Fits, found])
    | .error _ => isFalse (by rw [Fits, found]; exact id)

/-- Whether a client may make a call: the pointer that it names is leased, and bytes are only
written within a payload. -/
def Permitted (call : Call) (heap : Heap σ last) (leases : List Lease) : Prop :=
  (∀ pointer ∈ call.argument?, pointer ∈ leases.map Lease.pointer) ∧ call.Fits heap

instance (call : Call) (heap : Heap σ last) (leases : List Lease) :
    Decidable (call.Permitted heap leases) :=
  inferInstanceAs (Decidable (_ ∧ _))

end Call

/-- What may have happened to a heap since its begin: the calls with their replies in their
order, the heap after them, and the leases that its client holds then. -/
inductive History {σ : Type} [Source σ] {last : Nat} (source : σ) (config : Config) :
    List (Call × Reply) → Heap σ last → List Lease → Prop
  | begin {heap : Heap σ last} (created : Heap.create source config = .ok (.ok heap)) :
    History source config [] heap []
  | step {past : List (Call × Reply)} {before after : Heap σ last} {leases : List Lease}
      {call : Call} {reply : Reply} (earlier : History source config past before leases)
      (permitted : call.Permitted before leases)
      (performed : call.perform before = .ok reply after) :
    History source config (past ++ [(call, reply)]) after (call.settle reply leases)

end SegregatedFit
