/-
This file defines the refusals of the allocator. There are two: the source has no more
memory to hand out, or the request makes no sense. A refused operation has changed
nothing, and the caller may go on.
-/

namespace SegregatedFit

/-- The reasons for which a request is turned down. -/
inductive Refusal where
  /-- The source was asked for `requested` more bytes and has `available` bytes left. -/
  | outOfMemory (requested available : Nat)
  /-- The request asks for no bytes at all, or brings a source that is already in use. -/
  | invalidArgument
deriving DecidableEq

/-- The sentence that tells a reader why a request was turned down. -/
def Refusal.message : Refusal → String
  | .outOfMemory requested available =>
    s!"out of memory: requested {requested} bytes, {available} bytes left in the source"
  | .invalidArgument => "invalid argument: zero sized allocation"

end SegregatedFit
