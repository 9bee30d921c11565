/-
This file names the ways in which a heap can be damaged, as an audit reports them.
Offsets are the payload offsets of the blocks at fault.
-/

namespace SegregatedFit

/-- The first inconsistency that an audit has met. -/
inductive Corruption where
  | prologue
  | epilogue (expected found : Nat)
  | outOfBounds (offset : Nat)
  | misaligned (offset : Nat)
  | invalidSize (offset size : Nat)
  | footerMismatch (offset header footer : Nat)
  | uncoalesced (offset next : Nat)
  | prevAllocatedBit (offset : Nat)
  | danglingLink (offset link : Nat)
  | asymmetricLink (offset : Nat)
  | wrongBucket (offset bucket expected : Nat)
  | unsorted (bucket offset : Nat)
  | indexMismatch (walked indexed : Nat)
deriving DecidableEq

namespace Corruption

/-- Tags are shown in base sixteen, since their low digit holds the flags. -/
def hexadecimal (word : Nat) : String :=
  "0x" ++ String.ofList (Nat.toDigits 16 word)

/-- The sentence that tells a reader what is wrong. -/
def message : Corruption → String
  | prologue => "prologue has been overwritten"
  | epilogue expected found =>
    s!"epilogue expected at {expected}, found tag {hexadecimal found}"
  | outOfBounds offset => s!"block at {offset} runs past the end of the arena"
  | misaligned offset => s!"block at {offset} is not aligned"
  | invalidSize offset size => s!"block at {offset} has invalid size {size}"
  | footerMismatch offset header footer =>
    s!"free block at {offset} has header {hexadecimal header} but footer {hexadecimal footer}"
  | uncoalesced offset next => s!"free blocks at {offset} and {next} are adjacent"
  | prevAllocatedBit offset => s!"block at {offset} has the wrong previous allocated bit"
  | danglingLink offset link =>
    s!"free list link at {offset} points to {link}, which is not a free block"
  | asymmetricLink offset => s!"free list links around {offset} are not symmetric"
  | wrongBucket offset bucket expected =>
    s!"block at {offset} is in bucket {bucket}, expected {expected}"
  | unsorted bucket offset => s!"bucket {bucket} is not sorted at {offset}"
  | indexMismatch walked indexed =>
    s!"{walked} free blocks in the arena but {indexed} in the free lists"

end Corruption

end SegregatedFit
