/-
This file computes sizes of blocks. A block spends one word on its header; a free block
also needs room for two links and a footer, which fixes the least size of any block.
The main statement: `blockSize? request` is the least block size whose payload holds
the request.
-/

import SegregatedFit.Alignment

namespace SegregatedFit

/-- The header is one word, and the only overhead of an allocated block. -/
@[simp] abbrev headerSize : Nat := wordSize

/-- Header, two links and footer: no block is smaller. -/
@[simp] abbrev minimumBlock : Nat := 4 * wordSize

/-- The prologue is an allocated block of a header and a footer, without a payload. -/
@[simp] abbrev prologueSize : Nat := 2 * wordSize

/-- The bytes of a padding word, the prologue and the header of the epilogue. -/
@[simp] abbrev sentinelsSize : Nat := 4 * wordSize

/-- The payload offset of the first block after the sentinels. -/
@[simp] abbrev firstBlock : Nat := sentinelsSize

/-- The size of the block that serves a request: header and payload, rounded up to the
alignment, and never below the least size. There is none for an empty request or when
the size is no word. -/
def blockSize? (request : Nat) : Option Nat :=
  if request = 0 then
    none
  else if request + headerSize < wordLimit then
    (alignUp? (request + headerSize)).map (max · minimumBlock)
  else
    none

/-- The bytes that a block of `size` bytes offers to its owner. -/
def payloadSize (size : Nat) : Except Fault Nat :=
  Word.sub size headerSize

/-- The block of a request is the least aligned size that holds header and payload. -/
theorem blockSize?_eq_some_iff {request size : Nat} :
    blockSize? request = some size ↔
      0 < request ∧ size < wordLimit ∧ size % 16 = 0 ∧ 32 ≤ size ∧ request + 8 ≤ size ∧
        (size = 32 ∨ size < request + 24) := by
  unfold blockSize?
  split
  · simp
    omega
  · split
    · simp only [Option.map_eq_some_iff, alignUp?_eq_some_iff]
      simp only [headerSize, minimumBlock, wordSize, wordLimit] at *
      constructor
      · rintro ⟨rounded, rounding, rfl⟩
        omega
      · intro least
        by_cases small : request + 8 ≤ 16
        · exact ⟨16, by omega, by omega⟩
        · by_cases medium : request + 8 ≤ 32
          · exact ⟨32, by omega, by omega⟩
          · exact ⟨size, by omega, by omega⟩
    · simp only [reduceCtorEq, false_iff, headerSize, wordSize, wordLimit] at *
      omega

/-- A block has room for a request exactly when it is not below the block size of the request. A
request without a block size is too large for every block. -/
theorem request_fits_iff {request size : Nat} (seeks : 0 < request) (small : size < wordLimit)
    (whole : size % 16 = 0) (large : 32 ≤ size) :
    request + 8 ≤ size ↔ ∃ needed, blockSize? request = some needed ∧ needed ≤ size := by
  constructor
  · intro fits
    refine ⟨max 32 ((request + 23) / 16 * 16), blockSize?_eq_some_iff.mpr ?_, ?_⟩
    · omega
    · omega
  · rintro ⟨needed, found, fits⟩
    obtain ⟨_, _, _, _, holds, _⟩ := blockSize?_eq_some_iff.mp found
    omega

theorem payloadSize_eq_ok_iff {size payload : Nat} :
    payloadSize size = .ok payload ↔ size = payload + 8 := by
  simp only [payloadSize, Word.sub_eq_ok_iff, headerSize, wordSize]
  omega

end SegregatedFit
