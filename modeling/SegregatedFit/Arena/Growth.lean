/-
This file lets an arena begin and grow. A fresh arena holds its sentinels only:

    0        8        16       24       32
    | unused | 16 / 1 | 16 / 1 |  0 / 1 |

a padding word, the prologue with header and footer, and the header of the epilogue.
Growth moves the break forward. The header of the old epilogue becomes the header of one
free block, and a new epilogue ends where the arena ends now.
-/

import SegregatedFit.Arena.Block

namespace SegregatedFit

namespace Arena

variable {σ : Type}

/-- Counts a growth. -/
def countGrowth : Action (Arena σ) Unit := fun ⟨source, growths⟩ =>
  match Word.add growths 1 with
  | .ok counted => .ok () ⟨source, counted⟩
  | .error fault => .error fault ⟨source, growths⟩

variable [Source σ]

/-- Writes the sentinels into a source that has just handed out their bytes. -/
def withSentinels (source : σ) : σ :=
  let padded := Source.store source 0 0 wordSize
  let opened := Source.store padded wordSize Tag.prologue.word wordSize
  let closed := Source.store opened prologueSize Tag.prologue.word wordSize
  Source.store closed (prologueSize + wordSize) (Tag.epilogue.withPrevAllocated true).word
    wordSize

/-- Begins an arena in a source that has not handed out any bytes yet. -/
def init (source : σ) : Except Refusal (Arena σ) :=
  if Source.size source = 0 then
    match Source.request source sentinelsSize with
    | (.ok _, source) => .ok { source := withSentinels source, growths := 0 }
    | (.error refusal, _) => .error refusal
  else
    .error .invalidArgument

/-- Moves the break forward and answers where it was. -/
def moveBreak (count : Nat) : Action (Arena σ) (Except Refusal Nat) :=
  fun ⟨source, growths⟩ =>
    let (outcome, source) := Source.request source count
    .ok outcome ⟨source, growths⟩

/-- Turns the bytes from the old break on into one free block of `size` bytes, followed by
a new epilogue. -/
def formatGrowth (block size : Nat) : Action (Arena σ) Unit := do
  let old ← Action.inspect (header · block)
  setFreeTags block size old.prevAllocated
  setHeader (← Word.add block size) Tag.epilogue
  countGrowth

/-- Grows the arena by one free block of `size` bytes and answers its payload offset. The
block is not indexed and not merged with the block in front. -/
def grow (size : Nat) : Action (Arena σ) (Except Refusal Nat) := do
  match ← moveBreak size with
  | .ok block =>
    formatGrowth block size
    return .ok block
  | .error refusal => return .error refusal

end Arena

end SegregatedFit
