/-
This file defines the settings of a heap. None of them decides whether the heap works;
they decide how often the arena grows and how fragmented it gets.
-/

import SegregatedFit.BlockSize

namespace SegregatedFit

/-- The settings of a heap. -/
structure Config where
  /-- The least number of bytes by which the arena grows. -/
  chunkSize : Nat := 4096
  /-- The number of bytes that are asked for when the heap is built. -/
  initialSize : Nat := 4096
  /-- Blocks from this size on are cut from the high end of a free block, and smaller
  ones from its low end. -/
  splitThreshold : Nat := 100
deriving DecidableEq, Inhabited

namespace Config

/-- Chooses the least growth, and the first growth with it. -/
def withChunkSize (config : Config) (chunkSize : Nat) : Config :=
  { config with chunkSize, initialSize := chunkSize }

/-- Chooses the first growth alone. -/
def withInitialSize (config : Config) (initialSize : Nat) : Config :=
  { config with initialSize }

/-- Chooses the least size that is cut from the high end. -/
def withSplitThreshold (config : Config) (splitThreshold : Nat) : Config :=
  { config with splitThreshold }

/-- The settings with their sizes rounded up to sizes of blocks, if those are words. -/
def normalized? (config : Config) : Option Config := do
  let chunkSize ← alignUp? (max config.chunkSize minimumBlock)
  let initialSize ← alignUp? (max config.initialSize minimumBlock)
  return { config with chunkSize, initialSize }

/-- Both sizes are rounded up, from the least size of a block on. -/
theorem sizes_of_normalized? {config normalized : Config}
    (found : config.normalized? = some normalized) :
    alignUp? (max config.chunkSize minimumBlock) = some normalized.chunkSize ∧
      alignUp? (max config.initialSize minimumBlock) = some normalized.initialSize := by
  simp only [normalized?, Option.bind_eq_bind, Option.bind_eq_some_iff] at found
  obtain ⟨chunkSize, rounded, initialSize, roundedInitial, same⟩ := found
  cases same
  exact ⟨rounded, roundedInitial⟩

/-- The size of a chunk is the size of a block once it is rounded. -/
theorem chunkSize_of_normalized? {config normalized : Config}
    (found : config.normalized? = some normalized) :
    32 ≤ normalized.chunkSize ∧ normalized.chunkSize % 16 = 0 ∧
      normalized.chunkSize < wordLimit := by
  obtain ⟨small, whole, large, _⟩ := alignUp?_eq_some_iff.mp (sizes_of_normalized? found).1
  exact ⟨Nat.le_trans (Nat.le_max_right _ minimumBlock) large, whole, small⟩

/-- Growth is not rounded where a whole number of units is asked for. -/
theorem alignUp?_max_chunkSize {config normalized : Config}
    (found : config.normalized? = some normalized) {size : Nat} (whole : size % 16 = 0)
    (small : size < wordLimit) :
    alignUp? (max size normalized.chunkSize) = some (max size normalized.chunkSize) := by
  have chunk := chunkSize_of_normalized? found
  exact alignUp?_eq_some_iff.mpr (by omega)

end Config

end SegregatedFit
