/-
This file sorts block sizes into size classes. The first class holds the blocks of least
size; each further class doubles the bound of the one before:

    bucket 0      bucket 1            bucket 2             …   bucket last
    up to 32      33 to 64            65 to 128                all that is larger

The number of buckets is chosen per index; `last` is the number of the last one, so there
is always at least one bucket.
-/

import SegregatedFit.BlockSize

namespace SegregatedFit

/-- The exponent of the least power of two that is not below a value. -/
def ceilLog2 (value : Nat) : Nat :=
  if value ≤ 1 then 0 else Nat.log2 (value - 1) + 1

/-- The bucket where blocks of `size` bytes belong. -/
def bucketFor (last size : Nat) : Nat :=
  min (ceilLog2 size - ceilLog2 minimumBlock) last

theorem bucketFor_le (last size : Nat) : bucketFor last size ≤ last :=
  Nat.min_le_right _ _

theorem ceilLog2_le_iff {value exponent : Nat} :
    ceilLog2 value ≤ exponent ↔ value ≤ 1 <<< exponent := by
  have positive := Nat.two_pow_pos exponent
  rw [Nat.one_shiftLeft]
  unfold ceilLog2
  split
  · omega
  · have nonzero : value - 1 ≠ 0 := by omega
    rw [Nat.succ_le_iff, Nat.log2_lt nonzero]
    omega

theorem ceilLog2_mono {small large : Nat} (ordered : small ≤ large) :
    ceilLog2 small ≤ ceilLog2 large :=
  ceilLog2_le_iff.mpr (Nat.le_trans ordered (ceilLog2_le_iff.mp (Nat.le_refl _)))

/-- Larger blocks are never in an earlier bucket. -/
theorem bucketFor_mono {last small large : Nat} (ordered : small ≤ large) :
    bucketFor last small ≤ bucketFor last large := by
  have logarithms := ceilLog2_mono ordered
  unfold bucketFor
  omega

end SegregatedFit
