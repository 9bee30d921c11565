/-
This file proves what the two computations on sizes mean. The block of a request is the least
number that may be the size of a block and has room for header and payload, in unbounded
arithmetic; there is no block exactly when that number is no word. The buckets cut the sizes at
the powers of two, so every bucket holds an interval of sizes, and the intervals lie in the order
of the buckets.
-/

import Mathlib.Algebra.Group.Nat.Defs
import Mathlib.Order.Bounds.Basic
import SegregatedFit.SizeClass

namespace SegregatedFit

/-! ### The block of a request -/

/-- The numbers that are large enough for header and payload of a request and, apart from the
limit of words, may be the size of a block. -/
def roomySizes (request : Nat) : Set Nat :=
  {size | size % 16 = 0 ∧ max (request + 8) 32 ≤ size}

variable {request larger size rounded : Nat}

/-- The least roomy size is less than one unit above what is needed. -/
theorem isLeast_roomySizes_iff : IsLeast (roomySizes request) size ↔
    size % 16 = 0 ∧ max (request + 8) 32 ≤ size ∧ size < max (request + 8) 32 + 16 := by
  constructor
  · rintro ⟨⟨whole, enough⟩, least⟩
    refine ⟨whole, enough, Nat.lt_of_not_le fun above => ?_⟩
    -- One unit less would be enough as well.
    have fewer : size - 16 ∈ roomySizes request := ⟨by omega, by omega⟩
    have bound := least fewer
    omega
  · rintro ⟨whole, enough, near⟩
    refine ⟨⟨whole, enough⟩, ?_⟩
    rintro other ⟨even, roomy⟩
    omega

theorem exists_isLeast_roomySizes (request : Nat) :
    ∃ size, IsLeast (roomySizes request) size :=
  ⟨(max (request + 8) 32 + 15) / 16 * 16, isLeast_roomySizes_iff.mpr (by omega)⟩

/-- The block of a request is the least roomy size, as long as that is a word. -/
theorem blockSize?_eq_some_iff_isLeast : blockSize? request = some size ↔
    0 < request ∧ IsLeast (roomySizes request) size ∧ size < wordLimit := by
  rw [blockSize?_eq_some_iff, isLeast_roomySizes_iff]
  constructor
  · rintro ⟨seeks, small, whole, large, holds, near⟩
    exact ⟨seeks, ⟨whole, by omega, by omega⟩, small⟩
  · rintro ⟨seeks, ⟨whole, enough, near⟩, small⟩
    exact ⟨seeks, small, whole, by omega, by omega, by omega⟩

/-- A request has no block when it is empty, or when its least roomy size is no word. -/
theorem blockSize?_eq_none_iff : blockSize? request = none ↔
    request = 0 ∨ ∃ size, IsLeast (roomySizes request) size ∧ wordLimit ≤ size := by
  rw [Option.eq_none_iff_forall_ne_some]
  constructor
  · intro refused
    rcases Nat.eq_zero_or_pos request with empty | seeks
    · exact Or.inl empty
    · obtain ⟨size, least⟩ := exists_isLeast_roomySizes request
      refine Or.inr ⟨size, least, Nat.le_of_not_lt fun small => refused size ?_⟩
      exact blockSize?_eq_some_iff_isLeast.mpr ⟨seeks, least, small⟩
  · intro refused size found
    obtain ⟨seeks, least, small⟩ := blockSize?_eq_some_iff_isLeast.mp found
    rcases refused with rfl | ⟨other, leastOther, beyond⟩
    · exact Nat.lt_irrefl 0 seeks
    · rw [leastOther.unique least] at beyond
      exact Nat.not_lt_of_le beyond small

/-- A smaller request has a block when the larger one has, and that block is not larger. -/
theorem exists_blockSize?_le (seeks : 0 < request) (ordered : request ≤ larger)
    (found : blockSize? larger = some rounded) :
    ∃ size, blockSize? request = some size ∧ size ≤ rounded := by
  obtain ⟨_, small, whole, large, holds, _⟩ := blockSize?_eq_some_iff.mp found
  exact (request_fits_iff seeks small whole large).mp (by omega)

/-- A block serves exactly the requests that are not empty and fit into its payload. -/
theorem exists_blockSize?_le_iff (whole : size % 16 = 0) (large : 32 ≤ size)
    (small : size < wordLimit) :
    (∃ needed, blockSize? request = some needed ∧ needed ≤ size) ↔
      1 ≤ request ∧ ∃ payload, payloadSize size = .ok payload ∧ request ≤ payload := by
  simp only [payloadSize_eq_ok_iff]
  constructor
  · rintro ⟨needed, found, fits⟩
    obtain ⟨seeks, _, _, _, holds, _⟩ := blockSize?_eq_some_iff.mp found
    exact ⟨seeks, size - 8, by omega, by omega⟩
  · rintro ⟨seeks, payload, rfl, fits⟩
    exact (request_fits_iff seeks small whole large).mp (by omega)

/-- A request is served by the least multiple of sixteen bytes that holds the header and the
payload and is not below the least block, and by no block at all when there is nothing to serve or
that number is no word. Smaller requests never need larger blocks; the payload of a block has room
for the request; and a block of any size serves exactly the requests that fit into its payload. -/
theorem requests_get_least_blocks (request : Nat) :
    (∀ size, blockSize? request = some size ↔
      0 < request ∧ IsLeast (roomySizes request) size ∧ size < wordLimit) ∧
    (blockSize? request = none ↔
      request = 0 ∨ ∃ size, IsLeast (roomySizes request) size ∧ wordLimit ≤ size) ∧
    (∀ larger rounded, 0 < request → request ≤ larger → blockSize? larger = some rounded →
      ∃ size, blockSize? request = some size ∧ size ≤ rounded) ∧
    (∀ size, blockSize? request = some size →
      ∃ payload, payloadSize size = .ok payload ∧ request ≤ payload) ∧
    ∀ size, size % 16 = 0 → 32 ≤ size → size < wordLimit →
      ((∃ needed, blockSize? request = some needed ∧ needed ≤ size) ↔
        1 ≤ request ∧ ∃ payload, payloadSize size = .ok payload ∧ request ≤ payload) := by
  refine ⟨fun size => blockSize?_eq_some_iff_isLeast, blockSize?_eq_none_iff,
    fun larger rounded => exists_blockSize?_le, fun size found => ?_,
    fun size => exists_blockSize?_le_iff⟩
  obtain ⟨_, small, whole, large, _⟩ := blockSize?_eq_some_iff.mp found
  exact ((exists_blockSize?_le_iff whole large small).mp ⟨size, found, Nat.le_refl size⟩).2

/-- The largest block of all offers 2⁶⁴ - 24 bytes. That request gets it, a request for one byte
more has no block, and a request for a single byte fits as well. -/
theorem requests_get_least_blocks_topmost :
    blockSize? (wordLimit - 24) = some (wordLimit - 16) ∧
      blockSize? (wordLimit - 23) = none ∧
      (∃ size, blockSize? 1 = some size ∧ size ≤ wordLimit - 16) ∧
      ∃ payload, payloadSize (wordLimit - 16) = .ok payload ∧ wordLimit - 24 ≤ payload := by
  obtain ⟨found, _, _, holds, _⟩ := requests_get_least_blocks (wordLimit - 24)
  obtain ⟨_, refused, _⟩ := requests_get_least_blocks (wordLimit - 23)
  obtain ⟨_, _, smaller, _, _⟩ := requests_get_least_blocks 1
  have topmost : blockSize? (wordLimit - 24) = some (wordLimit - 16) :=
    (found _).mpr ⟨by decide, isLeast_roomySizes_iff.mpr (by decide), by decide⟩
  have beyond : IsLeast (roomySizes (wordLimit - 23)) wordLimit :=
    isLeast_roomySizes_iff.mpr (by decide)
  exact ⟨topmost, refused.mpr (Or.inr ⟨_, beyond, Nat.le_refl _⟩),
    smaller _ _ (by decide) (by decide) topmost, holds _ topmost⟩

/-! ### The bucket of a size -/

variable {last bucket : Nat}

/-- A bucket and those in front of it hold the sizes up to a power of two. -/
theorem bucketFor_le_iff (inside : bucket < last) :
    bucketFor last size ≤ bucket ↔ size ≤ 2 ^ (bucket + 5) := by
  have logarithm : ceilLog2 size ≤ bucket + 5 ↔ size ≤ 2 ^ (bucket + 5) := by
    rw [ceilLog2_le_iff, Nat.one_shiftLeft]
  have least : ceilLog2 minimumBlock = 5 := by decide
  rw [← logarithm, bucketFor, least]
  omega

/-- A bucket and those behind it hold the sizes above a power of two. -/
theorem le_bucketFor_iff (inner : 0 < bucket) (inside : bucket ≤ last) :
    bucket ≤ bucketFor last size ↔ 2 ^ (bucket + 4) < size := by
  cases bucket with
  | zero => exact absurd inner (Nat.lt_irrefl 0)
  | succ previous =>
    have front : bucketFor last size ≤ previous ↔ size ≤ 2 ^ (previous + 5) :=
      bucketFor_le_iff (Nat.lt_of_succ_le inside)
    rw [Nat.succ_le_iff, ← Nat.not_le, front, Nat.not_le]

/-- The buckets cut the sizes into intervals. The first one ends at the least block, each inner one
begins above a power of two and ends at the next, and the last one has no end. The intervals lie in
the order of the buckets, and every size is in one of them. -/
theorem buckets_partition_sizes (last size : Nat) :
    bucketFor last size < last + 1 ∧
    (∀ bucket, 0 < bucket → bucket < last → (bucketFor last size = bucket ↔
      2 ^ (bucket + 4) < size ∧ size ≤ 2 ^ (bucket + 5))) ∧
    (0 < last → (bucketFor last size = 0 ↔ size ≤ minimumBlock)) ∧
    (0 < last → (bucketFor last size = last ↔ 2 ^ (last + 4) < size)) ∧
    ∀ other, (size ≤ other → bucketFor last size ≤ bucketFor last other) ∧
      (bucketFor last size < bucketFor last other → size < other) := by
  have bound := bucketFor_le last size
  refine ⟨Nat.lt_succ_of_le bound, fun bucket inner inside => ?_, fun several => ?_,
    fun several => ?_, fun other => ⟨bucketFor_mono, fun ordered => ?_⟩⟩
  · rw [← le_bucketFor_iff inner (Nat.le_of_lt inside), ← bucketFor_le_iff inside,
      and_comm, Nat.le_antisymm_iff]
  · rw [← Nat.le_zero, bucketFor_le_iff several]
    rfl
  · rw [← le_bucketFor_iff several (Nat.le_refl last), Nat.le_antisymm_iff, and_iff_right bound]
  · exact Nat.lt_of_not_le fun reversed => Nat.not_lt_of_le (bucketFor_mono reversed) ordered

/-- With four buckets, sizes around a bound are in neighbouring buckets, and the largest word is in
the last one. With more buckets than there are powers of two the largest word is in none of the
buckets at the end. -/
theorem buckets_partition_sizes_bounds :
    bucketFor 3 32 = 0 ∧ bucketFor 3 64 = 1 ∧ bucketFor 3 65 = 2 ∧
      bucketFor 3 (wordLimit - 1) = 3 ∧ bucketFor 99 (wordLimit - 1) = 59 ∧
      bucketFor 3 64 ≤ bucketFor 3 65 := by
  obtain ⟨_, _, first, _⟩ := buckets_partition_sizes 3 32
  obtain ⟨_, inner, _, _, ordered⟩ := buckets_partition_sizes 3 64
  obtain ⟨_, behind, _⟩ := buckets_partition_sizes 3 65
  obtain ⟨_, _, _, topmost, _⟩ := buckets_partition_sizes 3 (wordLimit - 1)
  obtain ⟨_, many, _⟩ := buckets_partition_sizes 99 (wordLimit - 1)
  exact ⟨(first (by decide)).mpr (by decide), (inner 1 (by decide) (by decide)).mpr (by decide),
    (behind 2 (by decide) (by decide)).mpr (by decide), (topmost (by decide)).mpr (by decide),
    (many 59 (by decide) (by decide)).mpr (by decide), (ordered 65).1 (by decide)⟩

end SegregatedFit
