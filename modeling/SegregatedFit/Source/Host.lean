/-
This file defines the host, which has the memory that sources hand out. What it grants is not
for this library to know, so a host is nothing but its answers. One host with round limits
stands for those that are common, and lets sources run.
-/

import SegregatedFit.Word

namespace SegregatedFit

/-- The answers of a host to those who ask it for memory. -/
structure Host where
  /-- Whether an array of `size` bytes can get `count` more. -/
  growsArray : (size count : Nat) → Bool
  /-- Whether a range of `length` addresses can be set aside. -/
  reservesRange : (length : Nat) → Bool

namespace Host

/-- Whether a host grants every growth of an array up to `limit` bytes. -/
def GrowsArraysUpTo (host : Host) (limit : Nat) : Prop :=
  ∀ size count, size + count ≤ limit → host.growsArray size count

/-- A host with arrays of fewer than `2 ^ 60` bytes and addresses of 48 bits. -/
def common : Host where
  growsArray size count := size + count < 1 <<< 60
  reservesRange length := length < 1 <<< 48

theorem common_growsArraysUpTo {limit : Nat} (small : limit < 1 <<< 60) :
    common.GrowsArraysUpTo limit :=
  fun _ _ below => decide_eq_true (Nat.lt_of_le_of_lt below small)

end Host

end SegregatedFit
