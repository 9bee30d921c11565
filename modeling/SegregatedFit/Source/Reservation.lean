/-
This file defines the reservation, a source that sets a whole range of addresses aside
when it is made and then moves its break inside of that range. Only the bytes that were
written take up memory; all others are zero.
-/

import Std.Data.TreeMap
import SegregatedFit.Source
import SegregatedFit.Source.Host

namespace SegregatedFit

/-- Ranges of addresses are reserved in whole pages of this many bytes. -/
abbrev pageSize : Nat := 4096

/-- A range of addresses, used up to its break. -/
structure Reservation where
  length : Nat
  used : Nat
  written : Std.TreeMap Nat UInt8
  bounded : used ≤ length
  addressable : length < wordLimit
  untouched : ∀ offset, used ≤ offset → written.getD offset 0 = 0

namespace Reservation

/-- Reserves the whole pages that hold `maximum` bytes, and at least one, if they can be counted
and the host sets them aside. -/
def reserveOn (host : Host) (maximum : Nat) : Except Refusal Reservation :=
  let length := max ((maximum + (pageSize - 1)) / pageSize) 1 * pageSize
  if addressable : length < wordLimit then
    if host.reservesRange length then
      .ok { length, used := 0, written := ∅, bounded := Nat.zero_le _, addressable,
            untouched := by simp }
    else
      .error (.outOfMemory length 0)
  else
    .error (.outOfMemory maximum 0)

/-- Reserves the whole pages that hold `maximum` bytes. -/
def reserve (maximum : Nat) : Except Refusal Reservation :=
  reserveOn .common maximum

/-- The reservation with another byte at an offset below the break. -/
def setByte : Reservation → Nat → UInt8 → Reservation
  | ⟨length, used, written, bounded, addressable, untouched⟩, offset, value =>
    if inside : offset < used then
      ⟨length, used, written.insert offset value, bounded, addressable, fun other beyond => by
        rw [Std.TreeMap.getD_insert, if_neg (by simp; omega)]
        exact untouched other beyond⟩
    else
      ⟨length, used, written, bounded, addressable, untouched⟩

theorem setByte_fields (reservation : Reservation) (offset : Nat) (value : UInt8) :
    (setByte reservation offset value).used = reservation.used ∧
      (setByte reservation offset value).length = reservation.length := by
  obtain ⟨length, used, written, bounded, addressable, untouched⟩ := reservation
  simp only [setByte]
  split <;> exact ⟨rfl, rfl⟩

theorem getD_written_setByte (reservation : Reservation) (offset other : Nat)
    (value : UInt8) :
    (setByte reservation offset value).written.getD other 0 =
      if other = offset ∧ offset < reservation.used then value
      else reservation.written.getD other 0 := by
  obtain ⟨length, used, written, bounded, addressable, untouched⟩ := reservation
  simp only [setByte]
  split
  · rename_i inside
    by_cases here : other = offset
    · subst here
      simp [inside]
    · rw [Std.TreeMap.getD_insert, if_neg (by simp; omega), if_neg (by omega)]
  · rename_i inside
    rw [if_neg (by omega)]

instance : Source Reservation where
  size reservation := reservation.used
  capacity reservation := reservation.length
  allows reservation size count := size + count ≤ reservation.length
  byte reservation offset := reservation.written.getD offset 0
  setByte := setByte
  advance := fun ⟨length, used, written, _, addressable, untouched⟩ count room =>
    ⟨length, used + count, written, of_decide_eq_true room, addressable,
      fun offset beyond => untouched offset (by omega)⟩
  size_le_capacity reservation := reservation.bounded
  size_lt reservation := Nat.lt_of_le_of_lt reservation.bounded reservation.addressable
  byte_of_size_le reservation offset beyond := reservation.untouched offset beyond
  byte_setByte := getD_written_setByte
  size_setByte reservation offset value := (setByte_fields reservation offset value).1
  capacity_setByte reservation offset value := (setByte_fields reservation offset value).2
  allows_setByte reservation offset value := by
    rw [(setByte_fields reservation offset value).2]
  byte_advance _ _ _ _ := rfl
  size_advance _ _ _ := rfl
  capacity_advance _ _ _ := rfl
  allows_advance _ _ _ := rfl

/-- The length of a reservation decides, since no break inside of it overflows. -/
theorem allows_eq_true_iff {reservation : Reservation} {size count : Nat} :
    Source.allows reservation size count = true ↔
      size + count < wordLimit ∧ size + count ≤ reservation.length := by
  have addressable := reservation.addressable
  exact decide_eq_true_iff.trans ⟨fun room => ⟨by omega, room⟩, And.right⟩

end Reservation

end SegregatedFit
