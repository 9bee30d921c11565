/-
This file compares what a client remembers with what is owned in a chart. The leases of a
client name exactly the owned cells, and each of them has the size that its request needs. An
operation takes at most one cell from its owner and gives at most one to a new owner; the
leases follow when the client returns the one pointer and is granted the other.
-/

import SegregatedFit.Proofs.Client
import SegregatedFit.Proofs.Heap.Ownership

namespace SegregatedFit

theorem Pointer.eq_of_offset_eq {first second : Pointer} (same : first.offset = second.offset) :
    first = second := by
  obtain ⟨offset, _⟩ := first
  obtain ⟨other, _⟩ := second
  obtain rfl : offset = other := same
  rfl

theorem Pointer.eq_of_map_offset_eq {first second : Option Pointer}
    (same : first.map offset = second.map offset) : first = second :=
  Option.map_injective (fun _ _ => eq_of_offset_eq) same

namespace Chart

/-- Whether some leases name the owned cells of a chart. -/
structure Serves (chart : Chart) (leases : List Lease) : Prop where
  distinct : (leases.map Lease.pointer).Nodup
  suited : ∀ lease ∈ leases, ∃ cell, chart.Owns cell ∧ cell.offset = lease.pointer.offset ∧
    cell.Suits lease.request
  complete : ∀ cell, chart.Owns cell → ∃ lease ∈ leases, lease.pointer.offset = cell.offset

/-- Whether a chart becomes another one when one cell, if any, loses its owner and another one
of the size that `request` bytes need, if any, gets one. -/
structure Exchanges (chart after : Chart) (request : Nat) (lost won : Option Cell) : Prop where
  owned : ∀ other, after.Owns other ↔ won = some other ∨ chart.Owns other ∧ lost ≠ some other
  fresh : ∀ other, chart.Owns other → lost ≠ some other → won ≠ some other
  held : ∀ cell, lost = some cell → chart.Owns cell
  suits : ∀ target, won = some target → target.Suits request

variable {σ : Type} [Source σ] {last : Nat} {chart after : Chart} {before later : Heap σ last}
variable {leases : List Lease} {lost won : Option Cell} {cell : Cell}

/-- The cell of every lease has room for what was asked for. -/
theorem Serves.backed (serves : chart.Serves leases) : ∀ lease ∈ leases, ∃ cell,
    chart.Owns cell ∧ cell.offset = lease.pointer.offset ∧ lease.request + 8 ≤ cell.size := by
  intro lease member
  obtain ⟨cell, owns, named, suits⟩ := serves.suited lease member
  exact ⟨cell, owns, named, suits.enough⟩

theorem Exchanges.enough {request : Nat} {target : Cell}
    (exchanges : chart.Exchanges after request lost won) (wins : won = some target) :
    request + 8 ≤ target.size :=
  (exchanges.suits target wins).enough

/-- Where no cell changes its owner, nothing is exchanged. -/
theorem Exchanges.refl (chart : Chart) (request : Nat) :
    chart.Exchanges chart request none none where
  owned other := by simp
  fresh other owns kept := kept
  held cell found := by cases found
  suits target found := by cases found

/-- The cell of a lease that is not returned is not lost. -/
theorem lost_ne {returned : Option Pointer} {lease : Lease}
    (lostEq : lost.map Cell.offset = returned.map Pointer.offset)
    (kept : some lease.pointer ≠ returned) (named : cell.offset = lease.pointer.offset) :
    lost ≠ some cell := by
  rintro rfl
  cases returned with
  | none => cases lostEq
  | some pointer =>
    have same : cell.offset = pointer.offset := Option.some.inj lostEq
    exact kept (congrArg some (Pointer.eq_of_offset_eq (named.symm.trans same)))

/-- A lease after a call is the one that was granted or one that was not returned. -/
theorem mem_settle {call : Call} {reply : Reply} {lease : Lease} :
    lease ∈ call.settle reply leases ↔
      (∃ pointer, reply.granted? = some pointer ∧ ⟨pointer, call.request⟩ = lease) ∨
        lease ∈ leases ∧ some lease.pointer ≠ call.returned? reply := by
  unfold Call.settle
  simp [Option.mem_toList, Option.map_eq_some_iff]

/-- The leases keep naming the owned cells when the client settles an exchange. -/
theorem Serves.settle (serves : chart.Serves leases) (described : after.Describes later)
    {call : Call} {reply : Reply} (exchanges : chart.Exchanges after call.request lost won)
    (lostEq : lost.map Cell.offset = (call.returned? reply).map Pointer.offset)
    (wonEq : won.map Cell.offset = reply.granted?.map Pointer.offset)
    (describes : chart.Describes before) : after.Serves (call.settle reply leases) where
  distinct := by
    unfold Call.settle
    rw [List.map_append, List.nodup_append]
    refine ⟨?_, ?_, ?_⟩
    · cases reply.granted? <;> simp
    · exact serves.distinct.sublist (List.filter_sublist.map _)
    · intro pointer granted other kept same
      obtain ⟨lease, found, rfl⟩ := List.mem_map.mp kept
      obtain ⟨member, notReturned⟩ := List.mem_filter.mp found
      have notReturned : some lease.pointer ≠ call.returned? reply := by simpa using notReturned
      obtain ⟨cell, owns, named, _⟩ := serves.backed lease member
      have alive := lost_ne lostEq notReturned named
      obtain ⟨answer, grantedEq, rfl⟩ :
          ∃ answer, reply.granted? = some answer ∧ answer = pointer := by
        cases found : reply.granted? with
        | none =>
          rw [found] at granted
          cases granted
        | some answer =>
          rw [found] at granted
          exact ⟨answer, rfl, (List.mem_singleton.mp granted).symm⟩
      rw [grantedEq] at wonEq
      obtain ⟨target, wins, place⟩ := Option.map_eq_some_iff.mp wonEq
      have cellOwns := (exchanges.owned cell).mpr (Or.inr ⟨owns, alive⟩)
      have targetOwns := (exchanges.owned target).mpr (Or.inl wins)
      have equal := described.eq_of_offset_eq targetOwns cellOwns
        ((named.trans (congrArg _ same.symm)).trans place.symm)
      exact exchanges.fresh cell owns alive (equal ▸ wins)
  suited lease member := by
    rcases mem_settle.mp member with ⟨pointer, granted, rfl⟩ | ⟨old, kept⟩
    · rw [granted] at wonEq
      obtain ⟨target, wins, place⟩ := Option.map_eq_some_iff.mp wonEq
      exact ⟨target, (exchanges.owned target).mpr (Or.inl wins), place,
        exchanges.suits target wins⟩
    · obtain ⟨cell, owns, named, suits⟩ := serves.suited lease old
      exact ⟨cell, (exchanges.owned cell).mpr (Or.inr ⟨owns, lost_ne lostEq kept named⟩), named,
        suits⟩
  complete cell owns := by
    rcases (exchanges.owned cell).mp owns with rfl | ⟨old, alive⟩
    · obtain ⟨pointer, granted, place⟩ := Option.map_eq_some_iff.mp wonEq.symm
      exact ⟨⟨pointer, call.request⟩, mem_settle.mpr (Or.inl ⟨pointer, granted, rfl⟩), place⟩
    · obtain ⟨lease, member, named⟩ := serves.complete cell old
      refine ⟨lease, mem_settle.mpr (Or.inr ⟨member, fun returned => ?_⟩), named⟩
      rw [← returned] at lostEq
      obtain ⟨gone, loses, place⟩ := Option.map_eq_some_iff.mp lostEq
      have equal := describes.eq_of_offset_eq old (exchanges.held gone loses)
        (place.trans named)
      exact alive (equal ▸ loses)

end Chart

end SegregatedFit
