/-
This file proves that the leases of a client and the allocated blocks of its heap are the same
thing at every moment: none is lost, none is handed out twice, and their payloads do not
overlap. A call changes no allocated block but the one that it names.
-/

import SegregatedFit.Proofs.Client.History
import SegregatedFit.Proofs.Heap.Shape

namespace SegregatedFit

/-- Whether some leases hold the allocated blocks among the blocks that a walk meets. -/
structure Heap.HeldBy {σ : Type} [Source σ] {last : Nat} (heap : Heap σ last)
    (blocks : List Block) (leases : List Lease) : Prop where
  walked : heap.arena.walk = .ok blocks
  named : ∀ offset, (∃ lease ∈ leases, lease.pointer.offset = offset) ↔
    ∃ block ∈ blocks, block.offset = offset ∧ block.tag.allocated = true
  distinct : (leases.map (·.pointer.offset)).Nodup
  aligned : ∀ lease ∈ leases, lease.pointer.offset % 16 = 0
  roomy : ∀ lease ∈ leases, ∃ usable, heap.usableSize lease.pointer = .ok usable ∧
    lease.request ≤ usable ∧ 32 ≤ lease.pointer.offset ∧
    lease.pointer.offset + usable ≤ heap.size - 8
  apart : ∀ one ∈ leases, ∀ other ∈ leases, one ≠ other → ∀ oneUsable otherUsable,
    heap.usableSize one.pointer = .ok oneUsable →
      heap.usableSize other.pointer = .ok otherUsable →
        one.pointer.offset + oneUsable ≤ other.pointer.offset ∨
          other.pointer.offset + otherUsable ≤ one.pointer.offset

namespace Chart

variable {σ : Type} [Source σ] {last : Nat} {chart : Chart} {heap : Heap σ last}
variable {leases : List Lease}

/-- Leases that name the owned cells hold the allocated blocks. -/
theorem Describes.heldBy (describes : chart.Describes heap) (serves : chart.Serves leases) :
    heap.HeldBy (Cell.blocks true chart.cells) leases where
  walked := describes.walk_eq_ok
  named offset := by
    constructor
    · rintro ⟨lease, member, rfl⟩
      obtain ⟨cell, owns, place, _⟩ := serves.backed lease member
      obtain ⟨flag, block⟩ := Cell.exists_mem_blocks true owns.1
      exact ⟨_, block, place, owns.2⟩
    · rintro ⟨block, member, rfl, allocated⟩
      obtain ⟨cell, found, flag, rfl⟩ := Cell.exists_of_mem_blocks member
      exact serves.complete cell ⟨found, allocated⟩
  distinct := by
    have offsets : ((leases.map Lease.pointer).map Pointer.offset).Nodup :=
      serves.distinct.map_on fun one _ other _ same => Pointer.eq_of_offset_eq same
    rw [List.map_map] at offsets
    exact offsets
  aligned lease member := by
    obtain ⟨cell, owns, place, _⟩ := serves.backed lease member
    rw [← place]
    exact (describes.tiles.aligned rfl).2 cell owns.1
  roomy lease member := by
    obtain ⟨cell, owns, place, room⟩ := serves.backed lease member
    obtain ⟨begins, ends, _, large⟩ := describes.tiles.bounds owns.1
    have size_eq : heap.size = chart.setting.size := describes.size_eq
    refine ⟨_, describes.usableSize_eq_ok owns.1 lease.pointer place.symm, by omega, by omega, ?_⟩
    unfold Cell.next at ends
    omega
  apart one oneMember other otherMember different oneUsable otherUsable oneEq otherEq := by
    obtain ⟨first, firstOwns, firstPlace, _⟩ := serves.backed one oneMember
    obtain ⟨second, secondOwns, secondPlace, _⟩ := serves.backed other otherMember
    rw [describes.usableSize_eq_ok firstOwns.1 one.pointer firstPlace.symm] at oneEq
    rw [describes.usableSize_eq_ok secondOwns.1 other.pointer secondPlace.symm] at otherEq
    cases oneEq
    cases otherEq
    have sides := (describes.apart_of_owns firstOwns secondOwns).resolve_left ?_
    · unfold Cell.next at sides
      omega
    · rintro rfl
      have same := Pointer.eq_of_offset_eq (firstPlace.symm.trans secondPlace)
      exact different (List.inj_on_of_nodup_map serves.distinct oneMember otherMember same)

end Chart

/-- At every moment of a history the leases hold exactly the allocated blocks. A permitted call
leads to leases that do so again, and leaves the blocks alone that it does not name. -/
theorem History.leases_hold_blocks {σ : Type} [Source σ] {last : Nat} {source : σ}
    {config : Config} {past : List (Call × Reply)} {heap : Heap σ last} {leases : List Lease}
    (history : History source config past heap leases) :
    ∃ blocks, heap.HeldBy blocks leases ∧
      ∀ (call : Call) reply after, call.Permitted heap leases →
        call.perform heap = .ok reply after →
          ∃ later, after.HeldBy later (call.settle reply leases) ∧
            ∀ block ∈ blocks, block.tag.allocated = true →
              (∀ pointer ∈ call.argument?, pointer.offset ≠ block.offset) →
                ∃ same ∈ later, same.offset = block.offset ∧ same.tag.size = block.tag.size ∧
                  same.tag.allocated = true := by
  obtain ⟨chart, describes, serves⟩ := history.exists_chart
  refine ⟨_, describes.heldBy serves, fun call reply after permitted performed => ?_⟩
  have steps := (describes.yields_perform serves permitted).of_eq_ok performed
  refine ⟨_, steps.described.heldBy steps.serves, fun block member allocated elsewhere => ?_⟩
  obtain ⟨cell, found, flag, rfl⟩ := Cell.exists_of_mem_blocks member
  obtain ⟨kept, _⟩ := steps.others cell ⟨found, allocated⟩ elsewhere
  obtain ⟨other, block⟩ := Cell.exists_mem_blocks true kept.1
  exact ⟨_, block, rfl, rfl, allocated⟩

/-- A client that had a block moved holds two blocks. -/
theorem History.leases_hold_blocks_moving :
    ∃ session : Session Buffer 1,
      Session.replay? (Buffer.ofMaximum 512) ⟨32, 64, 48⟩ Session.moving = some session ∧
        session.leases.length = 2 ∧
        ∃ blocks, session.heap.HeldBy blocks session.leases ∧
          ∀ (call : Call) reply after, call.Permitted session.heap session.leases →
            call.perform session.heap = .ok reply after →
              ∃ later, after.HeldBy later (call.settle reply session.leases) ∧
                ∀ block ∈ blocks, block.tag.allocated = true →
                  (∀ pointer ∈ call.argument?, pointer.offset ≠ block.offset) →
                    ∃ same ∈ later, same.offset = block.offset ∧
                      same.tag.size = block.tag.size ∧ same.tag.allocated = true := by
  obtain ⟨session, replayed, leases⟩ := Session.exists_replay_moving
  refine ⟨session, replayed, ?_, History.leases_hold_blocks (Session.history_of_replay? replayed)⟩
  rw [leases]
  rfl

end SegregatedFit
