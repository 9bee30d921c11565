/-
This file proves that no client can break a heap. Whatever permitted calls it makes, the blocks
tile the arena and know their neighbours, no two free blocks are adjacent, and the lists hold
exactly the free blocks; so an audit finds nothing, and the next call has a reply. Damage that one
word of the metadata takes from somewhere else does not pass an audit.
-/

import SegregatedFit.Proofs.Client.History
import SegregatedFit.Proofs.Heap.Audit
import SegregatedFit.Proofs.Heap.Damage
import SegregatedFit.Proofs.Heap.Shape

namespace SegregatedFit

/-- At every moment of a history the heap is well formed, its audit passes, and every permitted
call has a reply. -/
theorem History.stays_sound {σ : Type} [Source σ] {last : Nat} {source : σ} {config : Config}
    {past : List (Call × Reply)} {heap : Heap σ last} {leases : List Lease}
    (history : History source config past heap leases) :
    heap.WellFormed ∧ heap.audit.run = .ok (.ok ()) ∧
      ∀ call : Call, call.Permitted heap leases →
        ∃ reply after, call.perform heap = .ok reply after := by
  obtain ⟨chart, describes, serves⟩ := history.exists_chart
  have wellFormed := describes.wellFormed
  exact ⟨wellFormed, wellFormed.audit_passes, fun call permitted =>
    history.exists_reply permitted⟩

/-- A heap is sound after its client had a block moved. -/
theorem History.stays_sound_moving :
    ∃ session : Session Buffer 1,
      Session.replay? (Buffer.ofMaximum 512) ⟨32, 64, 48⟩ Session.moving = some session ∧
        session.heap.WellFormed ∧ session.heap.audit.run = .ok (.ok ()) ∧
        ∀ call : Call, call.Permitted session.heap session.leases →
          ∃ reply after, call.perform session.heap = .ok reply after := by
  obtain ⟨session, replayed, _⟩ := Session.exists_replay_moving
  exact ⟨session, replayed, History.stays_sound (Session.history_of_replay? replayed)⟩

/-- At every moment of a history an audit reports a corruption after one word of the metadata has
been damaged. -/
theorem History.damage_is_noticed {σ : Type} [Source σ] {last : Nat} {source : σ} {config : Config}
    {past : List (Call × Reply)} {heap : Heap σ last} {leases : List Lease}
    (history : History source config past heap leases) {offset value : Nat}
    (damages : heap.Damages offset value) :
    ∃ damaged corruption, Heap.onArena (Arena.setWord offset value) heap = .ok () damaged ∧
      damaged.audit.run = .ok (.error corruption) := by
  obtain ⟨chart, describes, _⟩ := history.exists_chart
  exact describes.wellFormed.exists_corruption damages

/-- A moved block has left a free block behind, which is alone in its list. Its link is turned to
the payload of its neighbour. -/
theorem History.damage_is_noticed_moving :
    ∃ (session : Session Buffer 1) (damaged : Heap Buffer 1) (corruption : Corruption),
      Session.replay? (Buffer.ofMaximum 512) ⟨32, 64, 48⟩ Session.moving = some session ∧
        session.heap.Damages 40 64 ∧
        Heap.onArena (Arena.setWord 40 64) session.heap = .ok () damaged ∧
        damaged.audit.run = .ok (.error corruption) := by
  have answered : (Session.replay? (Buffer.ofMaximum 512) ⟨32, 64, 48⟩ Session.moving :
      Option (Session Buffer 1)).map (fun session =>
        (session.heap.arena.blocks.head?, session.heap.arena.word? 40)) =
          some (some ⟨32, ⟨32, false, true, false, by decide⟩⟩, some 0) := by
    decide +kernel
  obtain ⟨session, replayed, both⟩ := Option.map_eq_some_iff.mp answered
  obtain ⟨first, read⟩ := Prod.mk.inj both
  have damages : session.heap.Damages 40 64 :=
    .nextLink (List.mem_of_mem_head? first) rfl read (by decide) (by decide)
  obtain ⟨damaged, corruption, written, reported⟩ :=
    History.damage_is_noticed (Session.history_of_replay? replayed) damages
  exact ⟨session, damaged, corruption, replayed, damages, written, reported⟩

end SegregatedFit
