/-
This file proves that clients never run into a fault. Whatever the source, the settings and
the permitted calls are, the begin of a heap and every call have an outcome: no sum and no
difference leaves the range of words, no access leaves the arena, no size is ragged, no pointer
is zero, and every walk along blocks or links ends. The same holds of everything that only
looks at a heap.
-/

import SegregatedFit.Proofs.Client.History
import SegregatedFit.Proofs.Heap.Audit
import SegregatedFit.Proofs.Heap.Shape
import SegregatedFit.Proofs.Heap.Usage

namespace SegregatedFit

/-- Whether nothing that a client may do next can stop with a fault. -/
structure Heap.Answers {σ : Type} [Source σ] {last : Nat} (heap : Heap σ last)
    (leases : List Lease) : Prop where
  calls : ∀ call : Call, call.Permitted heap leases →
    ∃ reply after, call.perform heap = .ok reply after
  payloads : ∀ lease ∈ leases, ∃ bytes, heap.payload lease.pointer = .ok bytes
  usage : ∃ usage, heap.usage = .ok usage
  audit : ∃ outcome, heap.audit.run = .ok outcome
  walk : ∃ blocks, heap.arena.walk = .ok blocks
  nodes : ∀ bucket, ∃ nodes, (heap.index.lists.get bucket).nodes heap.arena = .ok nodes
  find : ∀ size, ∃ found, heap.index.find heap.arena size = .ok found
  seek : ∀ bucket size, ∃ place, FreeList.seek heap.arena size heap.arena.size none
    (heap.index.lists.get bucket).head = .ok place

namespace Chart

variable {σ : Type} [Source σ] {last : Nat} {chart : Chart} {heap : Heap σ last}
variable {leases : List Lease}

/-- The place for a block of any size is found in any list of a described heap. -/
theorem Describes.exists_seek (describes : chart.Describes heap) (bucket : Fin (last + 1))
    (size : Nat) : ∃ place, FreeList.seek heap.arena size heap.arena.size none
      (heap.index.lists.get bucket).head = .ok place := by
  have closed := describes.closed
  have follows := closed.follows bucket
  have hosts := (Heap.Opened.hosts closed).sublist
    (Index.bucketCells_sublist last bucket chart.order)
  have found := FreeList.seek_eq_ok follows.threaded hosts size [] (List.nil_append _).symm
    (closed.ascending.filter _) hosts.length_le
  rw [← follows.headed] at found
  exact ⟨_, found⟩

/-- Nothing stops with a fault on a described heap whose leases name the owned cells. -/
theorem Describes.answers (describes : chart.Describes heap) (serves : chart.Serves leases) :
    heap.Answers leases where
  calls call permitted := by
    obtain ⟨reply, after, performed, _⟩ := describes.yields_perform serves permitted
    exact ⟨reply, after, performed⟩
  payloads lease member := by
    obtain ⟨cell, owns, named, _⟩ := serves.backed lease member
    exact ⟨_, describes.payload_eq_ok owns.1 lease.pointer named.symm⟩
  usage := by
    obtain ⟨usage, measured, _⟩ := Heap.exists_usage describes.laidOut
    exact ⟨usage, measured⟩
  audit := ⟨_, describes.wellFormed.audit_passes⟩
  walk := ⟨_, describes.walk_eq_ok⟩
  nodes bucket := ⟨_, (describes.holds bucket).1.nodes_eq⟩
  find size := ⟨_, describes.find_eq_ok size⟩
  seek := describes.exists_seek

end Chart

/-- The begin of a heap has an outcome on every source and with all settings. At every moment
of a history from there on, whatever a client may do next has one too. -/
theorem History.never_faults {σ : Type} [Source σ] {last : Nat} (source : σ) (config : Config) :
    (∃ outcome : Except Refusal (Heap σ last), Heap.create source config = .ok outcome) ∧
      ∀ (past : List (Call × Reply)) (heap : Heap σ last) (leases : List Lease),
        History source config past heap leases → heap.Answers leases := by
  refine ⟨?_, fun past heap leases history => ?_⟩
  · obtain ⟨outcome, created, _⟩ := Chart.exists_create source config
    exact ⟨outcome, created⟩
  · obtain ⟨chart, describes, serves⟩ := history.exists_chart
    exact describes.answers serves

/-- A client that had a block moved can go on. -/
theorem History.never_faults_moving :
    ∃ session : Session Buffer 1,
      Session.replay? (Buffer.ofMaximum 512) ⟨32, 64, 48⟩ Session.moving = some session ∧
        session.heap.Answers session.leases := by
  obtain ⟨session, replayed, _⟩ := Session.exists_replay_moving
  exact ⟨session, replayed, (History.never_faults _ _).2 _ _ _
    (Session.history_of_replay? replayed)⟩

end SegregatedFit
