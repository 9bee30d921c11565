/-
This file bounds what is left over in live blocks. Whichever way a block came by its size, at its
allocation, at a cut or by growth, it has what its last request needs and at most one unit more.
A resize to the same request finds nothing to cut off then, so it changes nothing.
-/

import SegregatedFit.Proofs.Client.History

namespace SegregatedFit

namespace Heap

variable {σ : Type} [Source σ] {last : Nat} {heap : Heap σ last}

/-- Whether a live block has the size that its last request needs, or one unit more. -/
def Suits (heap : Heap σ last) (lease : Lease) : Prop :=
  ∃ tag size, heap.arena.header lease.pointer.offset = .ok tag ∧ tag.allocated = true ∧
    blockSize? lease.request = some size ∧ (tag.size = size ∨ tag.size = size + 16)

/-- Nothing is cut off from a block when the rest would be too small for a block. -/
theorem trim_eq_ok_of_tight {block size newSize : Nat} (fits : newSize ≤ size)
    (tight : size - newSize < 32) : trim block size newSize heap = .ok () heap := by
  unfold trim
  refine Action.bind_eq_ok_iff.mpr ⟨size - newSize, heap,
    Action.lift_eq_ok_iff.mpr ⟨Word.sub_eq_ok_iff.mpr ⟨fits, rfl⟩, rfl⟩, ?_⟩
  rw [if_neg (show ¬ minimumBlock ≤ size - newSize from Nat.not_le_of_lt tight)]
  exact Action.pure_eq_ok_iff.mpr ⟨rfl, rfl⟩

/-- A resize to a request that a block suits already changes nothing. -/
theorem Suits.resize?_eq_ok {lease : Lease} (suits : heap.Suits lease) :
    resize? (some lease.pointer) lease.request heap = .ok (some lease.pointer) heap := by
  obtain ⟨tag, size, header, _, needed, sized⟩ := suits
  obtain ⟨seeks, _⟩ := blockSize?_eq_some_iff.mp needed
  rw [resize?, if_neg (Nat.ne_of_gt seeks)]
  unfold resizeBlock?
  refine Action.bind_eq_ok_iff.mpr ⟨tag, heap,
    Action.inspect_eq_ok_iff.mpr ⟨header, rfl⟩, ?_⟩
  simp only [needed]
  rw [if_pos (show size ≤ tag.size by omega)]
  exact Action.bind_eq_ok_iff.mpr ⟨(), heap, trim_eq_ok_of_tight (by omega) (by omega),
    Action.pure_eq_ok_iff.mpr ⟨rfl, rfl⟩⟩

end Heap

/-- The block of every lease suits it when the leases name the owned cells. -/
theorem Chart.Describes.suits {σ : Type} [Source σ] {last : Nat} {chart : Chart}
    {heap : Heap σ last} {leases : List Lease} {lease : Lease} (describes : chart.Describes heap)
    (serves : chart.Serves leases) (live : lease ∈ leases) : heap.Suits lease := by
  obtain ⟨cell, owns, place, size, needed, sized⟩ := serves.suited lease live
  obtain ⟨flag, shown⟩ := Heap.Opened.exists_shows describes.closed
    (List.mem_append_right [] owns.1)
  rw [← Cell.size_tag (describes.tiles.bounds owns.1).2.2 flag] at sized
  exact ⟨cell.tag flag, size, place ▸ Arena.header_eq_ok_iff.mpr shown.header, owns.2, needed,
    sized⟩

/-- At every moment of a history, every live block has the size that its last request needs, or
one unit more. A resize of any of them has an answer, and when it succeeds, the same resize of the
pointer that it answered answers that pointer again and leaves the whole heap as it is. -/
theorem History.repeated_resize_changes_nothing {σ : Type} [Source σ] {last : Nat} {source : σ}
    {config : Config} {past : List (Call × Reply)} {heap : Heap σ last} {leases : List Lease}
    (history : History source config past heap leases) :
    (∀ lease ∈ leases, heap.Suits lease) ∧
      ∀ lease ∈ leases, ∀ request, ∃ answer after,
        Heap.resize? (some lease.pointer) request heap = .ok answer after ∧
          ∀ moved ∈ answer,
            Heap.resize? (some moved) request after = .ok (some moved) after := by
  constructor
  · intro lease live
    obtain ⟨chart, describes, serves⟩ := history.exists_chart
    exact describes.suits serves live
  · intro lease live request
    have permitted : (Call.resize? (some lease.pointer) request).Permitted heap leases := by
      refine ⟨?_, trivial⟩
      rintro _ ⟨rfl⟩
      exact List.mem_map_of_mem live
    obtain ⟨reply, after, performed⟩ := history.exists_reply permitted
    obtain ⟨answer, resized, rfl⟩ := Action.bind_pure_eq_ok_iff.mp performed
    refine ⟨answer, after, resized, ?_⟩
    rintro moved ⟨rfl⟩
    obtain ⟨chart, describes, serves⟩ := (history.step permitted performed).exists_chart
    have granted : (⟨moved, request⟩ : Lease) ∈
        (Call.resize? (some lease.pointer) request).settle (.ok (some moved)) leases :=
      Chart.mem_settle.mpr (Or.inl ⟨moved, rfl, rfl⟩)
    exact (describes.suits serves granted).resize?_eq_ok

/-- A client that has a moved block cut down can ask for the same cut again. -/
theorem History.repeated_resize_changes_nothing_moving :
    ∃ (session : Session Buffer 1) (pointer : Pointer) (after : Heap Buffer 1),
      Session.replay? (Buffer.ofMaximum 512) ⟨32, 64, 48⟩ Session.moving = some session ∧
        session.leases = [⟨pointer, 60⟩, ⟨⟨64, by decide⟩, 24⟩] ∧
        (∀ lease ∈ session.leases, session.heap.Suits lease) ∧
        Heap.resize? (some pointer) 40 session.heap = .ok (some pointer) after ∧
        Heap.resize? (some pointer) 40 after = .ok (some pointer) after := by
  have answered : (Session.replay? (Buffer.ofMaximum 512) ⟨32, 64, 48⟩ Session.moving :
      Option (Session Buffer 1)).map (fun session => (session.leases,
        ((Heap.resize? (some ⟨96, by decide⟩) 40).run' session.heap).map
          (·.map Pointer.offset))) =
            some ([⟨⟨96, by decide⟩, 60⟩, ⟨⟨64, by decide⟩, 24⟩], some (some 96)) := by
    decide +kernel
  obtain ⟨session, replayed, both⟩ := Option.map_eq_some_iff.mp answered
  obtain ⟨leases, kept⟩ := Prod.mk.inj both
  obtain ⟨suits, repeats⟩ :=
    History.repeated_resize_changes_nothing (Session.history_of_replay? replayed)
  have live : (⟨⟨96, by decide⟩, 60⟩ : Lease) ∈ session.leases := by
    rw [leases]
    exact List.mem_cons_self
  obtain ⟨answer, after, resized, again⟩ := repeats _ live 40
  obtain ⟨_, _, found, offset_eq⟩ := Action.exists_of_map_run kept
  cases resized.symm.trans found
  obtain ⟨pointer, rfl, place⟩ := Option.map_eq_some_iff.mp offset_eq
  obtain rfl : pointer = ⟨96, by decide⟩ := Pointer.eq_of_offset_eq place
  exact ⟨session, _, after, replayed, leases, suits, resized, again _ rfl⟩

end SegregatedFit
