/-
This file proves that a client cannot tell from its heap where the bytes come from. Sources that are
alike carry alike heaps through every history. A buffer and a reservation of the same whole pages
are alike at the begin, although one of them appends zeros at each growth and the other moves a
break over bytes that are there already. Where the host does not refuse memory, both grant exactly
the growth that their capacity allows.
-/

import SegregatedFit.Proofs.Client.Twins
import SegregatedFit.Proofs.Heap.Audit
import SegregatedFit.Proofs.Heap.Mirror
import SegregatedFit.Source.Reservation

namespace SegregatedFit

variable {σ τ : Type} [Source σ] [Source τ] {last : Nat}

/-! ### Calls -/

namespace Call

/-- A call does the same to heaps that are alike. -/
theorem mirrors_perform (call : Call) : Heap.Mirrors σ τ last call.perform call.perform := by
  cases call with
  | allocate request => exact (Heap.mirrors_allocate _).bind fun _ => Action.mirrors_pure _
  | allocate? request => exact (Heap.mirrors_allocate? _).bind fun _ => Action.mirrors_pure _
  | allocateZeroed? request =>
    exact (Heap.mirrors_allocateZeroed? _).bind fun _ => Action.mirrors_pure _
  | resize? pointer request => exact (Heap.mirrors_resize? _ _).bind fun _ => Action.mirrors_pure _
  | release pointer => exact (Heap.mirrors_release _).bind fun _ => Action.mirrors_pure _
  | write pointer start values =>
    exact (Heap.mirrors_writePayload _ _ _).bind fun _ => Action.mirrors_pure _

/-- Heaps that are alike permit the same calls. -/
theorem Permitted.of_alike {call : Call} {first : Heap σ last} {second : Heap τ last}
    {leases : List Lease} (permitted : call.Permitted first leases)
    (alike : first.Alike second) : call.Permitted second leases := by
  refine ⟨permitted.1, ?_⟩
  have fits := permitted.2
  cases call with
  | write pointer start values =>
    rw [Fits] at fits ⊢
    rwa [← alike.usableSize]
  | allocate request => trivial
  | allocate? request => trivial
  | allocateZeroed? request => trivial
  | resize? pointer request => trivial
  | release pointer => trivial

end Call

/-! ### Heaps over sources that are alike -/

/-- A heap that begins in a source begins alike in every source that is alike. -/
theorem Heap.exists_create_alike {source : σ} {copy : τ} (alike : Source.Alike source copy)
    {config : Config} {heap : Heap σ last} (created : Heap.create source config = .ok (.ok heap)) :
    ∃ twin : Heap τ last, Heap.create copy config = .ok (.ok twin) ∧ heap.Alike twin := by
  unfold Heap.create at created ⊢
  cases normalization : config.normalized? with
  | none =>
    rw [normalization] at created
    cases created
  | some normalized =>
    rw [normalization] at created
    simp only at created ⊢
    rcases Arena.init_alike alike with
      ⟨refusal, refused, _⟩ | ⟨arena, other, begun, started, arenas⟩
    · rw [refused] at created
      cases created
    · rw [begun] at created
      rw [started]
      simp only at created ⊢
      split at created
      · rename_i extended
        cases created
        have fresh : (⟨arena, Index.empty, normalized⟩ : Heap σ last).Alike
            (⟨other, Index.empty, normalized⟩ : Heap τ last) := ⟨arenas, rfl, rfl⟩
        obtain ⟨twin, redone, same⟩ :=
          (Heap.mirrors_extend normalized.initialSize).exists_of_eq_ok fresh extended
        rw [redone]
        exact ⟨twin, rfl, same⟩
      · cases created
      · cases created

/-- A history on one source is a history on every source that is alike, and ends alike. -/
theorem History.exists_alike {source : σ} {copy : τ} (alike : Source.Alike source copy)
    {config : Config} {past : List (Call × Reply)} {heap : Heap σ last} {leases : List Lease}
    (history : History source config past heap leases) :
    ∃ twin : Heap τ last, History copy config past twin leases ∧ heap.Alike twin := by
  induction history with
  | begin created =>
    obtain ⟨twin, recreated, same⟩ := Heap.exists_create_alike alike created
    exact ⟨twin, .begin recreated, same⟩
  | step earlier permitted performed inductionHypothesis =>
    obtain ⟨twin, repeated, same⟩ := inductionHypothesis
    obtain ⟨later, redone, still⟩ := (Call.mirrors_perform _).exists_of_eq_ok same performed
    exact ⟨later, .step repeated (permitted.of_alike same) redone, still⟩

/-- Whether two heaps have the same bytes and the same index, and answer every question alike. -/
structure Heap.Indistinguishable (heap : Heap σ last) (twin : Heap τ last) : Prop where
  alike : heap.Alike twin
  layout : heap.SameLayout twin
  payload : ∀ pointer, heap.payload pointer = twin.payload pointer
  audit : heap.audit.run = twin.audit.run

/-- A history on one source is a history on every source that is alike. It ends in a heap that
cannot be told apart there, and no other replies to its calls are possible. -/
theorem History.exists_indistinguishable {source : σ} {copy : τ}
    (alike : Source.Alike source copy) {config : Config} {past : List (Call × Reply)}
    {heap : Heap σ last} {leases : List Lease} (history : History source config past heap leases) :
    ∃ twin : Heap τ last, History copy config past twin leases ∧ heap.Indistinguishable twin ∧
      ∀ (replies : List (Call × Reply)) (repeated : Heap τ last) (held : List Lease),
        History copy config replies repeated held →
          replies.map Prod.fst = past.map Prod.fst →
            replies = past ∧ repeated = twin ∧ held = leases := by
  obtain ⟨twin, repeated, same⟩ := history.exists_alike alike
  -- The mirrored heap comes without a chart. The twin that has one is the same heap, because the
  -- calls of a history decide it.
  obtain ⟨other, chart, again, describes, described, _⟩ :=
    history.exists_twin alike.size.symm alike.capacity.symm alike.allows.symm last
  obtain ⟨_, rfl, _⟩ := repeated.unique again rfl
  refine ⟨other, repeated, ⟨same, describes.sameLayout described, same.payload, ?_⟩,
    fun replies later held more calls => repeated.unique more calls⟩
  rw [describes.wellFormed.audit_passes, described.wellFormed.audit_passes]

/-! ### Buffers and reservations -/

namespace Source

/-- Whether a source grants a request exactly when the new break is a word and at most `limit`. A
grant answers the old break, keeps the bytes in front of it and hands out zeros from it on. A
refusal tells what was asked for and what is left, and changes nothing. -/
def ServesUpTo (source : σ) (limit : Nat) : Prop :=
  ∀ count,
    if size source + count < wordLimit ∧ size source + count ≤ limit then
      ∃ after, request source count = (.ok (size source), after) ∧
        size after = size source + count ∧
        (∀ offset, offset < size source → byte after offset = byte source offset) ∧
        ∀ offset, size source ≤ offset → byte after offset = 0
    else
      request source count = (.error (.outOfMemory count (limit - size source)), source)

/-- A source that allows every word up to its capacity serves up to it. -/
theorem servesUpTo_of_allows_iff {source : σ} {limit : Nat}
    (decides : ∀ count, allows source (size source) count = true ↔
      size source + count < wordLimit ∧ size source + count ≤ limit)
    (holds : capacity source = limit) : ServesUpTo source limit := by
  intro count
  split
  · rename_i granted
    have room := (decides count).mpr granted
    refine ⟨_, request_eq_ok room, size_advance _ _ _, fun offset _ => ?_, fun offset beyond => ?_⟩
    · exact byte_advance _ _ _ _
    · rw [byte_advance, byte_of_size_le _ _ beyond]
  · rename_i full
    have refused := eq_false_of_ne_true fun room => full ((decides count).mp room)
    rw [request_eq_error refused, remaining, holds]

end Source

namespace Reservation

variable {host : Host} {capacity : Nat} {reservation : Reservation}

/-- A reservation of whole pages is as long as was asked for, and empty. -/
theorem of_reserveOn_eq_ok (positive : 0 < capacity) (paged : capacity % pageSize = 0)
    (reserved : reserveOn host capacity = .ok reservation) :
    reservation.length = capacity ∧ reservation.used = 0 ∧
      ∀ offset, reservation.written.getD offset 0 = 0 := by
  have rounded : max ((capacity + (pageSize - 1)) / pageSize) 1 * pageSize = capacity := by
    simp only [pageSize] at paged ⊢
    omega
  unfold reserveOn at reserved
  simp only at reserved
  split at reserved
  · split at reserved
    · cases reserved
      exact ⟨rounded, rfl, fun offset => by simp⟩
    · cases reserved
  · cases reserved

/-- A buffer and a reservation of the same whole pages are alike at the begin, if the host grants
the buffer what it granted the reservation. -/
theorem alike_onHost (positive : 0 < capacity) (paged : capacity % pageSize = 0)
    (grows : host.GrowsArraysUpTo capacity) (reserved : reserveOn host capacity = .ok reservation) :
    Source.Alike (Buffer.onHost host capacity) reservation := by
  obtain ⟨length, used, zeros⟩ := of_reserveOn_eq_ok positive paged reserved
  refine ⟨used.symm, length.symm, ?_, fun offset => (zeros offset).symm⟩
  funext size count
  rw [Bool.eq_iff_iff, allows_eq_true_iff, length]
  exact Buffer.allows_eq_true_iff_of_grows grows

end Reservation

/-- A buffer and a reservation of the same whole pages can be exchanged for each other on a host
that grants the reservation and every growth of the buffer. Both sources grant exactly the growth
that their capacity allows, and hand out zeros. A heap is refused in both or in none, and every
history on one of them is a history on the other, with the same replies, and ends in a heap that
cannot be told apart. -/
theorem History.sources_are_interchangeable {host : Host} {capacity : Nat}
    {reservation : Reservation} (positive : 0 < capacity) (paged : capacity % pageSize = 0)
    (grows : host.GrowsArraysUpTo capacity)
    (reserved : Reservation.reserveOn host capacity = .ok reservation) (config : Config)
    (last : Nat) :
    (∀ buffer : Buffer, buffer.host = host → buffer.maximum = capacity →
      Source.ServesUpTo buffer capacity) ∧
    (∀ region : Reservation, region.length = capacity → Source.ServesUpTo region capacity) ∧
    (∀ refusal,
      (Heap.create (Buffer.onHost host capacity) config :
          Except Fault (Except Refusal (Heap Buffer last))) = .ok (.error refusal) ↔
        (Heap.create reservation config : Except Fault (Except Refusal (Heap Reservation last))) =
          .ok (.error refusal)) ∧
    (∀ (past : List (Call × Reply)) (heap : Heap Buffer last) (leases : List Lease),
      History (Buffer.onHost host capacity) config past heap leases →
        ∃ twin : Heap Reservation last, History reservation config past twin leases ∧
          heap.Indistinguishable twin ∧
          ∀ (replies : List (Call × Reply)) (repeated : Heap Reservation last)
            (held : List Lease), History reservation config replies repeated held →
              replies.map Prod.fst = past.map Prod.fst →
                replies = past ∧ repeated = twin ∧ held = leases) ∧
    ∀ (past : List (Call × Reply)) (heap : Heap Reservation last) (leases : List Lease),
      History reservation config past heap leases →
        ∃ twin : Heap Buffer last,
          History (Buffer.onHost host capacity) config past twin leases ∧
          heap.Indistinguishable twin ∧
          ∀ (replies : List (Call × Reply)) (repeated : Heap Buffer last) (held : List Lease),
            History (Buffer.onHost host capacity) config replies repeated held →
              replies.map Prod.fst = past.map Prod.fst →
                replies = past ∧ repeated = twin ∧ held = leases := by
  have alike := Reservation.alike_onHost positive paged grows reserved
  refine ⟨fun buffer lives maximum => ?_, fun region length => ?_, fun refusal => ?_,
    fun past heap leases history => history.exists_indistinguishable alike,
    fun past heap leases history => history.exists_indistinguishable alike.symm⟩
  · subst lives maximum
    exact Source.servesUpTo_of_allows_iff
      (fun count => Buffer.allows_eq_true_iff_of_grows grows) rfl
  · subst length
    exact Source.servesUpTo_of_allows_iff (fun count => Reservation.allows_eq_true_iff) rfl
  · rw [Chart.create_eq_error_iff, Chart.create_eq_error_iff, alike.size, alike.capacity,
      alike.allows]

/-- A client is given a block and refused another one, in a buffer of one page as in a reservation
of one page. -/
theorem History.sources_are_interchangeable_page :
    ∃ reservation, Reservation.reserve 4096 = .ok reservation ∧
      ∃ session : Session Buffer 1,
        Session.replay? (Buffer.ofMaximum 4096) ⟨32, 64, 48⟩ [.allocate 24, .allocate 4096] =
            some session ∧
          session.past.map Prod.snd =
            [.ok (some ⟨32, by decide⟩), .error (.outOfMemory 4112 4000)] ∧
          ∃ twin : Heap Reservation 1,
            History reservation ⟨32, 64, 48⟩ session.past twin session.leases ∧
              session.heap.Indistinguishable twin := by
  obtain ⟨reservation, reserved⟩ :
      ∃ reservation, Reservation.reserve 4096 = .ok reservation := ⟨_, rfl⟩
  have replies : (Session.replay? (Buffer.ofMaximum 4096) ⟨32, 64, 48⟩
      [.allocate 24, .allocate 4096] : Option (Session Buffer 1)).map (·.past.map Prod.snd) =
        some [.ok (some ⟨32, by decide⟩), .error (.outOfMemory 4112 4000)] := by
    decide +kernel
  obtain ⟨session, replayed, replies⟩ := Option.map_eq_some_iff.mp replies
  obtain ⟨_, _, _, toReservation, _⟩ :=
    History.sources_are_interchangeable (by decide) (by decide)
      (Host.common_growsArraysUpTo (by decide)) reserved ⟨32, 64, 48⟩ 1
  obtain ⟨twin, repeated, same, _⟩ :=
    toReservation _ _ _ (Session.history_of_replay? replayed)
  exact ⟨reservation, reserved, session, replayed, replies, twin, repeated, same⟩

end SegregatedFit
