/-
This file proves that a heap is a memory for its clients. Every leased pointer has its bytes,
and they change only where the client writes: calls spare the payloads that they do not name,
a resize keeps what the old and the new payload have in common, and a write changes neither
the metadata of the heap nor any other payload.
-/

import SegregatedFit.Proofs.Client.History
import SegregatedFit.Proofs.Heap.Shape

namespace SegregatedFit

/-- Whether two heaps agree on everything but payloads: on the sentinels, on the headers, on the
footers and the links of the free blocks, and on the lists. -/
structure Heap.SameMetadata {σ : Type} [Source σ] {last : Nat} (before after : Heap σ last) :
    Prop where
  size : after.size = before.size
  growths : after.arena.growths = before.arena.growths
  index : after.index = before.index
  prologue : ∀ offset, offset = 8 ∨ offset = 16 →
    after.arena.word? offset = before.arena.word? offset
  epilogue : after.arena.header? before.arena.epilogue =
    before.arena.header? before.arena.epilogue
  headers : ∀ block ∈ before.arena.blocks,
    after.arena.header? block.offset = before.arena.header? block.offset
  free : ∀ block ∈ before.arena.blocks, block.tag.allocated = false → ∀ offset,
    offset = block.next - 16 ∨ offset = block.offset ∨ offset = block.offset + 8 →
      after.arena.word? offset = before.arena.word? offset

/-- What becomes of the payloads of a client with one call: a payload that the call does not
name stays as it is; a resize that succeeds keeps the first bytes of its payload, as many as
there were and as are asked for; an allocation with zeros answers a payload of zeros; and a
write changes the bytes that it names and no metadata. -/
structure Call.KeepsPayloads {σ : Type} [Source σ] {last : Nat} (call : Call) (reply : Reply)
    (leases : List Lease) (before after : Heap σ last) : Prop where
  spared : ∀ lease ∈ leases, call.argument? ≠ some lease.pointer →
    ∃ bytes, before.payload lease.pointer = .ok bytes ∧ after.payload lease.pointer = .ok bytes
  resized : ∀ pointer request moved, call = .resize? (some pointer) request →
    reply = .ok (some moved) →
      ∃ old new, before.payload pointer = .ok old ∧ after.payload moved = .ok new ∧
        request ≤ new.length ∧
        new.take (min old.length request) = old.take (min old.length request)
  zeroed : ∀ request pointer, call = .allocateZeroed? request → reply = .ok (some pointer) →
    ∃ usable, request ≤ usable ∧ after.payload pointer = .ok (List.replicate usable 0)
  written : ∀ pointer start values, call = .write pointer start values →
    before.SameMetadata after ∧
      ∃ old, before.payload pointer = .ok old ∧
        after.payload pointer =
          .ok (old.take start ++ values ++ old.drop (start + values.length))

namespace Chart

variable {σ : Type} [Source σ] {last : Nat} {chart next : Chart} {before after : Heap σ last}
variable {cell target : Cell} {pointer moved : Pointer}

/-- A payload that is spared is read as before. -/
theorem Describes.payload_eq_of_spares (describes : chart.Describes before)
    (described : next.Describes after) (owns : chart.Owns cell) (kept : next.Owns cell)
    (spares : Arena.Spares cell before.arena after.arena) (named : pointer.offset = cell.offset) :
    after.payload pointer = before.payload pointer := by
  have large := (describes.tiles.bounds owns.1).2.2.2
  rw [describes.payload_eq_ok owns.1 pointer named, described.payload_eq_ok kept.1 pointer named]
  refine congrArg _ (Source.readBytes_congr fun place inside => ?_)
  refine spares _ (Nat.le_add_right _ _) ?_
  unfold Cell.next
  omega

/-- A write into a payload changes no metadata. -/
theorem Describes.sameMetadata (describes : chart.Describes before) (owns : chart.Owns cell)
    (index : after.index = before.index) {touched : Nat → Prop}
    (alters : Arena.Alters touched before.arena after.arena)
    (within : ∀ place, touched place → cell.offset ≤ place ∧ place + 8 < cell.next) :
    before.SameMetadata after := by
  have begins := (describes.tiles.bounds owns.1).1
  have ends := (describes.tiles.bounds owns.1).2.1
  have size_eq := describes.size_eq
  have blocks := Arena.blocks_eq_of_laidOut describes.laidOut
  have epilogue : before.arena.epilogue = before.arena.size := rfl
  refine ⟨alters.size, alters.growths, index, fun offset sentinel => ?_, ?_, ?_, ?_⟩
  · exact alters.word? fun place low high hit => by
      have := within place hit
      omega
  · exact alters.header? fun place low high hit => by
      have := within place hit
      omega
  · rw [blocks]
    intro block member
    obtain ⟨other, found, flag, rfl⟩ := Cell.exists_of_mem_blocks member
    refine alters.header? fun place low high hit => ?_
    have inside := within place hit
    have large := (describes.tiles.bounds found).2.2.2
    simp only at low high
    rcases describes.tiles.apart found owns.1 with rfl | apart
    · omega
    · unfold Cell.next at *
      omega
  · rw [blocks]
    intro block member free offset word
    obtain ⟨other, found, flag, rfl⟩ := Cell.exists_of_mem_blocks member
    obtain ⟨_, _, regular⟩ := describes.tiles.bounds found
    have large := regular.2
    have size := Cell.size_tag regular flag
    have ordered := describes.indexed other found free
    have apart := describes.apart_of_mem_order owns ordered
    simp only [Block.next, size] at word
    refine alters.word? fun place low high hit => ?_
    have inside := within place hit
    unfold Cell.next at *
    omega

/-- A resize that succeeds keeps the bytes that the old and the new payload have in common. -/
theorem Describes.payload_of_resize? (describes : chart.Describes before) (owns : chart.Owns cell)
    (named : pointer.offset = cell.offset) {request : Nat}
    (resized : Heap.resize? (some pointer) request before = .ok (some moved) after) :
    ∃ old new, before.payload pointer = .ok old ∧ after.payload moved = .ok new ∧
      request ≤ new.length ∧
      new.take (min old.length request) = old.take (min old.length request) := by
  obtain ⟨_, described, _, won, _, wonEq, exchanges, _, copied⟩ :=
    (describes.yields_resize? owns named request).of_eq_ok resized
  obtain ⟨target, wins, place⟩ := Option.map_eq_some_iff.mp wonEq
  have targetOwns := (exchanges.owned target).mpr (Or.inl wins)
  have enough := exchanges.enough wins
  refine ⟨_, _, describes.payload_eq_ok owns.1 pointer named,
    described.payload_eq_ok targetOwns.1 moved place.symm, ?_, ?_⟩
  · rw [Source.length_readBytes]
    omega
  · rw [Source.length_readBytes, Source.take_readBytes, Source.take_readBytes]
    have short : min (min (cell.size - 8) request) (cell.size - 8) =
        min (min (cell.size - 8) request) (target.size - 8) := by omega
    rw [short]
    exact Source.readBytes_congr fun index inside =>
      copied target wins index (by omega) (by omega)

/-- An allocation with zeros answers a payload of zeros. -/
theorem Describes.payload_of_allocateZeroed? (describes : chart.Describes before) {request : Nat}
    (allocated : Heap.allocateZeroed? request before = .ok (some pointer) after) :
    ∃ usable, request ≤ usable ∧ after.payload pointer = .ok (List.replicate usable 0) := by
  obtain ⟨answered, described, _, _, zeros⟩ :=
    (describes.yields_allocateZeroed? request).of_eq_ok allocated
  cases result : chart.allocate request with
  | mk outcome next =>
    rw [result] at answered described zeros
    cases outcome with
    | error refusal => cases answered
    | ok offset =>
      obtain rfl : pointer.offset = offset := Option.some.inj answered
      obtain ⟨target, place, _, suits, _, owned⟩ := describes.owns_allocate result
      have enough := suits.enough
      have targetOwns := (owned target).mpr (Or.inl rfl)
      refine ⟨target.size - 8, by omega, ?_⟩
      rw [described.payload_eq_ok targetOwns.1 pointer place.symm]
      refine congrArg _ (List.eq_replicate_iff.mpr ⟨Source.length_readBytes _ _ _, ?_⟩)
      intro byte member
      obtain ⟨index, inside, rfl⟩ := List.mem_map.mp member
      rw [place]
      exact zeros _ rfl target targetOwns place index (by
        have := List.mem_range.mp inside
        omega)

/-- A write changes the bytes that it names and no metadata. -/
theorem Describes.payload_of_writePayload (describes : chart.Describes before)
    (owns : chart.Owns cell) (named : pointer.offset = cell.offset) {start : Nat}
    {values : List UInt8} (fits : start + values.length ≤ cell.size - 8)
    (written : Heap.writePayload pointer start values before = .ok () after) :
    before.SameMetadata after ∧
      ∃ old, before.payload pointer = .ok old ∧
        after.payload pointer =
          .ok (old.take start ++ values ++ old.drop (start + values.length)) := by
  have large := (describes.tiles.bounds owns.1).2.2.2
  obtain ⟨described, index, writes⟩ := (describes.yields_writePayload owns.1 owns.2 pointer named
    start values fits).of_eq_ok written
  refine ⟨describes.sameMetadata owns index writes.alters fun place hit => ?_, _,
    describes.payload_eq_ok owns.1 pointer named, ?_⟩
  · unfold Cell.next
    omega
  · rw [described.payload_eq_ok owns.1 pointer named, writes.readBytes_eq fits]

end Chart

/-- Every permitted call in a history keeps the payloads of the client. -/
theorem History.payloads_are_kept {σ : Type} [Source σ] {last : Nat} {source : σ}
    {config : Config} {past : List (Call × Reply)} {before after : Heap σ last}
    {leases : List Lease} {call : Call} {reply : Reply}
    (history : History source config past before leases) (permitted : call.Permitted before leases)
    (performed : call.perform before = .ok reply after) :
    call.KeepsPayloads reply leases before after := by
  obtain ⟨chart, describes, serves⟩ := history.exists_chart
  have steps := (describes.yields_perform serves permitted).of_eq_ok performed
  refine ⟨fun lease member elsewhere => ?_, ?_, ?_, ?_⟩
  · obtain ⟨cell, owns, place, _⟩ := serves.backed lease member
    obtain ⟨kept, spares⟩ := steps.others cell owns fun pointer named same =>
      elsewhere (by rw [named, Pointer.eq_of_offset_eq (same.trans place)])
    refine ⟨_, describes.payload_eq_ok owns.1 lease.pointer place.symm, ?_⟩
    rw [describes.payload_eq_of_spares steps.described owns kept spares place.symm]
    exact describes.payload_eq_ok owns.1 lease.pointer place.symm
  · rintro pointer request moved rfl rfl
    obtain ⟨cell, owns, named⟩ := serves.exists_cell (permitted.1 pointer rfl)
    obtain ⟨answer, between, resized, replied⟩ := Action.bind_eq_ok_iff.mp performed
    obtain ⟨same, rfl⟩ := Action.pure_eq_ok_iff.mp replied
    cases same
    exact describes.payload_of_resize? owns named resized
  · rintro request pointer rfl rfl
    obtain ⟨answer, between, allocated, replied⟩ := Action.bind_eq_ok_iff.mp performed
    obtain ⟨same, rfl⟩ := Action.pure_eq_ok_iff.mp replied
    cases same
    exact describes.payload_of_allocateZeroed? allocated
  · rintro pointer start values rfl
    obtain ⟨cell, owns, named⟩ := serves.exists_cell (permitted.1 pointer rfl)
    obtain ⟨_, between, written, replied⟩ := Action.bind_eq_ok_iff.mp performed
    obtain ⟨_, rfl⟩ := Action.pure_eq_ok_iff.mp replied
    exact describes.payload_of_writePayload owns named
      (describes.fits_of_permitted owns named permitted) written

/-- A client that had a block moved has it cut down again. -/
theorem History.payloads_are_kept_moving :
    ∃ (session : Session Buffer 1) (reply : Reply) (after : Heap Buffer 1),
      Session.replay? (Buffer.ofMaximum 512) ⟨32, 64, 48⟩ Session.moving = some session ∧
        (Call.resize? (some ⟨96, by decide⟩) 10).Permitted session.heap session.leases ∧
        (Call.resize? (some ⟨96, by decide⟩) 10).perform session.heap = .ok reply after ∧
        (Call.resize? (some ⟨96, by decide⟩) 10).KeepsPayloads reply session.leases session.heap
          after := by
  obtain ⟨session, replayed, leases⟩ := Session.exists_replay_moving
  have history := Session.history_of_replay? replayed
  have permitted : (Call.resize? (some ⟨96, by decide⟩) 10).Permitted session.heap
      session.leases := by
    rw [leases]
    refine ⟨?_, trivial⟩
    rintro pointer ⟨⟩
    decide
  obtain ⟨reply, after, performed⟩ := history.exists_reply permitted
  exact ⟨session, reply, after, replayed, permitted, performed,
    History.payloads_are_kept history permitted performed⟩

end SegregatedFit
