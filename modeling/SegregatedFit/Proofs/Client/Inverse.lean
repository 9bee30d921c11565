/-
This file proves that a release right after an allocation is its exact inverse. The heap is again
as it was, or as it was right after its growth if the allocation had to grow it: the same blocks,
the same lists in the same order, and the same bytes, but for the inside of the payload.
-/

import SegregatedFit.Proofs.Client.Noninterference
import SegregatedFit.Proofs.Client.Placement
import SegregatedFit.Proofs.Heap.Undo

namespace SegregatedFit

namespace Chart

variable {σ : Type} [Source σ] {last : Nat} {chart between : Chart}
variable {heap twin grown after : Heap σ last} {front back : List Cell} {cell : Cell}
variable {index size : Nat} {pointer : Pointer}

/-! ### Bytes that a chart decides -/

/-- The links of the free cells have the same bytes in two heaps that one chart describes. -/
theorem Describes.byte_eq_of_nodeBytes (describes : chart.Describes heap)
    (described : chart.Describes twin) (hit : Arena.NodeBytes chart.order index) :
    Source.byte heap.arena.source index = Source.byte twin.arena.source index := by
  obtain ⟨node, member, low, high⟩ := hit
  obtain ⟨backward, forward⟩ := describes.links_eq described member
  obtain ⟨_, ends, _, large⟩ := describes.tiles.bounds (describes.closed.free node member).1
  have size_eq := describes.size_eq
  unfold Cell.next at ends
  exact Arena.byte_eq_of_words?_eq backward forward (by omega) low high

/-- The header of a free cell, its links, its footer and the header behind it have the same bytes
in two heaps that one chart describes. -/
theorem Describes.byte_eq_of_free (describes : chart.Describes heap)
    (described : chart.Describes twin) (split : chart.cells = front ++ cell :: back)
    (free : cell.allocated = false) (low : cell.offset ≤ index + 8) (high : index < cell.next)
    (outside : index < cell.offset + 16 ∨ cell.next ≤ index + 16) :
    Source.byte heap.arena.source index = Source.byte twin.arena.source index := by
  have member : cell ∈ chart.cells := by
    rw [split]
    exact List.mem_append_right _ List.mem_cons_self
  have closed := describes.closed
  have twinClosed := described.closed
  rw [split] at closed twinClosed
  obtain ⟨_, ends, _, large⟩ := describes.tiles.bounds member
  have size_eq := describes.size_eq
  have next_eq : cell.next = cell.offset + cell.size := rfl
  by_cases inHeader : index < cell.offset
  · exact Arena.byte_eq_of_header_eq closed.header_eq_ok twinClosed.header_eq_ok low inHeader
  by_cases inLinks : index < cell.offset + 16
  · exact describes.byte_eq_of_nodeBytes described
      ⟨cell, describes.indexed cell member free, Nat.le_of_not_lt inHeader, inLinks⟩
  have late := outside.resolve_left inLinks
  by_cases inFooter : index + 8 < cell.next
  · have footer := (describes.footer_eq member free).trans
      (described.footer_eq member free).symm
    exact Arena.byte_eq_of_word?_eq footer (by omega) (by omega) (by omega)
  · obtain ⟨next, following, header⟩ := closed.header_next_eq_ok
    obtain ⟨again, followed, reheader⟩ := twinClosed.header_next_eq_ok
    obtain rfl := Option.some.inj (following.symm.trans followed)
    exact Arena.byte_eq_of_header_eq header reheader (by omega) high

/-! ### Releasing what was allocated -/

/-- The links of the cells that are free after an allocation lie in the cell that was cut, or were
links before. -/
theorem Places.updateBytes_of_place
    (places : chart.Places heap size cell between grown pointer after) (large : 32 ≤ size)
    (hit : Arena.UpdateBytes cell (between.place cell size).order index) :
    Arena.UpdateBytes cell between.order index := by
  obtain ⟨_, fits, _⟩ := findOrExtend_eq_ok places.chosen
  refine hit.mono (Nat.le_refl _) (Nat.le_refl _) fun node member => ?_
  obtain ⟨_, _, _, nodeLarge⟩ :=
    places.placed.tiles.bounds (places.placed.closed.free node member).1
  rcases mem_foldr_insertInto.mp member with part | old
  · obtain ⟨low, high, _⟩ := Cell.parts_within large fits (List.mem_filter.mp part).1
    unfold Cell.next at high
    exact Or.inr ⟨low, by unfold Cell.next; omega⟩
  · exact Or.inl (Cell.mem_without.mp old).1

/-- A release takes an allocation back: the chart is as it was before the cell was cut, and so are
the bytes that do not lie inside of its payload. -/
theorem Places.yields_release (places : chart.Places heap size cell between grown pointer after)
    (describes : chart.Describes heap) (large : 32 ≤ size) :
    Heap.Yields after (Heap.release pointer) fun _ released =>
      between.Describes released ∧
        ∀ index, index < cell.offset + 16 ∨ cell.next ≤ index + 16 →
          Source.byte released.arena.source index = Source.byte grown.arena.source index := by
  obtain ⟨member, fits, _⟩ := findOrExtend_eq_ok places.chosen
  have first := describes.insertInto_of_findOrExtend large places.chosen
  obtain ⟨joined, undone⟩ := places.described.free_place places.placed member large fits first
  have owns : (between.place cell size).Owns
      (cell.used between.setting.config.splitThreshold size) :=
    (places.described.owns_place member).mpr (Or.inl rfl)
  obtain ⟨front, back, split⟩ := List.append_of_mem owns.1
  refine (places.placed.yields_release split owns.2 pointer places.named).mono ?_
  rintro _ released ⟨freed, alters⟩
  rw [undone] at freed
  rw [joined] at alters
  refine ⟨freed, fun index outside => ?_⟩
  -- What the two steps may write are tags and links, and those are what the chart decides.
  by_cases hit : Arena.UpdateBytes cell between.order index
  · rcases hit with ⟨low, high⟩ | inNodes
    · obtain ⟨inCells, free⟩ := places.described.closed.free cell member
      obtain ⟨front, back, split⟩ := List.append_of_mem inCells
      exact freed.byte_eq_of_free places.described split free low high outside
    · exact freed.byte_eq_of_nodeBytes places.described inNodes
  · exact (alters.byte index fun again => hit (places.updateBytes_of_place large again)).trans
      (places.alters.byte index hit)

end Chart

/-- At every moment of a history, a release right after an allocation takes it back exactly. The
heap keeps the same books as before the free block was cut: the same blocks, the same lists with
the same nodes in the same order, the same links. Its bytes are the same but for those inside of
the payload of the free block, between its links and its footer. If the allocation let the heap
grow, this is the heap right after its growth. -/
theorem History.release_undoes_allocation {σ : Type} [Source σ] {last : Nat} {source : σ}
    {config : Config} {past : List (Call × Reply)} {heap between : Heap σ last}
    {leases : List Lease} {request : Nat} {pointer : Pointer}
    (history : History source config past heap leases)
    (allocated : Heap.allocate? request heap = .ok (some pointer) between) :
    ∃ size front cell back origin after, blockSize? request = some size ∧
      heap.Offers size front cell back origin ∧
        origin.CutsTo size front cell back pointer between ∧
        Heap.release pointer between = .ok () after ∧ after.SameBooks origin ∧
        ∀ index, index < cell.offset + 16 ∨ cell.next ≤ index + 16 →
          Source.byte after.arena.source index = Source.byte origin.arena.source index := by
  obtain ⟨chart, describes, _, normalization⟩ := history.exists_normalized_chart
  obtain ⟨answer, granted, found⟩ := Action.bind_pure_eq_ok_iff.mp allocated
  cases answer with
  | error refusal => cases found
  | ok other =>
    obtain rfl : other = pointer := Option.some.inj found
    obtain ⟨size, cell, grownChart, origin, needed, places⟩ := describes.exists_places granted
    obtain ⟨_, small, whole, large, _⟩ := blockSize?_eq_some_iff.mp needed
    obtain ⟨front, back, split, offers⟩ :=
      describes.exists_offers normalization whole small places
    obtain ⟨_, after, released, _, freed, bytes⟩ := places.yields_release describes large
    exact ⟨size, front, cell, back, origin, after, needed, offers, places.cutsTo split, released,
      freed.sameBooks places.described, bytes⟩

/-- A client that gives its first block back at once has the heap as it was. -/
theorem History.release_undoes_allocation_first :
    ∃ (session : Session Buffer 1) (pointer : Pointer) (between after : Heap Buffer 1),
      Session.replay? (Buffer.ofMaximum 512) ⟨32, 144, 48⟩ [] = some session ∧
        Heap.allocate? 56 session.heap = .ok (some pointer) between ∧
        Heap.release pointer between = .ok () after ∧ after.SameBooks session.heap := by
  have answered : (Session.replay? (Buffer.ofMaximum 512) ⟨32, 144, 48⟩ [] :
      Option (Session Buffer 1)).map (fun session =>
        ((session.heap.index.find session.heap.arena 64).toOption,
          ((Heap.allocate? 56).run' session.heap).map (·.map Pointer.offset))) =
            some (some (some 32), some (some 112)) := by
    decide +kernel
  obtain ⟨session, replayed, both⟩ := Option.map_eq_some_iff.mp answered
  obtain ⟨searched, named⟩ := Prod.mk.inj both
  obtain ⟨answer, between, allocated, offset_eq⟩ := Action.exists_of_map_run named
  cases answer with
  | none => cases offset_eq
  | some pointer =>
    obtain ⟨size, front, cell, back, origin, after, needed, offers, _, released, books, _⟩ :=
      History.release_undoes_allocation (Session.history_of_replay? replayed) allocated
    obtain rfl : size = 64 := Option.some.inj (needed.symm.trans (by decide))
    cases offers with
    | found => exact ⟨session, pointer, between, after, replayed, allocated, released, books⟩
    | grown search =>
      rw [search] at searched
      cases searched

end SegregatedFit
