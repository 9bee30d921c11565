/-
This file proves that a heap resizes an allocated block as its chart does, on every path: the
block is cut down, is enlarged in place, or moves. The bytes that the old and the new payload
have in common are the same on all of them, and nobody else loses a byte.
-/

import SegregatedFit.Proofs.Heap.Grow
import SegregatedFit.Proofs.Heap.Payload

namespace SegregatedFit

namespace Chart

variable {σ : Type} [Source σ] {last : Nat} {chart between : Chart} {before : Heap σ last}
variable {cell target : Cell} {request : Nat}

/-- What becomes of the owners and their payloads when a cell is resized. -/
structure Resizes (chart after : Chart) (cell : Cell) (request : Nat) (target : Cell)
    (first second : Arena σ) : Prop where
  allocated : target.allocated = true
  suits : target.Suits request
  fresh : ∀ other, chart.Owns other → other ≠ cell → other ≠ target
  owned : ∀ other, after.Owns other ↔ other = target ∨ chart.Owns other ∧ other ≠ cell
  spared : ∀ other, chart.Owns other → other ≠ cell → Arena.Spares other first second
  copied : ∀ place, place < request → place + 8 < cell.size →
    Source.byte second.source (target.offset + place) =
      Source.byte first.source (cell.offset + place)

/-- A payload moves to a new block, and the old one is released. -/
theorem Describes.yields_relocate (describes : chart.Describes before) (owns : chart.Owns cell)
    (pointer : Pointer) (named : pointer.offset = cell.offset) {outcome : Except Refusal Nat}
    (allocation : chart.allocate request = (outcome, between)) :
    Heap.Yields before (Heap.relocate pointer cell.size request) fun answer after =>
      answer.map Pointer.offset = outcome.toOption ∧ (answer = none → after = before) ∧
        ∀ offset, outcome = .ok offset → (between.free cell).Describes after ∧
          ∃ target : Cell, target.offset = offset ∧
            chart.Resizes (between.free cell) cell request target before.arena after.arena := by
  unfold Heap.relocate
  refine (describes.yields_allocate? request).bind ?_
  rw [allocation]
  rintro answer one ⟨answered, described, refused, spares⟩
  cases outcome with
  | error refusal =>
    cases answer with
    | some moved => cases answered
    | none =>
      refine Heap.yields_pure ⟨rfl, fun _ => refused rfl, ?_⟩
      rintro offset ⟨⟩
  | ok offset =>
    cases answer with
    | none => cases answered
    | some moved =>
      obtain rfl : moved.offset = offset := Option.some.inj answered
      obtain ⟨target, place_eq, allocated, suits, apart, owned⟩ :=
        describes.owns_allocate allocation
      have enough := suits.enough
      have targetOwns : between.Owns target := (owned target).mpr (Or.inl rfl)
      have cellOwns : between.Owns cell := (owned cell).mpr (Or.inr owns)
      obtain ⟨_, _, _, cellLarge⟩ := described.tiles.bounds cellOwns.1
      have payload : payloadSize cell.size = .ok (cell.size - 8) :=
        payloadSize_eq_ok_iff.mpr (by omega)
      simp only
      refine Heap.yields_bind_lift payload ?_
      rw [named, ← place_eq]
      refine (described.yields_copy cellOwns targetOwns (Nat.min_le_left _ request) ?_).bind ?_
      · omega
      rintro _ two ⟨described, copied, bytes⟩
      refine Heap.Yields.bind (described.yields_release_spares cellOwns pointer named) ?_
      rintro _ after ⟨freed, spared⟩
      have different : target ≠ cell := by
        rintro rfl
        have sides := apart target owns
        unfold Cell.next at sides
        omega
      refine Heap.yields_pure ⟨congrArg some place_eq.symm,
        (fun impossible => by cases impossible), ?_⟩
      rintro _ ⟨rfl⟩
      refine ⟨freed, target, rfl, allocated, suits, fun other others _ => ?_,
        fun other => ?_, fun other others away => ?_, fun place short inside => ?_⟩
      · rintro rfl
        have sides := apart other others
        unfold Cell.next at sides
        omega
      · rw [described.owns_free cellOwns, owned]
        grind
      · have sides := apart other others
        have otherOwns := (owned other).mpr (Or.inr others)
        have copySpares : Arena.Spares other one.arena two.arena :=
          copied.keeps.spares fun index low high hit => by omega
        exact ((spares other others).trans copySpares).trans (spared other otherOwns away)
      · have inTarget : target.offset + place + 8 < target.next := by
          unfold Cell.next
          omega
        rw [spared target targetOwns different _ (Nat.le_add_right _ _) inTarget,
          bytes place (by omega)]
        exact spares cell owns _ (Nat.le_add_right _ _) (by unfold Cell.next; omega)

/-- A block that is cut down keeps the bytes that still fit. -/
theorem Describes.yields_trim_resizes (describes : chart.Describes before)
    (owns : chart.Owns cell) {size : Nat} (needed : blockSize? request = some size)
    (fits : size ≤ cell.size) :
    Heap.Yields before (Heap.trim cell.offset cell.size size) fun _ after =>
      (chart.trim cell size).Describes after ∧ ∃ target : Cell, target.offset = cell.offset ∧
        chart.Resizes (chart.trim cell size) cell request target before.arena after.arena := by
  obtain ⟨_, _, whole, large, holds, _⟩ := blockSize?_eq_some_iff.mp needed
  obtain ⟨front, back, split⟩ := List.append_of_mem owns.1
  refine (describes.yields_trim split owns.2 whole large fits).mono ?_
  rintro _ after ⟨trimmed, alters⟩
  obtain ⟨kept, offset, allocated, sized, owned⟩ := describes.owns_trim owns whole large fits
  obtain ⟨elsewhere, here⟩ := describes.spares_of_trim owns alters.keeps
  refine ⟨trimmed, kept, offset, allocated, ⟨size, needed, sized⟩,
    fun other others different same => ?_,
    owned, elsewhere, fun place short inside => ?_⟩
  · exact different (describes.eq_of_offset_eq owns others (same ▸ offset))
  · rw [offset]
    exact here _ (Nat.le_add_right _ _) (by omega) (by unfold Cell.next; omega)

/-- A block that is enlarged in place keeps all its bytes. -/
theorem Describes.yields_growInPlace_resizes (describes : chart.Describes before)
    (owns : chart.Owns cell) {size : Nat} (needed : blockSize? request = some size)
    (short : ¬ size ≤ cell.size) :
    Heap.Yields before (Heap.growInPlace cell.offset cell.size size) fun answer after =>
      answer = (chart.reserve? cell size).isSome ∧
        (chart.reserve? cell size = none → after = before) ∧
        ∀ reserved, chart.reserve? cell size = some reserved →
          (reserved.absorb cell size).Describes after ∧
          ∃ target : Cell, target.offset = cell.offset ∧
            chart.Resizes (reserved.absorb cell size) cell request target before.arena
              after.arena := by
  obtain ⟨_, _, whole, large, holds, _⟩ := blockSize?_eq_some_iff.mp needed
  refine (describes.yields_growInPlace owns whole large (by omega)).mono ?_
  rintro _ after ⟨rfl, unchanged, made⟩
  refine ⟨rfl, unchanged, fun reserved found => ?_⟩
  obtain ⟨absorbed, spares, kept, offset, allocated, sized, owned⟩ := made reserved found
  refine ⟨absorbed, kept, offset, allocated, ⟨size, needed, sized⟩,
    fun other others different same => ?_,
    owned, fun other others _ => spares other others, fun place short inside => ?_⟩
  · exact different (describes.eq_of_offset_eq owns others (same ▸ offset))
  · rw [offset]
    exact spares cell owns _ (Nat.le_add_right _ _) (by unfold Cell.next; omega)

/-- A heap resizes a block as its chart does, and is refused as its chart is. -/
theorem Describes.yields_resizeBlock? (describes : chart.Describes before)
    (owns : chart.Owns cell) (pointer : Pointer) (named : pointer.offset = cell.offset) :
    Heap.Yields before (Heap.resizeBlock? pointer request) fun answer after =>
      answer.map Pointer.offset = (chart.resize cell request).1 ∧
        (chart.resize cell request).2.Describes after ∧ (answer = none → after = before) ∧
        ∀ offset, (chart.resize cell request).1 = some offset → ∃ target : Cell,
          target.offset = offset ∧ chart.Resizes (chart.resize cell request).2 cell request target
            before.arena after.arena := by
  obtain ⟨front, back, split⟩ := List.append_of_mem owns.1
  have closed := describes.closed
  rw [split] at closed
  have size_eq := Cell.size_tag closed.tiles.2.1 (Cell.lastAllocated true front)
  unfold Heap.resizeBlock? resize
  rw [named]
  refine Heap.yields_bind_inspectArena closed.header_eq_ok ?_
  rw [size_eq]
  cases needed : blockSize? request with
  | none =>
    refine Heap.yields_pure ⟨rfl, describes, fun _ => rfl, ?_⟩
    rintro offset ⟨⟩
  | some size =>
    simp only
    by_cases fits : size ≤ cell.size
    · rw [if_pos fits, if_pos fits]
      refine (describes.yields_trim_resizes owns needed fits).bind ?_
      rintro _ after ⟨trimmed, target, place_eq, resizes⟩
      refine Heap.yields_pure ⟨congrArg some named, trimmed,
        (fun impossible => by cases impossible), ?_⟩
      rintro _ ⟨rfl⟩
      exact ⟨target, place_eq, resizes⟩
    · rw [if_neg fits, if_neg fits]
      refine (describes.yields_growInPlace_resizes owns needed fits).bind ?_
      rintro _ one ⟨rfl, unchanged, made⟩
      cases found : chart.reserve? cell size with
      | some reserved =>
        obtain ⟨absorbed, target, place_eq, resizes⟩ := made reserved found
        refine Heap.yields_pure ⟨congrArg some named, absorbed,
          (fun impossible => by cases impossible), ?_⟩
        rintro _ ⟨rfl⟩
        exact ⟨target, place_eq, resizes⟩
      | none =>
        obtain rfl := unchanged found
        cases allocation : chart.allocate request with
        | mk outcome between =>
          refine (describes.yields_relocate owns pointer named allocation).mono ?_
          rintro answer after ⟨answered, refused, moved⟩
          cases outcome with
          | error refusal =>
            cases answer with
            | some other => cases answered
            | none =>
              obtain rfl := refused rfl
              rw [allocate_eq_error allocation]
              refine ⟨rfl, describes, fun _ => rfl, ?_⟩
              rintro offset ⟨⟩
          | ok offset =>
            obtain ⟨freed, target, place_eq, resizes⟩ := moved offset rfl
            refine ⟨answered, freed, refused, ?_⟩
            rintro _ ⟨rfl⟩
            exact ⟨target, place_eq, resizes⟩

end Chart

end SegregatedFit
