/-
This file proves that a heap releases an allocated block as its chart frees the cell. The
block is marked as free, its follower is told, and then it joins the index and its free
neighbours.
-/

import SegregatedFit.Heap.Release
import SegregatedFit.Proofs.Heap.Describes

namespace SegregatedFit

namespace Chart

variable {σ : Type} [Source σ] {last : Nat} {chart : Chart} {before : Heap σ last}
variable {front back : List Cell} {cell : Cell}

/-- An allocated cell is not in the index. -/
theorem Describes.not_mem_order (describes : chart.Describes before)
    (allocated : cell.allocated = true) : cell ∉ chart.order := by
  intro member
  have free := (describes.closed.free cell member).2
  rw [allocated] at free
  cases free

/-- The free cells beside a cell are in the index. -/
theorem Describes.indexed_around (describes : chart.Describes before)
    (split : chart.cells = front ++ cell :: back) :
    ∀ other ∈ front ++ back, other.allocated = false → other ∈ chart.order := by
  intro other member free
  refine describes.indexed other ?_ free
  rw [split]
  rcases List.mem_append.mp member with inFront | inBack
  · exact List.mem_append_left _ inFront
  · exact List.mem_append_right _ (List.mem_cons_of_mem _ inBack)

/-- A block is released in memory as it is in the chart. -/
theorem Describes.yields_release (describes : chart.Describes before)
    (split : chart.cells = front ++ cell :: back) (allocated : cell.allocated = true)
    (pointer : Pointer) (named : pointer.offset = cell.offset) :
    Heap.Yields before (Heap.release pointer) fun _ after =>
      (chart.free cell).Describes after ∧
        Arena.Alters (Arena.UpdateBytes (chart.joined cell) chart.order)
          before.arena after.arena := by
  have closed := describes.closed
  rw [split] at closed
  obtain ⟨frontTiles, regular, backTiles⟩ := closed.tiles
  have separated := describes.separated
  rw [split] at separated
  obtain ⟨frontSeparated, _, backSeparated⟩ := Cell.separated_append.mp separated
  have size_eq := Cell.size_tag regular (Cell.lastAllocated true front)
  have large := regular.2
  have split : chart.cells = front ++ ([cell] ++ back) := split
  have insideTiles : Cell.Tiles cell.offset cell.next [cell] := ⟨rfl, regular, rfl⟩
  have opened := Heap.Closed.cut closed frontTiles insideTiles
    (List.forall_mem_singleton.mpr (describes.not_mem_order allocated))
  unfold Heap.release
  rw [named]
  refine Heap.yields_bind_inspectArena closed.header_eq_ok ?_
  rw [size_eq]
  refine (opened.yields_setFreeTags rfl regular.1 regular.2 (Nat.le_refl _)).bind ?_
  rintro _ one ⟨filled, oneAlters⟩
  refine (filled.yields_tellNext false).bind ?_
  rintro _ two ⟨told, twoAlters⟩
  have marked := told.close (by simp [Cell.lastAllocated])
  rw [List.append_assoc] at marked
  have fresh : (⟨cell.offset, cell.size, false⟩ : Cell) ∉ chart.order :=
    opened.fresh (Nat.le_refl _) (Nat.le_refl _) (by show 0 < cell.size; omega)
  refine yields_free chart split marked rfl fresh (List.forall_mem_singleton.mpr
    ⟨Nat.le_refl _, Nat.le_refl _, by omega⟩) (describes.indexed_around split) frontSeparated
    backSeparated describes.growing ?_
  intro after described alters low high
  have low : (chart.joined cell).offset ≤ cell.offset := low
  have high : cell.offset + cell.size ≤ (chart.joined cell).next := high
  refine Heap.yields_pure ⟨described, ((oneAlters.mono fun index hit => Or.inl ?_).trans
    (twoAlters.mono fun index hit => Or.inl ?_)).trans alters⟩
  · omega
  · omega

end Chart

end SegregatedFit
