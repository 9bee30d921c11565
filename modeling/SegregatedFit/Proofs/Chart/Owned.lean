/-
This file follows the allocated cells of a chart. They are what clients own: no operation
changes, moves or loses one of them, except the one that it works on.
-/

import SegregatedFit.Proofs.Chart.Join

namespace SegregatedFit

namespace Chart

variable {chart : Chart} {front back inside start stop : List Cell} {cell range other : Cell}

/-- Whether a cell of a chart is allocated. -/
def Owns (chart : Chart) (cell : Cell) : Prop :=
  cell ∈ chart.cells ∧ cell.allocated = true

theorem Owns.ne_of_free (owns : chart.Owns cell) (free : other.allocated = false) :
    cell ≠ other := by
  rintro rfl
  rw [owns.2] at free
  cases free

/-- The cells that are owned after a range was replaced. -/
theorem owns_replace {parts : List Cell}
    (splits : range.before chart.cells = front ∧ range.after chart.cells = back) :
    (chart.replace range parts).Owns other ↔
      (other ∈ front ++ back ∨ other ∈ parts) ∧ other.allocated = true := by
  rw [replace_eq chart parts splits]
  simp only [Owns, List.mem_append]
  grind

/-- The cells that are owned after a range became free. -/
theorem Joins.owns_free (joins : chart.Joins front range back start stop) :
    (chart.free range).Owns other ↔ other ∈ front ++ back ∧ other.allocated = true := by
  have joinedFree : (chart.joined range).allocated = false := rfl
  have frontMember : other ∈ front ↔ other ∈ start ∨ Cell.freeLast? front = some other := by
    have parts := congrArg (other ∈ ·) joins.frontEq
    simpa using parts
  have backMember : other ∈ back ↔ Cell.freeHead? back = some other ∨ other ∈ stop := by
    have parts := congrArg (other ∈ ·) joins.backEq
    simpa using parts
  rw [joins.freeEq]
  simp only [Owns, List.mem_append, List.mem_cons, frontMember, backMember]
  constructor
  · rintro ⟨inStart | rfl | inStop, allocated⟩
    · exact ⟨Or.inl (Or.inl inStart), allocated⟩
    · rw [joinedFree] at allocated
      cases allocated
    · exact ⟨Or.inr (Or.inr inStop), allocated⟩
  · rintro ⟨(inStart | low) | (high | inStop), allocated⟩
    · exact ⟨Or.inl inStart, allocated⟩
    · rw [Cell.free_of_freeLast? low] at allocated
      cases allocated
    · rw [Cell.free_of_freeHead? high] at allocated
      cases allocated
    · exact ⟨Or.inr (Or.inr inStop), allocated⟩

/-- Allocated cells beside a range lie apart from all that the range joins with. -/
theorem Joins.apart (joins : chart.Joins front range back start stop)
    (member : other ∈ front ++ back) (allocated : other.allocated = true) :
    other.next ≤ (chart.joined range).offset ∨ (chart.joined range).next ≤ other.offset := by
  have owned := joins.owns_free.mpr ⟨member, allocated⟩
  have joinedFree : (chart.joined range).allocated = false := rfl
  have apart := owned.ne_of_free joinedFree
  have found := owned.1
  rw [joins.freeEq] at found
  rcases List.mem_append.mp found with inStart | rest
  · exact Or.inl (joins.startTiles.bounds inStart).2.1
  · exact Or.inr (joins.stopTiles.bounds ((List.mem_cons.mp rest).resolve_left apart)).1

end Chart

end SegregatedFit
