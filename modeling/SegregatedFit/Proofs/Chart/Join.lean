/-
This file computes what becomes of a chart when a range is replaced or freed. The cells on
both sides of a range stay, except that a range that becomes free takes the free cell in
front of it and the free cell behind it in.
-/

import SegregatedFit.Proofs.Chart

namespace SegregatedFit

namespace Chart

variable {chart : Chart} {front back inside : List Cell} {cell range : Cell}
variable {prevAllocated : Bool} {stop : Nat}

/-- A chart with a range replaced, when it is known what lies on both sides. -/
theorem replace_eq (chart : Chart) (parts : List Cell)
    (splits : range.before chart.cells = front ∧ range.after chart.cells = back) :
    chart.replace range parts =
      { chart with
        cells := front ++ parts ++ back
        order := (parts.filter (! ·.allocated)).foldr Cell.insertInto
          (range.without chart.order) } := by
  unfold replace
  rw [splits.1, splits.2]

theorem mem_foldr_insertInto {other : Cell} {parts order : List Cell} :
    other ∈ parts.foldr Cell.insertInto order ↔ other ∈ parts ∨ other ∈ order := by
  induction parts with
  | nil => simp
  | cons cell rest inductionHypothesis =>
    rw [List.foldr_cons, Cell.mem_insertInto, inductionHypothesis, List.mem_cons, or_assoc]

/-- When all free cells on both sides of a range were in the order, all are once the range is
replaced. -/
theorem indexed_replace {parts : List Cell} (frontTiles : Cell.Tiles 32 range.offset front)
    (backTiles : Cell.Tiles range.next stop back)
    (indexed : ∀ other ∈ front ++ back, other.allocated = false → other ∈ chart.order) :
    ∀ other ∈ front ++ parts ++ back, other.allocated = false →
      other ∈ (parts.filter (! ·.allocated)).foldr Cell.insertInto (range.without chart.order) := by
  intro other member free
  refine mem_foldr_insertInto.mpr ?_
  rcases List.mem_append.mp member with early | inBack
  · rcases List.mem_append.mp early with inFront | inParts
    · exact Or.inr (Cell.mem_without.mpr ⟨indexed other (List.mem_append_left _ inFront) free,
        Or.inl (frontTiles.bounds inFront).2.1⟩)
    · exact Or.inl (List.mem_filter.mpr ⟨inParts, by simp [free]⟩)
  · exact Or.inr (Cell.mem_without.mpr ⟨indexed other (List.mem_append_right _ inBack) free,
      Or.inr (backTiles.bounds inBack).1⟩)

/-- How a range that becomes free joins with the cells on both sides: `start` and `stop` are
the cells that stay as they are. -/
structure Joins (chart : Chart) (front : List Cell) (range : Cell) (back start stop : List Cell) :
    Prop where
  frontEq : front = start ++ (Cell.freeLast? front).toList
  backEq : back = (Cell.freeHead? back).toList ++ stop
  joinedEq : chart.joined range = Cell.join (Cell.freeLast? front) range (Cell.freeHead? back)
  startAllocated : Cell.lastAllocated true start = true
  startSeparated : Cell.Separated true start
  stopSeparated : Cell.Separated false stop
  startTiles : Cell.Tiles 32 (chart.joined range).offset start
  stopTiles : Cell.Tiles (chart.joined range).next chart.setting.size stop
  lowBound : (chart.joined range).offset ≤ range.offset
  highBound : range.next ≤ (chart.joined range).next
  freeEq : chart.free range =
    { chart with
      cells := start ++ chart.joined range :: stop
      order := (chart.joined range).insertInto ((chart.joined range).without chart.order) }

/-- Where the cells that join a range lie. -/
theorem tiles_join {low high : Option Cell} {start stop : List Cell} {size : Nat}
    (frontTiles : Cell.Tiles 32 range.offset (start ++ low.toList))
    (backTiles : Cell.Tiles range.next size (high.toList ++ stop)) :
    Cell.Tiles 32 (Cell.join low range high).offset start ∧
      Cell.Tiles (Cell.join low range high).next size stop ∧
      (Cell.join low range high).offset ≤ range.offset ∧
      range.next ≤ (Cell.join low range high).next ∧
      ∀ other ∈ low.toList ++ high.toList, (Cell.join low range high).offset ≤ other.offset ∧
        other.next ≤ (Cell.join low range high).next ∧ 0 < other.size := by
  obtain ⟨begins, startTiles, lowTiles⟩ := Cell.tiles_append.mp frontTiles
  obtain ⟨ends, highTiles, stopTiles⟩ := Cell.tiles_append.mp backTiles
  have offset : (Cell.join low range high).offset = begins := by
    cases low with
    | none => exact lowTiles.symm
    | some other => exact lowTiles.1
  have next : (Cell.join low range high).next = ends := by
    cases low with
    | none =>
      cases high with
      | none =>
        have here : range.next = ends := highTiles
        simpa [Cell.join, Cell.next] using here
      | some other =>
        obtain ⟨here, _, rfl⟩ := highTiles
        simp only [Cell.join, Cell.next, Option.elim_none, Option.elim_some] at here ⊢
        omega
    | some before =>
      obtain ⟨_, _, there⟩ := lowTiles
      have there : before.next = range.offset := there
      cases high with
      | none =>
        have here : range.next = ends := highTiles
        simp only [Cell.join, Cell.next, Option.elim_none, Option.elim_some] at there here ⊢
        omega
      | some other =>
        obtain ⟨here, _, rfl⟩ := highTiles
        simp only [Cell.join, Cell.next, Option.elim_some] at there here ⊢
        omega
  have low_le := lowTiles.le
  have high_le := highTiles.le
  rw [offset, next]
  refine ⟨startTiles, stopTiles, low_le, high_le, fun other member => ?_⟩
  rcases List.mem_append.mp member with inLow | inHigh
  · obtain ⟨first, last, _, large⟩ := lowTiles.bounds inLow
    unfold Cell.next at *
    omega
  · obtain ⟨first, last, _, large⟩ := highTiles.bounds inHigh
    unfold Cell.next at *
    omega

/-- A range between two rows without adjacent free cells can be freed. -/
theorem exists_joins (chart : Chart) (split : chart.cells = front ++ (inside ++ back))
    (frontTiles : Cell.Tiles 32 range.offset front)
    (backTiles : Cell.Tiles range.next chart.setting.size back)
    (within : ∀ other ∈ inside, range.offset ≤ other.offset ∧ other.next ≤ range.next ∧
      0 < other.size)
    (frontSeparated : Cell.Separated true front)
    (backSeparated : Cell.Separated prevAllocated back) :
    ∃ start stop, chart.Joins front range back start stop := by
  obtain ⟨beforeEq, afterEq⟩ := Cell.splits frontTiles backTiles within
  rw [← split] at beforeEq afterEq
  obtain ⟨start, frontEq, startAllocated, startSeparated⟩ := Cell.exists_front frontSeparated
  obtain ⟨stop, backEq, stopSeparated⟩ := Cell.exists_back backSeparated
  have joined : chart.joined range =
      Cell.join (Cell.freeLast? front) range (Cell.freeHead? back) := by
    rw [Chart.joined, beforeEq, afterEq]
  obtain ⟨startTiles, stopTiles, lowBound, highBound, sides⟩ :=
    tiles_join (frontEq ▸ frontTiles) (backEq ▸ backTiles)
  rw [← joined] at startTiles stopTiles lowBound highBound sides
  refine ⟨start, stop, frontEq, backEq, joined, startAllocated, startSeparated, stopSeparated,
    startTiles, stopTiles, lowBound, highBound, ?_⟩
  have whole : chart.cells = start ++ (((Cell.freeLast? front).toList ++ inside ++
      (Cell.freeHead? back).toList) ++ stop) := calc
    chart.cells = front ++ (inside ++ back) := split
    _ = (start ++ (Cell.freeLast? front).toList) ++
        (inside ++ ((Cell.freeHead? back).toList ++ stop)) :=
      congr (congrArg _ frontEq) (congrArg (inside ++ ·) backEq)
    _ = start ++ (((Cell.freeLast? front).toList ++ inside ++ (Cell.freeHead? back).toList) ++
        stop) := by simp only [List.append_assoc]
  have within : ∀ other ∈ (Cell.freeLast? front).toList ++ inside ++ (Cell.freeHead? back).toList,
      (chart.joined range).offset ≤ other.offset ∧ other.next ≤ (chart.joined range).next ∧
        0 < other.size := by
    intro other member
    rw [List.append_assoc] at member
    rcases List.mem_append.mp member with inLow | rest
    · exact sides other (List.mem_append_left _ inLow)
    · rcases List.mem_append.mp rest with inInside | inHigh
      · have := within other inInside
        omega
      · exact sides other (List.mem_append_right _ inHigh)
  have splits := Cell.splits startTiles stopTiles within
  rw [← whole] at splits
  unfold free
  rw [replace_eq chart _ splits]
  simp [joined, Cell.join]

/-- When all free cells on both sides of a range were in the order, all are once the range is
free. -/
theorem Joins.indexed {start stop : List Cell} (joins : chart.Joins front range back start stop)
    (indexed : ∀ other ∈ front ++ back, other.allocated = false → other ∈ chart.order) :
    ∀ other ∈ (chart.free range).cells, other.allocated = false →
      other ∈ (chart.free range).order := by
  rw [joins.freeEq]
  intro other member isFree
  refine Cell.mem_insertInto.mpr ?_
  rcases List.mem_append.mp member with inStart | later
  · have found : other ∈ front := by
      rw [joins.frontEq]
      exact List.mem_append_left _ inStart
    exact Or.inr (Cell.mem_without.mpr ⟨indexed other (List.mem_append_left _ found) isFree,
      Or.inl (joins.startTiles.bounds inStart).2.1⟩)
  · rcases List.mem_cons.mp later with same | inStop
    · exact Or.inl same
    · have found : other ∈ back := by
        rw [joins.backEq]
        exact List.mem_append_right _ inStop
      exact Or.inr (Cell.mem_without.mpr ⟨indexed other (List.mem_append_right _ found) isFree,
        Or.inr (joins.stopTiles.bounds inStop).1⟩)

end Chart

end SegregatedFit
