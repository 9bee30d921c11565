/-
This file says when a chart describes a heap, and proves that a heap follows its chart when a
range becomes free. A described heap is closed, no two of its free cells are adjacent, and all
of them are in the index. These are the invariants of the heap between two operations.
-/

import SegregatedFit.Proofs.Chart.Join
import SegregatedFit.Proofs.Heap.Coalesce

namespace SegregatedFit

/-- Whether a chart tells all that decides how a heap goes on. -/
structure Chart.Describes {σ : Type} [Source σ] {last : Nat} (chart : Chart)
    (heap : Heap σ last) : Prop where
  closed : heap.Closed chart.setting chart.cells chart.order
  separated : Cell.Separated true chart.cells
  indexed : ∀ cell ∈ chart.cells, cell.allocated = false → cell ∈ chart.order
  growing : chart.setting.Growing

namespace Chart

variable {σ : Type} [Source σ] {last : Nat} {chart next : Chart} {heap before : Heap σ last}
variable {front back inside : List Cell} {cell range : Cell} {prevAllocated : Bool}

theorem Describes.tiles (describes : chart.Describes heap) :
    Cell.Tiles 32 chart.setting.size chart.cells :=
  describes.closed.backTiles

/-! ### What the setting of a chart tells about a heap -/

theorem Describes.size_eq (describes : chart.Describes heap) :
    heap.arena.size = chart.setting.size :=
  Heap.Opened.size_eq describes.closed

theorem Describes.growths_eq (describes : chart.Describes heap) :
    heap.arena.growths = chart.setting.growths :=
  congrArg Setting.growths describes.closed.known

theorem Describes.allows_eq (describes : chart.Describes heap) (count : Nat) :
    Source.allows heap.arena.source heap.arena.size count =
      chart.setting.allows chart.setting.size count :=
  Heap.Opened.allows_eq describes.closed count

theorem Describes.config_eq (describes : chart.Describes heap) :
    heap.config = chart.setting.config :=
  congrArg Setting.config describes.closed.known

theorem Describes.remaining_eq (describes : chart.Describes heap) :
    heap.arena.remaining = chart.setting.remaining := by
  rw [← describes.closed.known]
  rfl

/-- A source grants the bytes that its chart allows. -/
theorem Describes.request_eq_ok (describes : chart.Describes heap) {count : Nat}
    (room : chart.setting.allows chart.setting.size count) :
    (Source.request heap.arena.source count).1 = .ok chart.setting.size := by
  have size_eq : Source.size heap.arena.source = chart.setting.size := describes.size_eq
  rw [Source.request_eq_ok ((describes.allows_eq count).trans room), size_eq]

/-- A source refuses the bytes that its chart does not allow. -/
theorem Describes.request_eq_error (describes : chart.Describes heap) {count : Nat}
    (refused : chart.setting.allows chart.setting.size count = false) :
    (Source.request heap.arena.source count).1 =
      .error (.outOfMemory count heap.arena.remaining) := by
  rw [Source.request_eq_error ((describes.allows_eq count).trans refused)]
  rfl

/-- Heaps whose charts have the same setting have the same size and as many growths. -/
theorem Describes.size_growths_eq (describes : chart.Describes heap)
    (described : next.Describes before) (same : next.setting = chart.setting) :
    before.size = heap.size ∧ before.arena.growths = heap.arena.growths := by
  constructor
  · exact described.size_eq.trans ((congrArg Setting.size same).trans describes.size_eq.symm)
  · exact described.growths_eq.trans
      ((congrArg Setting.growths same).trans describes.growths_eq.symm)

/-- A heap has grown once when its setting has. -/
theorem Describes.size_growths_of_grown (describes : chart.Describes heap)
    (described : next.Describes before) {growth : Nat}
    (grown : next.setting = chart.setting.grown growth) :
    before.size = heap.size + growth ∧ before.arena.growths = heap.arena.growths + 1 := by
  constructor
  · exact described.size_eq.trans ((congrArg Setting.size grown).trans
      (congrArg (· + growth) describes.size_eq.symm))
  · exact described.growths_eq.trans ((congrArg Setting.growths grown).trans
      (congrArg (· + 1) describes.growths_eq.symm))

/-! ### A range becomes free, or is replaced -/

/-- The cells of a chart around a cell. -/
theorem Describes.splits (describes : chart.Describes heap)
    (split : chart.cells = front ++ cell :: back) (begins : range.offset = cell.offset)
    (ends : range.next = cell.next) :
    range.before chart.cells = front ∧ range.after chart.cells = back := by
  have tiles := describes.tiles
  rw [split] at tiles ⊢
  obtain ⟨_, frontTiles, rfl, ⟨_, large⟩, backTiles⟩ := Cell.tiles_append.mp tiles
  refine Cell.splits (begins ▸ frontTiles) (ends ▸ backTiles) (List.forall_mem_singleton.mpr ?_)
  exact ⟨Nat.le_of_eq begins, Nat.le_of_eq ends.symm, by omega⟩

/-- A cell that is marked as free in memory, but not in the index yet, joins the index and
its free neighbours. The chart may still show other cells in its place. -/
theorem yields_free (chart : Chart) (split : chart.cells = front ++ (inside ++ back))
    (closed : before.Closed chart.setting (front ++ cell :: back) chart.order)
    (isFree : cell.allocated = false) (fresh : cell ∉ chart.order)
    (within : ∀ other ∈ inside, cell.offset ≤ other.offset ∧ other.next ≤ cell.next ∧
      0 < other.size)
    (indexed : ∀ other ∈ front ++ back, other.allocated = false → other ∈ chart.order)
    (frontSeparated : Cell.Separated true front)
    (backSeparated : Cell.Separated prevAllocated back)
    (growing : chart.setting.Growing) {Result : Type}
    {rest : Nat → Action (Heap σ last) Result} {condition : Result → Heap σ last → Prop}
    (continues : ∀ after, (chart.free cell).Describes after →
      Arena.Alters (Arena.UpdateBytes (chart.joined cell) chart.order)
        before.arena after.arena →
      (chart.joined cell).offset ≤ cell.offset → cell.next ≤ (chart.joined cell).next →
      Heap.Yields after (rest (chart.joined cell).offset) condition) :
    Heap.Yields before (do
      Heap.indexBlock cell.offset
      let block ← Heap.coalesce cell.offset
      rest block) condition := by
  obtain ⟨frontTiles, regular, backTiles⟩ := closed.tiles
  obtain ⟨start, stop, joins⟩ := exists_joins chart split frontTiles backTiles within
    frontSeparated backSeparated
  have lowFree : ∀ other, Cell.freeLast? front = some other →
      other.allocated = false ∧ other ∈ chart.order := by
    intro other found
    have isFree := Cell.free_of_freeLast? found
    refine ⟨isFree, indexed other (List.mem_append_left _ ?_) isFree⟩
    rw [joins.frontEq, found]
    exact List.mem_append_right _ List.mem_cons_self
  have highFree : ∀ other, Cell.freeHead? back = some other →
      other.allocated = false ∧ other ∈ chart.order := by
    intro other found
    have isFree := Cell.free_of_freeHead? found
    refine ⟨isFree, indexed other (List.mem_append_right _ ?_) isFree⟩
    rw [joins.backEq, found]
    exact List.mem_cons_self
  refine (Heap.Opened.yields_indexBlock closed (List.mem_append_right _
    (List.mem_append_right _ List.mem_cons_self)) isFree fresh).bind ?_
  rintro _ between ⟨joined, joinedAlters⟩
  have joined : between.Closed chart.setting ((start ++ (Cell.freeLast? front).toList) ++
      cell :: ((Cell.freeHead? back).toList ++ stop)) (cell.insertInto chart.order) := by
    rw [← joins.frontEq, ← joins.backEq]
    exact joined
  refine (joined.yields_coalesce isFree closed.ascending lowFree highFree joins.startAllocated
    joins.stopSeparated joins.joinedEq).bind ?_
  rintro _ after ⟨rfl, merged, mergedAlters⟩
  refine continues after ⟨?_, ?_, joins.indexed indexed, ?_⟩ ?_ joins.lowBound joins.highBound
  · rw [joins.freeEq]
    exact merged
  · rw [joins.freeEq]
    refine Cell.separated_append.mpr ⟨joins.startSeparated, Or.inl joins.startAllocated, ?_⟩
    rw [joins.joinedEq]
    exact joins.stopSeparated
  · rw [joins.freeEq]
    exact growing
  · refine (joinedAlters.mono fun index hit => ?_).trans mergedAlters
    have large := regular.2
    have lowBound := joins.lowBound
    have highBound := joins.highBound
    unfold Cell.next at highBound
    exact hit.updateBytes (List.forall_mem_cons.mpr
      ⟨Or.inr ⟨lowBound, by unfold Cell.next; omega⟩, fun other found => Or.inl found⟩)

/-- A heap follows its chart when a range is replaced and no free cells are adjacent. -/
theorem Describes.replace {after : Heap σ last} {parts : List Cell}
    (describes : chart.Describes before) (split : chart.cells = front ++ (inside ++ back))
    (frontTiles : Cell.Tiles 32 range.offset front)
    (insideTiles : Cell.Tiles range.offset range.next inside)
    (closed : after.Closed chart.setting (front ++ parts ++ back)
      ((parts.filter (! ·.allocated)).foldr Cell.insertInto (range.without chart.order)))
    (separated : Cell.Separated true (front ++ parts ++ back)) :
    (chart.replace range parts).Describes after := by
  have tiles := describes.tiles
  rw [split] at tiles
  obtain ⟨_, tiles, rest⟩ := Cell.tiles_append.mp tiles
  obtain rfl := tiles.stop_unique frontTiles
  obtain ⟨_, tiles, backTiles⟩ := Cell.tiles_append.mp rest
  obtain rfl := tiles.stop_unique insideTiles
  have splits := Cell.splits frontTiles backTiles fun other member => by
    obtain ⟨low, high, _, large⟩ := insideTiles.bounds member
    exact ⟨low, high, by omega⟩
  rw [← split] at splits
  rw [replace_eq chart parts splits]
  refine ⟨closed, separated, indexed_replace frontTiles backTiles fun other member free => ?_,
    describes.growing⟩
  refine describes.indexed other ?_ free
  rw [split]
  rcases List.mem_append.mp member with inFront | inBack
  · exact List.mem_append_left _ inFront
  · exact List.mem_append_right _ (List.mem_append_right _ inBack)

end Chart

end SegregatedFit
