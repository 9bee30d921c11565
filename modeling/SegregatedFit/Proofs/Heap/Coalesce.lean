/-
This file proves that coalescing joins a free cell with its free neighbours, and that nothing
else changes. The neighbours leave the index before their tags disappear in the joined cell,
and the joined cell is in the index in the end.
-/

import SegregatedFit.Heap.Coalesce
import SegregatedFit.Proofs.Heap.Gap

namespace SegregatedFit

namespace Arena

/-- The bytes that an update of a range may change: those of the range, the headers at both of
its ends, and the links of the free cells. -/
def UpdateBytes (range : Cell) (order : List Cell) (index : Nat) : Prop :=
  range.offset ≤ index + 8 ∧ index < range.next ∨ NodeBytes order index

variable {range wider : Cell} {order more : List Cell} {index : Nat}

theorem UpdateBytes.mono (hit : UpdateBytes range order index) (low : wider.offset ≤ range.offset)
    (high : range.next ≤ wider.next)
    (widens : ∀ cell ∈ order, cell ∈ more ∨
      wider.offset ≤ cell.offset ∧ cell.offset + 16 ≤ wider.next) :
    UpdateBytes wider more index := by
  rcases hit with inRange | ⟨node, member, from', to'⟩
  · exact Or.inl (by omega)
  · rcases widens node member with old | new
    · exact Or.inr ⟨node, old, from', to'⟩
    · exact Or.inl (by omega)

theorem NodeBytes.updateBytes (hit : NodeBytes order index)
    (widens : ∀ cell ∈ order, cell ∈ more ∨
      range.offset ≤ cell.offset ∧ cell.offset + 16 ≤ range.next) :
    UpdateBytes range more index :=
  UpdateBytes.mono (Or.inr hit) (Nat.le_refl _) (Nat.le_refl _) widens

end Arena

namespace Cell

theorem Tiles.large {cells : List Cell} {start stop : Nat} (tiles : Tiles start stop cells)
    (nonempty : cells ≠ []) : start + 32 ≤ stop := by
  cases cells with
  | nil => exact absurd rfl nonempty
  | cons first rest =>
    obtain ⟨rfl, ⟨_, large⟩, tiles⟩ := tiles
    have := tiles.le
    unfold next at this
    omega

end Cell

namespace Heap

variable {σ : Type} [Source σ] {last : Nat}
variable {heap before : Heap σ last} {setting : Setting}
variable {front back inside cells order : List Cell}
variable {low high : List Cell} {start stop : Nat} {prevAllocated : Bool} {cell : Cell}

/-- A cell in the gap is not in the index. -/
theorem Opened.fresh (opened : heap.Opened setting front start stop prevAllocated back order)
    (begins : start ≤ cell.offset) (ends : cell.next ≤ stop) (large : 0 < cell.size) :
    cell ∉ order := by
  intro member
  have side := (opened.bounds (opened.free cell member).1).2.2.2
  unfold Cell.next at *
  omega

namespace Closed

/-! ### Reading a closed heap -/

/-- A cell of a closed heap can be read from memory. -/
theorem shows (closed : heap.Closed setting (front ++ cell :: back) order) :
    heap.arena.Shows ⟨cell.offset, cell.tag (Cell.lastAllocated true front)⟩ := by
  refine closed.backShown _ ?_
  rw [List.append_assoc, Cell.blocks_append]
  exact List.mem_append_right _ List.mem_cons_self

/-- Cells of a closed heap lie one after the other. -/
theorem tiles (closed : heap.Closed setting (front ++ cell :: back) order) :
    Cell.Tiles 32 cell.offset front ∧ cell.Regular ∧ Cell.Tiles cell.next setting.size back := by
  obtain ⟨_, frontTiles, rfl, regular, backTiles⟩ := Cell.tiles_append.mp closed.backTiles
  exact ⟨frontTiles, regular, backTiles⟩

theorem header_eq_ok (closed : heap.Closed setting (front ++ cell :: back) order) :
    heap.arena.header cell.offset = .ok (cell.tag (Cell.lastAllocated true front)) :=
  Arena.header_eq_ok_iff.mpr closed.shows.header

theorem next_lt (closed : heap.Closed setting (front ++ cell :: back) order) :
    cell.next < wordLimit := by
  have bound := heap.arena.size_lt
  have ends := closed.tiles.2.2.le
  rw [Opened.size_eq closed] at bound
  omega

theorem nextBlock_eq_ok (closed : heap.Closed setting (front ++ cell :: back) order) :
    heap.arena.nextBlock cell.offset = .ok cell.next := by
  have size := Cell.size_tag closed.tiles.2.1 (Cell.lastAllocated true front)
  have small := closed.next_lt
  rw [Arena.nextBlock_eq_ok closed.shows.header (by rwa [size]), size]
  rfl

/-- What follows a cell is a cell or the epilogue, and knows whether the cell is allocated. -/
theorem header_next_eq_ok (closed : heap.Closed setting (front ++ cell :: back) order) :
    ∃ next, (back ++ [Cell.epilogue setting.size]).head? = some next ∧
      heap.arena.header cell.next = .ok (next.tag cell.allocated) := by
  have tiles := closed.tiles.2.2
  cases back with
  | nil =>
    have ends : cell.next = setting.size := tiles
    have shown := closed.backShown
      ⟨setting.size, (Cell.epilogue setting.size).tag cell.allocated⟩ (by
        rw [List.append_assoc, Cell.blocks_append]
        exact List.mem_append_right _ (List.mem_cons_of_mem _ List.mem_cons_self))
    rw [ends]
    exact ⟨_, rfl, Arena.header_eq_ok_iff.mpr shown.header⟩
  | cons next rest =>
    obtain ⟨begins, _⟩ := tiles
    have closed : heap.Closed setting ((front ++ [cell]) ++ next :: rest) order := by
      simpa using closed
    have read := closed.header_eq_ok
    rw [begins, Cell.lastAllocated_append] at read
    exact ⟨next, rfl, read⟩

/-- The step back from a cell leads to the free cell in front of it. -/
theorem previousBlock_eq_ok {previous : Cell}
    (closed : heap.Closed setting ((front ++ [previous]) ++ cell :: back) order)
    (free : previous.allocated = false) :
    heap.arena.previousBlock cell.offset = .ok previous.offset := by
  obtain ⟨_, _, _, regular, ends⟩ := Cell.tiles_append.mp closed.tiles.1
  have ends : previous.next = cell.offset := ends
  have closed : heap.Closed setting (front ++ previous :: (cell :: back)) order := by
    simpa using closed
  have size (flag : Bool) := Cell.size_tag regular flag
  have footer := closed.shows.footer free
  simp only [Block.next, size] at footer
  have large := regular.2
  unfold Cell.next at ends
  rw [ends] at footer
  rw [Arena.previousBlock_eq_ok footer (by omega)]
  · show Except.ok (cell.offset - (previous.tag _).size) = _
    rw [size]
    congr 1
    omega
  · show (previous.tag _).size ≤ _
    rw [size]
    omega

/-! ### Joining cells -/

/-- A range of cells that have left the index since the beginning becomes one free cell. -/
theorem yields_mergeRange {range : Cell}
    (begun : Arena.Alters (Arena.UpdateBytes range order) heap.arena before.arena)
    (closed : before.Closed setting (front ++ (inside ++ back)) (range.without order))
    (frontTiles : Cell.Tiles 32 range.offset front)
    (insideTiles : Cell.Tiles range.offset range.next inside) (nonempty : inside ≠ [])
    (last : Cell.lastAllocated (Cell.lastAllocated true front) inside = false)
    (free : range.allocated = false) {flag : Bool}
    (truthful : flag = Cell.lastAllocated true front) :
    Heap.Yields before (mergeRange range.offset range.size flag) fun answer after =>
      answer = range.offset ∧
        after.Closed setting (front ++ range :: back) (range.insertInto (range.without order)) ∧
        Arena.Alters (Arena.UpdateBytes range order) heap.arena after.arena := by
  have whole : (⟨range.offset, range.size, false⟩ : Cell) = range := by rw [← free]
  have large := insideTiles.large nonempty
  have startWhole := (frontTiles.aligned rfl).1
  have stopWhole := (insideTiles.aligned startWhole).1
  have unused : ∀ cell ∈ inside, cell ∉ range.without order := by
    intro cell member found
    have outside := (Cell.mem_without.mp found).2
    obtain ⟨low, high, _, large⟩ := insideTiles.bounds member
    unfold Cell.next at *
    omega
  have opened := closed.cut frontTiles insideTiles unused
  have fresh : range ∉ range.without order := by
    refine opened.fresh (Nat.le_refl _) (Nat.le_refl _) ?_
    unfold Cell.next at large
    omega
  rw [last] at opened
  unfold Cell.next at large stopWhole opened
  unfold mergeRange
  refine (opened.yields_setFreeTags truthful (by omega) (by omega) (Nat.le_refl _)).bind ?_
  rintro _ between ⟨filled, filledAlters⟩
  rw [whole] at filled
  refine (filled.yields_indexBlock (List.mem_append_left _ (List.mem_append_right _
    List.mem_cons_self)) free fresh).bind ?_
  rintro _ after ⟨indexed, indexedAlters⟩
  refine Heap.yields_pure ⟨rfl, ?_, ?_⟩
  · have closed := indexed.close (by simp [Cell.lastAllocated, free])
    rwa [List.append_assoc] at closed
  · refine begun.trans ((filledAlters.mono fun index hit => Or.inl ?_).trans
      (indexedAlters.mono fun index hit => hit.updateBytes
        (List.forall_mem_cons.mpr ⟨Or.inr ?_, fun other found => ?_⟩)))
    · unfold Cell.next
      omega
    · unfold Cell.next
      omega
    · exact Or.inl ((Cell.without_sublist range order).subset found)

/-- A cell that has joined the order does not overlap with the others. -/
theorem apart_of_insertInto (closed : heap.Closed setting cells (cell.insertInto order)) :
    ∀ other ∈ order, other.next ≤ cell.offset ∨ cell.next ≤ other.offset := by
  intro other member
  have distinct := (Cell.insertInto_perm cell order).nodup_iff.mp closed.distinct
  have found := (closed.free other (Cell.mem_insertInto.mpr (Or.inr member))).1
  have here := (closed.free cell (Cell.mem_insertInto.mpr (Or.inl rfl))).1
  refine (Opened.apart closed found here).resolve_left ?_
  rintro rfl
  exact (List.nodup_cons.mp distinct).1 member

/-- A cell that has joined the order leaves it again. -/
theorem yields_unindexBlock {range : Cell}
    (closed : before.Closed setting cells (cell.insertInto order))
    (ascending : Cell.Ascending order)
    (inRange : range.offset ≤ cell.offset ∧ cell.next ≤ range.next) :
    Heap.Yields before (unindexBlock cell.offset) fun _ after =>
      after.Closed setting cells order ∧
        Arena.Alters (Arena.UpdateBytes range order) before.arena after.arena := by
  have mine : cell ∈ cell.insertInto order := Cell.mem_insertInto.mpr (Or.inl rfl)
  have large := (Opened.bounds closed (closed.free cell mine).1).1.2
  refine (Opened.yields_unindexBlock closed mine).mono ?_
  rintro _ after ⟨left, alters⟩
  rw [Cell.without_insertInto (by omega) ascending closed.apart_of_insertInto] at left
  refine ⟨left, alters.mono fun index hit => hit.updateBytes fun other found => ?_⟩
  rcases Cell.mem_insertInto.mp found with rfl | old
  · unfold Cell.next at *
    exact Or.inr ⟨inRange.1, by omega⟩
  · exact Or.inl old

/-- A free neighbour leaves the order before its range is merged. -/
theorem yields_unindexNeighbour (range : Cell) {other : Cell} {remaining : List Cell}
    (closed : before.Closed setting cells remaining) (member : other ∈ remaining)
    (fewer : remaining ⊆ order) :
    Heap.Yields before (unindexBlock other.offset) fun _ after =>
      after.Closed setting cells (other.without remaining) ∧
        Arena.Alters (Arena.UpdateBytes range order) before.arena after.arena := by
  refine (Opened.yields_unindexBlock closed member).mono ?_
  rintro _ after ⟨left, alters⟩
  exact ⟨left, alters.mono fun index hit => hit.updateBytes fun node found => Or.inl (fewer found)⟩

/-! ### The four cases of coalescing -/

section

variable {low high range : Cell}

/-- What follows a cell is allocated, unless it is a free cell. -/
theorem allocated_of_separated {next : Cell} (separated : Cell.Separated false back)
    (following : (back ++ [Cell.epilogue setting.size]).head? = some next) :
    next.allocated = true := by
  cases back with
  | nil =>
    obtain rfl : _ = next := by simpa using following
    rfl
  | cons first rest =>
    obtain rfl : first = next := by simpa using following
    exact separated.1.resolve_left Bool.false_ne_true

theorem yields_coalesce_next
    (closed : before.Closed setting (front ++ cell :: high :: back) (cell.insertInto order))
    (frontAllocated : Cell.lastAllocated true front = true)
    (highFree : high.allocated = false) (highIndexed : high ∈ order)
    (ascending : Cell.Ascending order) (joined : range = Cell.join none cell (some high)) :
    Heap.Yields before (coalesce cell.offset) fun answer after =>
      answer = range.offset ∧
        after.Closed setting (front ++ range :: back) (range.insertInto (range.without order)) ∧
        Arena.Alters (Arena.UpdateBytes range order) before.arena after.arena := by
  obtain ⟨frontTiles, regular, begins, highRegular, backTiles⟩ := closed.tiles
  have apart := closed.apart_of_insertInto
  obtain ⟨next, following, nextHeader⟩ := closed.header_next_eq_ok
  obtain rfl : high = next := by simpa using following
  have cellSize (flag : Bool) := Cell.size_tag regular flag
  have highSize (flag : Bool) := Cell.size_tag highRegular flag
  have bound := before.arena.size_lt
  rw [Opened.size_eq closed] at bound
  have ends := backTiles.le
  have rangeOffset : cell.offset = range.offset := by rw [joined]; rfl
  have rangeSize : cell.size + high.size = range.size := by simp [joined, Cell.join]
  have rangeNext : range.next = high.next := by
    unfold Cell.next at *
    omega
  unfold coalesce
  refine yields_bind_inspectArena closed.header_eq_ok ?_
  refine yields_bind_inspectArena closed.nextBlock_eq_ok ?_
  refine yields_bind_inspectArena nextHeader ?_
  simp only [Cell.prevAllocated_tag, frontAllocated, Cell.allocated_tag, highFree]
  have inRange : range.offset ≤ cell.offset ∧ cell.next ≤ range.next := by
    unfold Cell.next at *
    omega
  refine (closed.yields_unindexBlock ascending inRange).bind ?_
  rintro _ one ⟨oneClosed, oneAlters⟩
  rw [← begins]
  refine (oneClosed.yields_unindexNeighbour range highIndexed (List.Subset.refl _)).bind ?_
  rintro _ two ⟨twoClosed, twoAlters⟩
  have same : high.without order = range.without order := by
    refine Cell.without_congr fun other member => ?_
    have := apart other member
    have := (Opened.bounds oneClosed (oneClosed.free other member).1).1.2
    unfold Cell.next at *
    omega
  have twoClosed : two.Closed setting (front ++ ([cell, high] ++ back)) (range.without order) :=
    same ▸ twoClosed
  rw [cellSize, highSize]
  refine Heap.yields_bind_lift (Word.add_eq_ok_iff.mpr ⟨?_, rfl⟩) ?_
  · unfold Cell.next at *
    omega
  · rw [rangeOffset, rangeSize]
    exact yields_mergeRange (oneAlters.trans twoAlters) twoClosed (rangeOffset ▸ frontTiles)
      ⟨rangeOffset, regular, begins, highRegular, rangeNext.symm⟩ (List.cons_ne_nil _ _) highFree
      (by rw [joined]; rfl) frontAllocated.symm

theorem yields_coalesce_previous
    (closed : before.Closed setting ((front ++ [low]) ++ cell :: back) (cell.insertInto order))
    (free : cell.allocated = false) (backSeparated : Cell.Separated false back)
    (lowFree : low.allocated = false) (lowIndexed : low ∈ order)
    (ascending : Cell.Ascending order) (joined : range = Cell.join (some low) cell none) :
    Heap.Yields before (coalesce cell.offset) fun answer after =>
      answer = range.offset ∧
        after.Closed setting (front ++ range :: back) (range.insertInto (range.without order)) ∧
        Arena.Alters (Arena.UpdateBytes range order) before.arena after.arena := by
  obtain ⟨lowTiles, regular, backTiles⟩ := closed.tiles
  obtain ⟨_, frontTiles, rfl, lowRegular, lowEnds⟩ := Cell.tiles_append.mp lowTiles
  have lowEnds : low.next = cell.offset := lowEnds
  have apart := closed.apart_of_insertInto
  obtain ⟨next, following, nextHeader⟩ := closed.header_next_eq_ok
  have behind := allocated_of_separated backSeparated following
  have cellSize (flag : Bool) := Cell.size_tag regular flag
  have lowSize (flag : Bool) := Cell.size_tag lowRegular flag
  have bound := before.arena.size_lt
  rw [Opened.size_eq closed] at bound
  have ends := backTiles.le
  have rangeOffset : low.offset = range.offset := by rw [joined]; rfl
  have rangeSize : low.size + cell.size = range.size := by simp [joined, Cell.join]
  have rangeNext : range.next = cell.next := by
    unfold Cell.next at *
    omega
  have split : (front ++ [low]) ++ cell :: back = front ++ ([low, cell] ++ back) := by simp
  have lowClosed : before.Closed setting (front ++ low :: (cell :: back))
      (cell.insertInto order) := by
    rwa [split] at closed
  unfold coalesce
  refine yields_bind_inspectArena closed.header_eq_ok ?_
  refine yields_bind_inspectArena closed.nextBlock_eq_ok ?_
  refine yields_bind_inspectArena nextHeader ?_
  simp only [Cell.prevAllocated_tag, Cell.lastAllocated_append, Cell.lastAllocated, lowFree,
    Cell.allocated_tag, behind]
  refine yields_bind_inspectArena (closed.previousBlock_eq_ok lowFree) ?_
  refine yields_bind_inspectArena lowClosed.header_eq_ok ?_
  have inRange : range.offset ≤ cell.offset ∧ cell.next ≤ range.next := by
    unfold Cell.next at *
    omega
  refine (closed.yields_unindexBlock ascending inRange).bind ?_
  rintro _ one ⟨oneClosed, oneAlters⟩
  refine (oneClosed.yields_unindexNeighbour range lowIndexed (List.Subset.refl _)).bind ?_
  rintro _ two ⟨twoClosed, twoAlters⟩
  have same : low.without order = range.without order := by
    refine Cell.without_congr fun other member => ?_
    have := apart other member
    have := (Opened.bounds oneClosed (oneClosed.free other member).1).1.2
    unfold Cell.next at *
    omega
  have twoClosed : two.Closed setting (front ++ ([low, cell] ++ back)) (range.without order) :=
    same ▸ split ▸ twoClosed
  rw [cellSize, lowSize]
  refine Heap.yields_bind_lift (Word.add_eq_ok_iff.mpr ⟨?_, rfl⟩) ?_
  · unfold Cell.next at *
    omega
  · rw [rangeOffset, rangeSize]
    exact yields_mergeRange (oneAlters.trans twoAlters) twoClosed (rangeOffset ▸ frontTiles)
      ⟨rangeOffset, lowRegular, lowEnds.symm, regular, rangeNext.symm⟩ (List.cons_ne_nil _ _) free
      (by rw [joined]; rfl) rfl

theorem yields_coalesce_both
    (closed : before.Closed setting ((front ++ [low]) ++ cell :: high :: back)
      (cell.insertInto order))
    (lowFree : low.allocated = false) (lowIndexed : low ∈ order)
    (highFree : high.allocated = false) (highIndexed : high ∈ order)
    (ascending : Cell.Ascending order) (joined : range = Cell.join (some low) cell (some high)) :
    Heap.Yields before (coalesce cell.offset) fun answer after =>
      answer = range.offset ∧
        after.Closed setting (front ++ range :: back) (range.insertInto (range.without order)) ∧
        Arena.Alters (Arena.UpdateBytes range order) before.arena after.arena := by
  obtain ⟨lowTiles, regular, begins, highRegular, backTiles⟩ := closed.tiles
  obtain ⟨_, frontTiles, rfl, lowRegular, lowEnds⟩ := Cell.tiles_append.mp lowTiles
  have lowEnds : low.next = cell.offset := lowEnds
  have apart := closed.apart_of_insertInto
  obtain ⟨next, following, nextHeader⟩ := closed.header_next_eq_ok
  obtain rfl : high = next := by simpa using following
  have cellSize (flag : Bool) := Cell.size_tag regular flag
  have lowSize (flag : Bool) := Cell.size_tag lowRegular flag
  have highSize (flag : Bool) := Cell.size_tag highRegular flag
  have bound := before.arena.size_lt
  rw [Opened.size_eq closed] at bound
  have ends := backTiles.le
  have rangeOffset : low.offset = range.offset := by rw [joined]; rfl
  have rangeSize : low.size + cell.size + high.size = range.size := by simp [joined, Cell.join]
  have rangeNext : range.next = high.next := by
    unfold Cell.next at *
    omega
  have split : (front ++ [low]) ++ cell :: high :: back = front ++ ([low, cell, high] ++ back) := by
    simp
  have lowClosed : before.Closed setting (front ++ low :: (cell :: high :: back))
      (cell.insertInto order) := by
    rwa [split] at closed
  unfold coalesce
  refine yields_bind_inspectArena closed.header_eq_ok ?_
  refine yields_bind_inspectArena closed.nextBlock_eq_ok ?_
  refine yields_bind_inspectArena nextHeader ?_
  simp only [Cell.prevAllocated_tag, Cell.lastAllocated_append, Cell.lastAllocated, lowFree,
    Cell.allocated_tag, highFree]
  refine yields_bind_inspectArena (closed.previousBlock_eq_ok lowFree) ?_
  refine yields_bind_inspectArena lowClosed.header_eq_ok ?_
  have inRange : range.offset ≤ cell.offset ∧ cell.next ≤ range.next := by
    unfold Cell.next at *
    omega
  refine (closed.yields_unindexBlock ascending inRange).bind ?_
  rintro _ one ⟨oneClosed, oneAlters⟩
  refine (oneClosed.yields_unindexNeighbour range lowIndexed (List.Subset.refl _)).bind ?_
  rintro _ two ⟨twoClosed, twoAlters⟩
  have highLeft : high ∈ low.without order := by
    refine Cell.mem_without.mpr ⟨highIndexed, Or.inr ?_⟩
    unfold Cell.next at *
    omega
  rw [← begins]
  refine (twoClosed.yields_unindexNeighbour range highLeft
    (Cell.without_sublist low order).subset).bind ?_
  rintro _ three ⟨threeClosed, threeAlters⟩
  have same : high.without (low.without order) = range.without order := by
    unfold Cell.without
    rw [List.filter_filter]
    refine List.filter_congr fun other member => ?_
    have := apart other member
    have := (Opened.bounds oneClosed (oneClosed.free other member).1).1.2
    rw [← Bool.decide_and]
    refine decide_eq_decide.mpr ?_
    unfold Cell.next at *
    omega
  have threeClosed : three.Closed setting (front ++ ([low, cell, high] ++ back))
      (range.without order) := same ▸ split ▸ threeClosed
  rw [cellSize, lowSize, highSize]
  refine Heap.yields_bind_lift (Word.add_eq_ok_iff.mpr ⟨?_, rfl⟩) ?_
  · unfold Cell.next at *
    omega
  · refine Heap.yields_bind_lift (Word.add_eq_ok_iff.mpr ⟨?_, rfl⟩) ?_
    · unfold Cell.next at *
      omega
    · rw [rangeOffset, rangeSize]
      exact yields_mergeRange ((oneAlters.trans twoAlters).trans threeAlters) threeClosed
        (rangeOffset ▸ frontTiles)
        ⟨rangeOffset, lowRegular, lowEnds.symm, regular, begins, highRegular, rangeNext.symm⟩
        (List.cons_ne_nil _ _) highFree (by rw [joined]; rfl) rfl

/-- A free cell without free neighbours stays as it is. -/
theorem yields_coalesce_alone (closed : before.Closed setting (front ++ cell :: back) order)
    (frontAllocated : Cell.lastAllocated true front = true)
    (backSeparated : Cell.Separated false back) {condition : Nat → Heap σ last → Prop}
    (holds : condition cell.offset before) :
    Heap.Yields before (coalesce cell.offset) condition := by
  obtain ⟨next, following, nextHeader⟩ := closed.header_next_eq_ok
  have behind := allocated_of_separated backSeparated following
  unfold coalesce
  refine yields_bind_inspectArena closed.header_eq_ok ?_
  refine yields_bind_inspectArena closed.nextBlock_eq_ok ?_
  refine yields_bind_inspectArena nextHeader ?_
  simp only [Cell.prevAllocated_tag, frontAllocated, Cell.allocated_tag, behind]
  exact Heap.yields_pure holds

end

/-- Coalescing joins a free cell, which has just joined the index, with its free neighbours. -/
theorem yields_coalesce {low high : Option Cell} {range : Cell}
    (closed : before.Closed setting ((front ++ low.toList) ++ cell :: (high.toList ++ back))
      (cell.insertInto order))
    (free : cell.allocated = false) (ascending : Cell.Ascending order)
    (lowFree : ∀ other, low = some other → other.allocated = false ∧ other ∈ order)
    (highFree : ∀ other, high = some other → other.allocated = false ∧ other ∈ order)
    (frontAllocated : Cell.lastAllocated true front = true)
    (backSeparated : Cell.Separated false back) (joined : range = Cell.join low cell high) :
    Heap.Yields before (coalesce cell.offset) fun answer after =>
      answer = range.offset ∧
        after.Closed setting (front ++ range :: back) (range.insertInto (range.without order)) ∧
        Arena.Alters (Arena.UpdateBytes range order) before.arena after.arena := by
  cases low with
  | none =>
    rw [Option.toList_none, List.append_nil] at closed
    cases high with
    | none =>
      have whole : range = cell := by
        obtain ⟨offset, size, allocated⟩ := cell
        obtain rfl : allocated = false := free
        simp [joined, Cell.join]
      subst whole
      refine yields_coalesce_alone closed frontAllocated backSeparated
        ⟨rfl, ?_, Arena.Alters.refl _ _⟩
      rwa [Cell.without_eq_self closed.apart_of_insertInto]
    | some high =>
      obtain ⟨isFree, indexed⟩ := highFree high rfl
      exact closed.yields_coalesce_next frontAllocated isFree indexed ascending joined
  | some low =>
    obtain ⟨isFree, indexed⟩ := lowFree low rfl
    cases high with
    | none =>
      exact closed.yields_coalesce_previous free backSeparated isFree indexed ascending joined
    | some high =>
      obtain ⟨highIsFree, highIndexed⟩ := highFree high rfl
      exact closed.yields_coalesce_both isFree indexed highIsFree highIndexed ascending joined

end Closed

end Heap

end SegregatedFit
