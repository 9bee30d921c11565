/-
This file proves that a heap enlarges an allocated block in place as its chart does. First the
block after it has to be free and large enough, which growth at the end of the arena may
achieve; then both blocks become one, which is cut down again.
-/

import SegregatedFit.Heap.Resize
import SegregatedFit.Proofs.Heap.Trim

namespace SegregatedFit

namespace Heap

variable {σ : Type} [Source σ] {last : Nat} {before : Heap σ last} {setting : Setting}
variable {front back order : List Cell} {cell next : Cell}

/-- In memory, an allocated block takes the free block after it in. -/
theorem Closed.yields_absorbNext
    (closed : before.Closed setting (front ++ cell :: next :: back) order)
    (nextMember : next ∈ order) (unused : cell ∉ order) :
    Heap.Yields before (absorbNext cell.offset cell.size) fun answer after =>
      answer = cell.size + next.size ∧
        after.Closed setting (front ++ ⟨cell.offset, cell.size + next.size, true⟩ :: back)
          (next.without order) ∧
        Arena.Alters (fun index => cell.offset ≤ index + 8 ∧ index < cell.offset ∨
          next.next ≤ index + 8 ∧ index < next.next ∨ Arena.NodeBytes order index)
          before.arena after.arena := by
  obtain ⟨frontTiles, regular, begins, nextRegular, backTiles⟩ := closed.tiles
  obtain ⟨nextTag, following, nextHeader⟩ := closed.header_next_eq_ok
  obtain rfl : next = nextTag := by simpa using following
  have bound := before.arena.size_lt
  rw [Opened.size_eq closed] at bound
  have ends := backTiles.le
  have cellNext : next.offset = cell.offset + cell.size := begins
  have nextNext : next.next = next.offset + next.size := rfl
  unfold absorbNext
  refine yields_bind_inspectArena closed.nextBlock_eq_ok ?_
  refine yields_bind_inspectArena nextHeader ?_
  rw [← begins, Cell.size_tag nextRegular]
  refine (Opened.yields_unindexBlock closed nextMember).bind ?_
  rintro _ one ⟨left, oneAlters⟩
  refine Heap.yields_bind_lift (Word.add_eq_ok_iff.mpr ⟨by omega, rfl⟩) ?_
  have rearranged : front ++ cell :: next :: back = (front ++ [cell]) ++ ([next] ++ back) := by simp
  have left : one.Closed setting ((front ++ [cell]) ++ ([next] ++ back)) (next.without order) :=
    rearranged ▸ left
  have lowTiles : Cell.Tiles 32 next.offset (front ++ [cell]) :=
    Cell.tiles_append.mpr ⟨_, frontTiles, rfl, regular, begins.symm⟩
  have nextTiles : Cell.Tiles next.offset next.next [next] := ⟨rfl, nextRegular, rfl⟩
  have nextHeader := left.shows.header
  have opened := left.cut lowTiles nextTiles (List.forall_mem_singleton.mpr fun inside => by
    have outside := (Cell.mem_without.mp inside).2
    have large := nextRegular.2
    omega)
  refine (opened.yields_setPrevAllocated nextHeader ?_ true).bind ?_
  · rw [Cell.size_tag nextRegular]
    rfl
  rintro _ two ⟨told, twoAlters⟩
  -- The gap is widened to both cells, since only the header of the first is left of them.
  have header := Arena.header_eq_ok_iff.mpr (told.frontShown
    ⟨cell.offset, cell.tag (Cell.lastAllocated true front)⟩ (by
      rw [Cell.blocks_append]
      exact List.mem_append_right _ List.mem_cons_self)).header
  have widened := told.widen fun inside => unused (Cell.mem_without.mp inside).1
  have large := regular.2
  have whole : (cell.size + next.size) % 16 = 0 := by
    have := regular.1
    have := nextRegular.1
    omega
  refine (widened.yields_setBlockSize header whole (by omega) (by omega)).bind ?_
  rintro _ three ⟨filled, threeAlters⟩
  have sum : cell.offset + (cell.size + next.size) = next.next := by omega
  rw [sum] at filled
  have merged := filled.close (by simp [Cell.lastAllocated])
  rw [List.append_assoc] at merged
  refine Heap.yields_pure ⟨rfl, merged, ?_⟩
  exact ((oneAlters.mono fun index hit => Or.inr (Or.inr hit)).trans
    (twoAlters.mono fun index hit => Or.inr (Or.inl hit))).trans
    (threeAlters.mono fun index hit => Or.inl hit)

end Heap

namespace Chart

variable {σ : Type} [Source σ] {last : Nat} {chart reserved : Chart} {before : Heap σ last}
variable {front back : List Cell} {cell next other : Cell} {size : Nat}

/-- An allocated cell is enlarged by the free cell after it. -/
theorem Describes.enlarged_eq (describes : chart.Describes before)
    (split : chart.cells = front ++ cell :: next :: back) (nextFree : next.allocated = false) :
    chart.enlarged cell = ⟨cell.offset, cell.size + next.size, true⟩ := by
  obtain ⟨_, after_eq⟩ := describes.splits split rfl rfl
  unfold enlarged
  rw [after_eq]
  simp [nextFree]

/-- The enlarged cell has the tiles of both cells. -/
theorem Describes.tiles_enlarged (describes : chart.Describes before)
    (split : chart.cells = front ++ cell :: next :: back) (nextFree : next.allocated = false) :
    Cell.Tiles 32 (chart.enlarged cell).offset front ∧
      Cell.Tiles (chart.enlarged cell).offset (chart.enlarged cell).next [cell, next] ∧
      Cell.Tiles (chart.enlarged cell).next chart.setting.size back := by
  have tiles := describes.tiles
  rw [split] at tiles
  obtain ⟨_, frontTiles, rfl, regular, begins, nextRegular, backTiles⟩ :=
    Cell.tiles_append.mp tiles
  have begins : next.offset = cell.offset + cell.size := begins
  have ends : next.next = (chart.enlarged cell).next := by
    rw [describes.enlarged_eq split nextFree]
    simp only [Cell.next]
    omega
  rw [ends] at backTiles
  exact ⟨frontTiles, ⟨rfl, regular, begins, nextRegular, ends⟩, backTiles⟩

/-- No free cell but the one that is taken in overlaps with the enlarged cell. -/
theorem Describes.without_enlarged (describes : chart.Describes before)
    (split : chart.cells = front ++ cell :: next :: back) (allocated : cell.allocated = true)
    (nextFree : next.allocated = false) :
    next.without chart.order = (chart.enlarged cell).without chart.order := by
  have member : cell ∈ chart.cells := by
    rw [split]
    simp
  obtain ⟨_, ⟨_, _, begins, _, ends⟩, _⟩ := describes.tiles_enlarged split nextFree
  have begin_eq : (chart.enlarged cell).offset = cell.offset := rfl
  refine Cell.without_congr fun other found => ?_
  have inside := (describes.closed.free other found).1
  have outside := (describes.tiles.apart inside member).resolve_left fun same =>
    describes.not_mem_order allocated (same ▸ found)
  obtain ⟨_, _, _, otherLarge⟩ := describes.tiles.bounds inside
  rw [begin_eq, ← ends]
  unfold Cell.next at *
  omega

/-- An allocated block takes the free block after it in. -/
theorem Describes.yields_absorbNext (describes : chart.Describes before)
    (split : chart.cells = front ++ cell :: next :: back) (allocated : cell.allocated = true)
    (nextFree : next.allocated = false) :
    Heap.Yields before (Heap.absorbNext cell.offset cell.size) fun answer after =>
      answer = (chart.enlarged cell).size ∧
        (chart.replace (chart.enlarged cell) [chart.enlarged cell]).Describes after ∧
        Arena.Alters (fun index => cell.offset ≤ index + 8 ∧ index < cell.offset ∨
          next.next ≤ index + 8 ∧ index < next.next ∨ Arena.NodeBytes chart.order index)
          before.arena after.arena := by
  have closed := describes.closed
  have separated := describes.separated
  rw [split] at closed separated
  have nextMember := describes.indexed next (by rw [split]; simp) nextFree
  refine (closed.yields_absorbNext nextMember (describes.not_mem_order allocated)).mono ?_
  rintro _ after ⟨rfl, merged, alters⟩
  obtain ⟨frontTiles, insideTiles, _⟩ := describes.tiles_enlarged split nextFree
  have split : chart.cells = front ++ ([cell, next] ++ back) := split
  rw [describes.without_enlarged split allocated nextFree] at merged
  rw [← describes.enlarged_eq split nextFree, List.append_cons] at merged
  refine ⟨?_, describes.replace split frontTiles insideTiles merged ?_, alters⟩
  · rw [describes.enlarged_eq split nextFree]
  · obtain ⟨frontSeparated, _, _, backSeparated⟩ := Cell.separated_append.mp separated
    refine Cell.separated_append.mpr ⟨Cell.separated_append.mpr ⟨frontSeparated,
      Or.inr rfl, trivial⟩, ?_⟩
    rw [Cell.lastAllocated_append]
    exact backSeparated.of_allocated

/-- The free cell behind a cell makes up the difference to the enlarged cell. -/
theorem Describes.exists_enlarged (describes : chart.Describes before)
    (split : chart.cells = front ++ cell :: back) :
    ∃ stop, back = (Cell.freeHead? back).toList ++ stop ∧
      (chart.enlarged cell).size = cell.size + (Cell.freeHead? back).elim 0 (·.size) ∧
      Cell.Tiles (chart.enlarged cell).next chart.setting.size stop := by
  have tiles := describes.tiles
  have separated := describes.separated
  rw [split] at tiles separated
  obtain ⟨_, _, rfl, _, backTiles⟩ := Cell.tiles_append.mp tiles
  obtain ⟨_, _, backSeparated⟩ := Cell.separated_append.mp separated
  obtain ⟨_, after_eq⟩ := describes.splits split rfl rfl
  obtain ⟨stop, backEq, _⟩ := Cell.exists_back backSeparated
  have size : (chart.enlarged cell).size = cell.size + (Cell.freeHead? back).elim 0 (·.size) := by
    unfold enlarged
    rw [after_eq]
  refine ⟨stop, backEq, size, ?_⟩
  rw [backEq] at backTiles
  obtain ⟨middle, headTiles, stopTiles⟩ := Cell.tiles_append.mp backTiles
  have next : (chart.enlarged cell).next = middle := by
    have begin_eq : (chart.enlarged cell).offset = cell.offset := rfl
    unfold Cell.next at headTiles ⊢
    rw [begin_eq, size]
    cases head : Cell.freeHead? back with
    | none =>
      rw [head] at headTiles
      exact headTiles
    | some next =>
      rw [head] at headTiles
      obtain ⟨begins, _, ends⟩ := headTiles
      have ends : next.offset + next.size = middle := ends
      simp only [Option.elim_some]
      omega
  rwa [next]

/-- When at most one free cell lies behind a cell, growth makes it larger, or adds one. -/
theorem Describes.cells_extend (describes : chart.Describes before)
    (split : chart.cells = front ++ cell :: back) (allocated : cell.allocated = true)
    (atEnd : back = (Cell.freeHead? back).toList) {range : Cell}
    (extended : chart.extend size = (.ok range, reserved)) :
    ∃ growth, alignUp? (max size chart.setting.config.chunkSize) = some growth ∧
      reserved.setting = chart.setting.grown growth ∧ reserved.cells = front ++ [cell, range] ∧
      range.allocated = false ∧
      range.size = (Cell.freeHead? back).elim 0 (·.size) + growth := by
  obtain ⟨growth, start, stop, rounded, joins, rfl, rfl⟩ :=
    describes.exists_joins_of_extend extended
  have stopEq : stop = [] := joins.backEq.symm
  have joinedEq := joins.joinedEq
  have frontEq := joins.frontEq
  have lastEq : Cell.freeLast? chart.cells = Cell.freeHead? back ∧ start = front ++ [cell] := by
    rw [split] at frontEq ⊢
    cases head : Cell.freeHead? back with
    | none =>
      rw [head] at atEnd
      obtain rfl : back = [] := atEnd
      have last : Cell.freeLast? (front ++ [cell]) = none := by
        simp [allocated]
      rw [last, Option.toList_none, List.append_nil] at frontEq
      exact ⟨last, frontEq.symm⟩
    | some next =>
      rw [head] at atEnd
      obtain rfl : back = [next] := atEnd
      have nextFree := Cell.free_of_freeHead? head
      have rearranged : front ++ [cell, next] = (front ++ [cell]) ++ [next] := by simp
      have last : Cell.freeLast? ((front ++ [cell]) ++ [next]) = some next := by
        rw [Cell.freeLast?_concat, nextFree]
        rfl
      rw [rearranged, last] at frontEq
      rw [rearranged]
      exact ⟨last, (List.append_cancel_right frontEq).symm⟩
  refine ⟨growth, rounded, rfl, ?_, rfl, ?_⟩
  · rw [joins.freeEq, stopEq, lastEq.2]
    simp
  · rw [joinedEq, lastEq.1]
    rfl

/-- Where room could be made behind a cell, there is a large enough free cell now, and nobody
lost anything. -/
theorem Describes.exists_reserved (describes : chart.Describes before) (owns : chart.Owns cell)
    (short : cell.size < size) (made : chart.reserve? cell size = some reserved) :
    ∃ front next rest, reserved.cells = front ++ cell :: next :: rest ∧
      next.allocated = false ∧ size ≤ cell.size + next.size ∧
      ∀ other, reserved.Owns other ↔ chart.Owns other := by
  obtain ⟨front, back, split⟩ := List.append_of_mem owns.1
  obtain ⟨stop, backEq, enough, stopTiles⟩ := describes.exists_enlarged split
  unfold reserve? at made
  split at made
  · cases made
    cases head : Cell.freeHead? back with
    | none =>
      rw [head, Option.elim_none] at enough
      omega
    | some next =>
      rw [head] at enough backEq
      refine ⟨front, next, stop, ?_, Cell.free_of_freeHead? head, ?_, fun other => Iff.rfl⟩
      · rw [split, backEq]
        rfl
      · simp only [Option.elim_some] at enough
        omega
  · split at made
    · rename_i scarce atEnd
      cases result : chart.extend (size - (chart.enlarged cell).size) with
      | mk outcome grown =>
        rw [result] at made
        cases outcome with
        | error refusal => cases made
        | ok range =>
          cases made
          have atEnd : back = (Cell.freeHead? back).toList := by
            rw [atEnd] at stopTiles
            obtain rfl := stopTiles.eq_nil
            rwa [List.append_nil] at backEq
          obtain ⟨growth, rounded, _, cells, free, large⟩ :=
            describes.cells_extend split owns.2 atEnd result
          obtain ⟨_, _, least, _⟩ := alignUp?_eq_some_iff.mp rounded
          refine ⟨front, range, [], cells, free, by omega, fun other => ?_⟩
          exact (describes.owns_extend result).1
    · cases made

/-- Whether memory answers as the chart does when room is made behind a cell, and spares all
payloads. Where no room could be made, it is as before. -/
structure Reserves (chart : Chart) (cell : Cell) (size : Nat) (before : Heap σ last)
    (answer : Bool) (after : Heap σ last) : Prop where
  answered : answer = (chart.reserve? cell size).isSome
  unchanged : chart.reserve? cell size = none → after = before
  described : ∀ reserved, chart.reserve? cell size = some reserved → reserved.Describes after
  spares : ∀ reserved, chart.reserve? cell size = some reserved → ∀ other, chart.Owns other →
    Arena.Spares other before.arena after.arena

theorem Reserves.of_none {after : Heap σ last} (reserve : chart.reserve? cell size = none)
    (unchanged : after = before) : chart.Reserves cell size before false after where
  answered := by rw [reserve]; rfl
  unchanged _ := unchanged
  described _ found := by cases reserve.symm.trans found
  spares _ found := by cases reserve.symm.trans found

theorem Reserves.of_some {after : Heap σ last} (reserve : chart.reserve? cell size = some reserved)
    (described : reserved.Describes after)
    (spares : ∀ other, chart.Owns other → Arena.Spares other before.arena after.arena) :
    chart.Reserves cell size before true after where
  answered := by rw [reserve]; rfl
  unchanged impossible := by cases reserve.symm.trans impossible
  described _ found := by
    cases reserve.symm.trans found
    exact described
  spares _ _ := spares

/-- Growth is tried only where the enlarged cell is the last one. -/
theorem Describes.yields_reserve (describes : chart.Describes before) (cell : Cell) (size : Nat) :
    Heap.Yields before (if size ≤ (chart.enlarged cell).size then pure true
      else do
        let stop ← Action.look (·.arena.epilogue)
        if (chart.enlarged cell).next = stop then do
          let missing ← liftM (Word.sub size (chart.enlarged cell).size)
          let extended ← Heap.extend missing
          pure extended.isOk
        else pure false) fun answer after => chart.Reserves cell size before answer after := by
  by_cases enough : size ≤ (chart.enlarged cell).size
  · have reserve : chart.reserve? cell size = some chart := by
      unfold reserve?
      rw [if_pos enough]
    rw [if_pos enough]
    exact Heap.yields_pure (.of_some reserve describes fun _ _ _ _ _ => rfl)
  · rw [if_neg enough]
    refine Heap.yields_bind_look ?_
    have epilogue : before.arena.epilogue = chart.setting.size := describes.size_eq
    rw [epilogue]
    by_cases atEnd : (chart.enlarged cell).next = chart.setting.size
    · rw [if_pos atEnd]
      refine Heap.yields_bind_lift (Word.sub_eq_ok_iff.mpr ⟨by omega, rfl⟩) ?_
      refine (describes.yields_extend (size - (chart.enlarged cell).size)).bind ?_
      rintro _ after ⟨rfl, described, unchanged, keeps⟩
      cases result : chart.extend (size - (chart.enlarged cell).size) with
      | mk outcome grown =>
        rw [result] at described unchanged keeps
        cases outcome with
        | error refusal =>
          have reserve : chart.reserve? cell size = none := by
            unfold reserve?
            rw [if_neg enough, if_pos atEnd, result]
          exact Heap.yields_pure (.of_none reserve (unchanged rfl))
        | ok range =>
          have reserve : chart.reserve? cell size = some grown := by
            unfold reserve?
            rw [if_neg enough, if_pos atEnd, result]
          exact Heap.yields_pure (.of_some reserve described fun other others =>
            describes.spares others ((describes.owns_extend result).2 others) (keeps range rfl))
    · have reserve : chart.reserve? cell size = none := by
        unfold reserve?
        rw [if_neg enough, if_neg atEnd]
      rw [if_neg atEnd]
      exact Heap.yields_pure (.of_none reserve rfl)

/-- Memory makes room behind a block when the chart does, and spares all payloads. -/
theorem Describes.yields_reserveAfter (describes : chart.Describes before)
    (owns : chart.Owns cell) :
    Heap.Yields before (Heap.reserveAfter cell.offset cell.size size) fun answer after =>
      chart.Reserves cell size before answer after := by
  obtain ⟨front, back, split⟩ := List.append_of_mem owns.1
  obtain ⟨_, after_eq⟩ := describes.splits split rfl rfl
  have closed := describes.closed
  rw [split] at closed
  obtain ⟨next, following, nextHeader⟩ := closed.header_next_eq_ok
  unfold Heap.reserveAfter
  refine Heap.yields_bind_inspectArena closed.nextBlock_eq_ok ?_
  refine Heap.yields_bind_inspectArena nextHeader ?_
  rw [Cell.allocated_tag]
  cases allocated : next.allocated with
  | true =>
    have head : Cell.freeHead? back = none := by
      cases back with
      | nil => rfl
      | cons first rest =>
        obtain rfl : first = next := by simpa using following
        simp [allocated]
    have same : chart.enlarged cell = ⟨cell.offset, cell.size, true⟩ := by
      simp only [enlarged, after_eq, head, Option.elim_none, Nat.add_zero]
    have reserved := describes.yields_reserve cell size
    rw [same] at reserved
    exact reserved
  | false =>
    cases back with
    | nil =>
      obtain rfl : Cell.epilogue chart.setting.size = next := by simpa using following
      cases allocated
    | cons first rest =>
      obtain rfl : first = next := by simpa using following
      have reserved := describes.yields_reserve cell size
      rw [describes.enlarged_eq split allocated] at reserved
      have nextClosed : before.Closed chart.setting ((front ++ [cell]) ++ first :: rest)
          chart.order := by simpa using closed
      obtain ⟨_, regular, begins, nextRegular, _⟩ := closed.tiles
      have small := nextClosed.next_lt
      have begins : first.offset = cell.offset + cell.size := begins
      have ends : first.next = cell.offset + (cell.size + first.size) := by
        unfold Cell.next
        omega
      rw [Cell.size_tag nextRegular]
      simp only [Bool.false_eq_true, if_false]
      refine Heap.yields_bind_lift (Word.add_eq_ok_iff.mpr ⟨by omega, rfl⟩) ?_
      refine Heap.yields_bind_inspectArena (begins ▸ nextClosed.nextBlock_eq_ok) ?_
      rw [ends]
      exact reserved

/-- The cells once an allocated cell took the free cell after it in. -/
theorem Describes.cells_widen (describes : chart.Describes before)
    (split : chart.cells = front ++ cell :: next :: back) (nextFree : next.allocated = false) :
    (chart.replace (chart.enlarged cell) [chart.enlarged cell]).cells =
      front ++ chart.enlarged cell :: back := by
  obtain ⟨frontTiles, insideTiles, backTiles⟩ := describes.tiles_enlarged split nextFree
  have splits := Cell.splits frontTiles backTiles fun other member => by
    obtain ⟨low, high, _, large⟩ := insideTiles.bounds member
    exact ⟨low, high, by omega⟩
  have split : chart.cells = front ++ ([cell, next] ++ back) := split
  rw [← split] at splits
  rw [replace_eq chart _ splits]
  simp

/-- The cells once an allocated cell took the free cell after it in and was cut down. -/
theorem Describes.cells_absorb (describes : chart.Describes before)
    (split : chart.cells = front ++ cell :: next :: back) (allocated : cell.allocated = true)
    (nextFree : next.allocated = false) (whole : size % 16 = 0) (large : 32 ≤ size) :
    (32 ≤ cell.size + next.size - size → (chart.absorb cell size).cells =
      front ++ ⟨cell.offset, size, true⟩ ::
        ⟨cell.offset + size, cell.size + next.size - size, false⟩ :: back) ∧
    (cell.size + next.size - size < 32 → (chart.absorb cell size).cells =
      front ++ ⟨cell.offset, cell.size + next.size, true⟩ :: back) := by
  obtain ⟨_, _, _, _, _, widened, _⟩ := describes.yields_absorbNext split allocated nextFree
  have cells := describes.cells_widen split nextFree
  have separated := describes.separated
  rw [split] at separated
  obtain ⟨_, _, _, behind⟩ := Cell.separated_append.mp separated
  rw [nextFree] at behind
  have follows : Cell.freeHead? (Option.toList none ++ back) = none :=
    Cell.freeHead?_toList_append behind (by simp)
  rw [absorb]
  rw [describes.enlarged_eq split nextFree] at widened cells ⊢
  constructor
  · intro loose
    exact widened.cells_trim cells follows whole large loose
  · intro tight
    rw [trim, if_neg (Nat.not_le_of_lt tight), cells]

/-- The enlarged cell belongs to the owner of the cell. -/
theorem Describes.owns_enlarged (describes : chart.Describes before)
    (split : chart.cells = front ++ cell :: next :: back) (nextFree : next.allocated = false) :
    (chart.replace (chart.enlarged cell) [chart.enlarged cell]).Owns (chart.enlarged cell) := by
  refine ⟨?_, rfl⟩
  rw [describes.cells_widen split nextFree]
  exact List.mem_append_right _ List.mem_cons_self

/-- The other owners are the same once a cell took the free cell after it in. -/
theorem Describes.owns_widen (describes : chart.Describes before)
    (split : chart.cells = front ++ cell :: next :: back) (nextFree : next.allocated = false)
    {heap : Heap σ last}
    (widened : (chart.replace (chart.enlarged cell) [chart.enlarged cell]).Describes heap) :
    (chart.replace (chart.enlarged cell) [chart.enlarged cell]).Owns other ∧
      other ≠ chart.enlarged cell ↔ chart.Owns other ∧ other ≠ cell := by
  have cells := describes.cells_widen split nextFree
  have old : other ∈ front ++ next :: back ↔ other ∈ chart.cells ∧ other ≠ cell :=
    describes.mem_around split
  have new : other ∈ front ++ back ↔ other ∈ _ ∧ other ≠ chart.enlarged cell :=
    widened.mem_around cells
  have apart : chart.Owns other → other ≠ next := fun others => others.ne_of_free nextFree
  unfold Owns at apart ⊢
  simp only [List.mem_append, List.mem_cons] at old new
  grind

/-- A cell that takes the free cell after it in and is cut down again stays with its owner. -/
theorem Describes.owns_absorb (describes : chart.Describes before)
    (split : chart.cells = front ++ cell :: next :: back) (nextFree : next.allocated = false)
    {heap : Heap σ last}
    (widened : (chart.replace (chart.enlarged cell) [chart.enlarged cell]).Describes heap)
    (whole : size % 16 = 0) (large : 32 ≤ size) (fits : size ≤ cell.size + next.size) :
    ∃ kept : Cell, kept.offset = cell.offset ∧ kept.allocated = true ∧
      (kept.size = size ∨ kept.size = size + 16) ∧
      ∀ other, (chart.absorb cell size).Owns other ↔
        other = kept ∨ chart.Owns other ∧ other ≠ cell := by
  have fits : size ≤ (chart.enlarged cell).size := by
    rw [describes.enlarged_eq split nextFree]
    exact fits
  obtain ⟨kept, offset, allocated, sized, owned⟩ :=
    widened.owns_trim (describes.owns_enlarged split nextFree) whole large fits
  refine ⟨kept, offset, allocated, sized, fun other => ?_⟩
  unfold absorb
  rw [owned other, describes.owns_widen split nextFree widened]

/-- Taking a free cell in spares all payloads. -/
theorem Describes.spares_of_absorbNext (describes : chart.Describes before)
    (split : chart.cells = front ++ cell :: next :: back) (allocated : cell.allocated = true)
    (nextFree : next.allocated = false) (others : chart.Owns other) {arena : Arena σ}
    (keeps : Arena.Keeps (fun index => cell.offset ≤ index + 8 ∧ index < cell.offset ∨
      next.next ≤ index + 8 ∧ index < next.next ∨ Arena.NodeBytes chart.order index)
      before.arena arena) : Arena.Spares other before.arena arena := by
  have member : cell ∈ chart.cells := by
    rw [split]
    simp
  have nextMember : next ∈ chart.cells := by
    rw [split]
    simp
  have nextOrdered := describes.indexed next nextMember nextFree
  have cellSides := describes.apart_of_owns others ⟨member, allocated⟩
  have nextSides := describes.apart_of_mem_order others nextOrdered
  obtain ⟨_, _, _, large⟩ := describes.tiles.bounds member
  obtain ⟨_, _, _, nextLarge⟩ := describes.tiles.bounds nextMember
  refine keeps.spares fun index low high hit => ?_
  rcases hit with inHeader | inFollower | ⟨node, found, above, below⟩
  · rcases cellSides with rfl | apart
    · omega
    · unfold Cell.next at *
      omega
  · unfold Cell.next at *
    omega
  · have nodeLarge := (describes.tiles.bounds (describes.closed.free node found).1).2.2.2
    have sides := describes.apart_of_mem_order others found
    unfold Cell.next at *
    omega

/-- A block is enlarged in place when the chart makes room behind it, and spares all payloads. -/
theorem Describes.yields_growInPlace (describes : chart.Describes before) (owns : chart.Owns cell)
    (whole : size % 16 = 0) (large : 32 ≤ size) (short : cell.size < size) :
    Heap.Yields before (Heap.growInPlace cell.offset cell.size size) fun answer after =>
      answer = (chart.reserve? cell size).isSome ∧
        (chart.reserve? cell size = none → after = before) ∧
        ∀ reserved, chart.reserve? cell size = some reserved →
          (reserved.absorb cell size).Describes after ∧
          (∀ other, chart.Owns other → Arena.Spares other before.arena after.arena) ∧
          ∃ kept : Cell, kept.offset = cell.offset ∧ kept.allocated = true ∧
            (kept.size = size ∨ kept.size = size + 16) ∧
            ∀ other, (reserved.absorb cell size).Owns other ↔
              other = kept ∨ chart.Owns other ∧ other ≠ cell := by
  unfold Heap.growInPlace
  refine (describes.yields_reserveAfter owns).bind ?_
  rintro _ one ⟨rfl, unchanged, described, spares⟩
  cases found : chart.reserve? cell size with
  | none =>
    refine Heap.yields_pure ⟨rfl, fun _ => unchanged found, ?_⟩
    rintro reserved ⟨⟩
  | some reserved =>
    have described := described reserved found
    have oneSpares := spares reserved found
    obtain ⟨front, next, back, split, nextFree, fits, owned⟩ :=
      describes.exists_reserved owns short found
    refine (described.yields_absorbNext split owns.2 nextFree).bind ?_
    rintro _ two ⟨rfl, widened, twoAlters⟩
    have wider : size ≤ (reserved.enlarged cell).size := by
      rw [described.enlarged_eq split nextFree]
      exact fits
    refine Heap.Yields.bind (widened.yields_trim (described.cells_widen split nextFree) rfl whole
      large wider) ?_
    rintro _ after ⟨trimmed, threeAlters⟩
    refine Heap.yields_pure ⟨rfl, (fun impossible => by cases impossible), ?_⟩
    rintro _ ⟨rfl⟩
    refine ⟨trimmed, fun other others => ?_, ?_⟩
    · have twoSpares := described.spares_of_absorbNext split owns.2 nextFree
        ((owned other).mpr others) twoAlters.keeps
      obtain ⟨elsewhere, here⟩ :=
        widened.spares_of_trim (described.owns_enlarged split nextFree) threeAlters.keeps
      have threeSpares : Arena.Spares other two.arena after.arena := by
        by_cases same : other = cell
        · rw [same]
          intro index low high
          have far := reserved.next_le_enlarged cell
          have begin_eq : (reserved.enlarged cell).offset = cell.offset := rfl
          have ends : cell.next = cell.offset + cell.size := rfl
          exact here index low (by omega) (by omega)
        · have beside := (described.owns_widen split nextFree widened).mpr
            ⟨(owned other).mpr others, same⟩
          exact elsewhere other beside.1 beside.2
      exact ((oneSpares other others).trans twoSpares).trans threeSpares
    · obtain ⟨kept, offset, allocated, sized, absorbed⟩ :=
        described.owns_absorb split nextFree widened whole large fits
      refine ⟨kept, offset, allocated, sized, fun other => ?_⟩
      rw [absorbed, owned]

end Chart

end SegregatedFit
